import EdgeAdmission.Check

namespace EdgeAdmission

structure Report where
  diagnostics : List Diagnostic
  deriving DecidableEq, Repr

namespace Report

def empty : Report := ⟨[]⟩

def add (r : Report) (d : Diagnostic) : Report := ⟨r.diagnostics ++ [d]⟩

def addAll (r : Report) (ds : List Diagnostic) : Report := ds.foldl add r

def isEmpty (r : Report) : Bool := r.diagnostics.isEmpty

def hasErrors (r : Report) : Bool := r.diagnostics.any (·.isError)

def errors (r : Report) : List Diagnostic := r.diagnostics.filter (·.isError)

def warnings (r : Report) : List Diagnostic := r.diagnostics.filter (!·.isError)

def checkEdge (policy : Policy) (options : CheckOptions) (r : Report) (e : Edge) : Report :=
  let r := r.addAll (Check.location policy options e).toList
  let r := r.addAll (Check.packageGroup e).toList
  let r := r.addAll (Check.visibility policy options e).toList
  let r := r.addAll (Check.testonly policy options e).toList
  r.addAll (Check.deprecation policy e).toList

def checkEdges (policy : Policy) (options : CheckOptions) (r : Report) (es : List Edge) : Report :=
  es.foldl (checkEdge policy options) r

@[simp] theorem diagnostics_add (r : Report) (d : Diagnostic) :
    (r.add d).diagnostics = r.diagnostics ++ [d] := rfl

@[simp] theorem diagnostics_addAll (r : Report) (ds : List Diagnostic) :
    (r.addAll ds).diagnostics = r.diagnostics ++ ds := by
  induction ds generalizing r with
  | nil => simp [addAll]
  | cons d ds ih =>
    have := ih (r.add d)
    simp_all [addAll]

theorem diagnostics_checkEdge (policy : Policy) (options : CheckOptions) (r : Report) (e : Edge) :
    (checkEdge policy options r e).diagnostics =
      r.diagnostics ++ (Check.location policy options e).toList ++ (Check.packageGroup e).toList ++
        (Check.visibility policy options e).toList ++ (Check.testonly policy options e).toList ++
        (Check.deprecation policy e).toList := by
  simp only [checkEdge, diagnostics_addAll]

@[ext] theorem ext {r s : Report} (h : r.diagnostics = s.diagnostics) : r = s := by
  cases r; cases s; simp_all

end Report

end EdgeAdmission
