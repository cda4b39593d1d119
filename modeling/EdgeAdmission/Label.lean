import EdgeAdmission.Package

/-! Labels of targets, written `package:name`. -/

namespace EdgeAdmission

inductive TargetNameFault
  | empty
  | containsColon (name : String)
  | slash (name : String)
  deriving DecidableEq, Repr

def TargetNameFault.message : TargetNameFault → String
  | empty => "Target name must be non-empty"
  | containsColon name => "Target name `" ++ name ++ "` must not contain `:`"
  | slash name => "Target name `" ++ name ++ "` must not start or end with `/`"

structure TargetName where
  text : String
  nonempty : text ≠ ""
  no_colon : ':' ∉ text.toList
  no_outer_slash : ¬(text.toList.head? = some '/' ∨ text.toList.getLast? = some '/')
  deriving Repr

def TargetName.parse (text : String) : Except TargetNameFault TargetName :=
  if hn : text = "" then .error .empty
  else if hc : ':' ∈ text.toList then .error (.containsColon text)
  else if hs : text.toList.head? = some '/' ∨ text.toList.getLast? = some '/' then
    .error (.slash text)
  else .ok ⟨text, hn, hc, hs⟩

@[ext] theorem TargetName.ext {n m : TargetName} (h : n.text = m.text) : n = m := by
  cases n; cases m; simp_all

instance : DecidableEq TargetName := fun _ _ => decidable_of_iff _ TargetName.ext_iff.symm

instance : Inhabited TargetName := ⟨⟨"target", by decide, by decide, by decide⟩⟩

theorem TargetName.parse_text (n : TargetName) : parse n.text = .ok n := by
  rw [parse, dif_neg n.nonempty, dif_neg n.no_colon, dif_neg n.no_outer_slash]

inductive LabelFault
  | missingColon (text : String)
  | package (fault : PackageFault)
  | name (fault : TargetNameFault)
  deriving DecidableEq, Repr

def LabelFault.message : LabelFault → String
  | missingColon text =>
    "Target label `" ++ text ++ "` must contain `:` separating package and name"
  | package fault => fault.message
  | name fault => fault.message

structure Label where
  package : Package
  name : TargetName
  deriving DecidableEq, Repr, Inhabited

namespace Label

def parse (text : String) (current : Cell) : Except LabelFault Label :=
  match Text.cutLast? ':' text.toList with
  | none => .error (.missingColon text)
  | some (package, name) => do
    let package ← (Package.parse (.ofList package) current).mapError .package
    let name ← (TargetName.parse (.ofList name)).mapError .name
    return ⟨package, name⟩

def display (l : Label) : String := l.package.display ++ ":" ++ l.name.text

instance : Ord Label where
  compare := compareLex (compareOn fun l => l.package) (compareOn fun l => l.name.text)

@[ext] theorem ext {l m : Label} (hp : l.package = m.package) (hn : l.name = m.name) : l = m := by
  cases l; cases m; simp_all

instance : Std.TransOrd Label :=
  inferInstanceAs <| Std.TransCmp <|
    compareLex (compareOn fun l : Label => l.package) (compareOn fun l => l.name.text)

instance : Std.LawfulEqOrd Label where
  eq_of_compare {l m} h := by
    obtain ⟨hp, hn⟩ := Ordering.then_eq_eq.mp h
    exact Label.ext (Std.LawfulEqOrd.eq_of_compare hp)
      (TargetName.ext (Std.LawfulEqOrd.eq_of_compare hn))

def sorted (labels : List Label) : List Label := labels.mergeSort fun l m => (compare l m).isLE

def packages (labels : List Label) : List Package :=
  (labels.map (·.package)).eraseDups.mergeSort fun p q => (compare p q).isLE

end Label

end EdgeAdmission
