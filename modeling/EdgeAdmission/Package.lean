import EdgeAdmission.Cell
import EdgeAdmission.PackagePath
import EdgeAdmission.Text.Cut

/-! Packages, written `cell//path` or, seen from their own cell, `//path`. -/

namespace EdgeAdmission

inductive PackageFault
  | containsColon (text : String)
  | missingSlashes (text : String)
  | cell (fault : CellFault)
  | path (fault : PathFault)
  deriving DecidableEq, Repr

def PackageFault.message : PackageFault → String
  | containsColon text =>
    "Package `" ++ text ++ "` must not contain `:`; expected a package, not a target"
  | missingSlashes text => "Package `" ++ text ++ "` must contain `//`"
  | cell fault => fault.message
  | path fault => fault.message

structure Package where
  cell : Cell
  path : PackagePath
  deriving DecidableEq, Repr, Inhabited

namespace Package

def parse (text : String) (current : Cell) : Except PackageFault Package :=
  if ':' ∈ text.toList then .error (.containsColon text)
  else
    match Text.cutDouble? '/' text.toList with
    | none => .error (.missingSlashes text)
    | some (reference, path) => do
      let cell ← (Cell.resolve reference current).mapError .cell
      let path ← (PackagePath.parse (.ofList path)).mapError .path
      return ⟨cell, path⟩

def display (p : Package) : String := p.cell.name ++ "//" ++ p.path.text

instance : Ord Package where
  compare := compareLex (compareOn fun p => p.cell.name) (compareOn fun p => p.path.text)

def isAtOrBelow (p q : Package) : Bool := p.cell = q.cell && p.path.isAtOrBelow q.path

@[ext] theorem ext {p q : Package} (hc : p.cell = q.cell) (hp : p.path = q.path) : p = q := by
  cases p; cases q; simp_all

instance : Std.TransOrd Package :=
  inferInstanceAs <| Std.TransCmp <|
    compareLex (compareOn fun p : Package => p.cell.name) (compareOn fun p => p.path.text)

instance : Std.LawfulEqOrd Package where
  eq_of_compare {p q} h := by
    obtain ⟨hc, hp⟩ := Ordering.then_eq_eq.mp h
    exact Package.ext (Cell.ext (Std.LawfulEqOrd.eq_of_compare hc))
      (PackagePath.ext (Std.LawfulEqOrd.eq_of_compare hp))

end Package

end EdgeAdmission
