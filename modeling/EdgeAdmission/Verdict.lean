import EdgeAdmission.Edge

namespace EdgeAdmission

inductive Declaration
  | target (target : Target)
  | call (call : MacroCall) (enclosing : List MacroCall)
  deriving DecidableEq, Repr

namespace Declaration

def package : Declaration → Package
  | target t => t.package
  | call m _ => m.package

def nesting : Declaration → List MacroCall
  | target t => t.nesting
  | call _ enclosing => enclosing

def display : Declaration → String
  | target t => "target '" ++ t.label.display ++ "'"
  | call m _ => m.display

end Declaration

inductive Unresolved
  | nestingTooDeep (prerequisite : Prerequisite) (origin : Declaration) (limit : Nat)
  | noVisibility (prerequisite : Prerequisite)
  deriving DecidableEq, Repr

def Unresolved.message : Unresolved → String
  | nestingTooDeep prerequisite origin limit =>
    "Visibility error:\ncannot check " ++ prerequisite.describe ++ " from " ++ origin.display ++
      ": macro delegation chain is deeper than " ++ limit.repr ++
      " (raise `depcheck.max_macro_depth` if this nesting is intended)"
  | noVisibility prerequisite =>
    "Visibility error:\n" ++ prerequisite.describe ++ " has no visibility information"

inductive Verdict
  | granted
  | denied
  | unresolved (cause : Unresolved)
  deriving DecidableEq, Repr

namespace Verdict

def ofBool (b : Bool) : Verdict := if b then granted else denied

def orElse : Verdict → Verdict → Verdict
  | denied, v => v
  | v, _ => v

@[simp] theorem granted_orElse (v : Verdict) : granted.orElse v = granted := rfl

@[simp] theorem denied_orElse (v : Verdict) : denied.orElse v = v := rfl

@[simp] theorem unresolved_orElse (cause : Unresolved) (v : Verdict) :
    (unresolved cause).orElse v = unresolved cause := rfl

theorem orElse_of_ne_denied {v w : Verdict} (h : v ≠ denied) : v.orElse w = v := by
  cases v <;> simp_all

theorem orElse_eq_denied_iff {v w : Verdict} : v.orElse w = denied ↔ v = denied ∧ w = denied := by
  cases v <;> simp

theorem orElse_eq_unresolved_iff {v w : Verdict} {cause : Unresolved} :
    v.orElse w = unresolved cause ↔ v = unresolved cause ∨ v = denied ∧ w = unresolved cause := by
  cases v <;> simp

end Verdict

end EdgeAdmission
