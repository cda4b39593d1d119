import EdgeAdmission.Verdict

/-! From where a declaration asks for a prerequisite, and what answer it gets there.

A declaration made in a build file asks from its package. One made in a symbolic macro asks from
the package that the macro is defined in, unless the caller gave the macro the label that is asked
for: then the macro call itself is the one to ask. -/

namespace EdgeAdmission

structure Policy where
  isSameLogicalPackage : Package → Package → Bool
  isExperimental : Package → Bool
  checksExperimental : Target → Bool
  checksToolchain : Target → Label → Bool

structure Resolver where
  policy : Policy
  checksExperimental : Bool
  maxMacroDepth : Nat

namespace Resolver

def atLocation (r : Resolver) (p : Prerequisite) (here : Package) : Verdict :=
  if !r.checksExperimental && r.policy.isExperimental here then .granted
  else
    match p.visibility with
    | none => .unresolved (.noVisibility p)
    | some v =>
      .ofBool <|
        !v.inSymbolicMacro && r.policy.isSameLogicalPackage here p.label.package || v.contains here

/-- Whether a declaration in the package `here`, made in the macro calls `nesting`, may use `p`. The
question goes up by at most `hops` calls. A finalizer has also the rights of `here`. -/
def delegate (r : Resolver) (p : Prerequisite) (origin : Declaration) (hops : Nat)
    (here : Package) (nesting : List MacroCall) : Verdict :=
  match nesting with
  | [] => r.atLocation p here
  | m :: enclosing =>
    if m.wasGiven p.label then
      match hops with
      | 0 => .unresolved (.nestingTooDeep p origin r.maxMacroDepth)
      | hops + 1 => r.delegate p origin hops m.package enclosing
    else if m.macroClass.isFinalizer then
      (r.atLocation p here).orElse (r.atLocation p m.macroClass.location)
    else r.atLocation p m.macroClass.location

def atDeclaration (r : Resolver) (p : Prerequisite) (d : Declaration) : Verdict :=
  r.delegate p d r.maxMacroDepth d.package d.nesting

variable (r : Resolver) (p : Prerequisite) (origin : Declaration) (hops : Nat) (here : Package)

theorem delegate_nil : r.delegate p origin hops here [] = r.atLocation p here := by
  rw [delegate.eq_def]

theorem delegate_cons (m : MacroCall) (enclosing : List MacroCall) :
    r.delegate p origin hops here (m :: enclosing) =
      if m.wasGiven p.label then
        match hops with
        | 0 => .unresolved (.nestingTooDeep p origin r.maxMacroDepth)
        | hops + 1 => r.delegate p origin hops m.package enclosing
      else if m.macroClass.isFinalizer then
        (r.atLocation p here).orElse (r.atLocation p m.macroClass.location)
      else r.atLocation p m.macroClass.location := by
  rw [delegate.eq_def]

theorem atLocation_of_visibility {v : Visibility} (h : p.visibility = some v) :
    r.atLocation p here =
      .ofBool (!r.checksExperimental && r.policy.isExperimental here ||
        (!v.inSymbolicMacro && r.policy.isSameLogicalPackage here p.label.package ||
          v.contains here)) := by
  rw [atLocation, h]
  cases !r.checksExperimental && r.policy.isExperimental here <;> rfl

theorem atLocation_of_no_visibility (h : p.visibility = none) :
    r.atLocation p here =
      if !r.checksExperimental && r.policy.isExperimental here then .granted
      else .unresolved (.noVisibility p) := by
  rw [atLocation, h]

theorem cause_of_atLocation {cause : Unresolved} (h : r.atLocation p here = .unresolved cause) :
    cause = .noVisibility p := by
  cases hv : p.visibility with
  | none =>
    rw [atLocation_of_no_visibility r p here hv] at h
    split at h <;> simp_all
  | some v =>
    rw [atLocation_of_visibility r p here hv, Verdict.ofBool] at h
    split at h <;> simp at h

end Resolver

end EdgeAdmission
