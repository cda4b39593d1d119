import EdgeAdmission.Resolver
import Mathlib.Tactic

/-! Where a visibility question stops on its way up through the enclosing macro calls, and what it
is told there. -/

namespace EdgeAdmission

namespace Declaration

def parent? (d : Declaration) : Option MacroCall := d.nesting.head?

def caller (d : Declaration) : Declaration :=
  match d.nesting with
  | [] => d
  | m :: enclosing => .call m enclosing

def ancestor (d : Declaration) (k : ℕ) : Declaration := caller^[k] d

def givenRun (d : Declaration) (l : Label) : ℕ := (d.nesting.takeWhile (·.wasGiven l)).length

variable {d : Declaration} {m : MacroCall} {enclosing : List MacroCall} {l : Label} {k : ℕ}

@[simp] lemma ancestor_zero (d : Declaration) : d.ancestor 0 = d := rfl

lemma ancestor_succ (d : Declaration) (k : ℕ) : d.ancestor (k + 1) = d.caller.ancestor k :=
  Function.iterate_succ_apply caller k d

lemma caller_eq_call (h : d.nesting = m :: enclosing) : d.caller = .call m enclosing := by
  simp only [caller, h]

lemma nesting_eq_cons (h : d.parent? = some m) : d.nesting = m :: d.caller.nesting := by
  obtain ⟨enclosing, hd⟩ := List.head?_eq_some_iff.mp h
  rw [caller_eq_call hd]
  exact hd

lemma package_caller (h : d.parent? = some m) : d.caller.package = m.package := by
  rw [caller_eq_call (nesting_eq_cons h)]
  rfl

lemma givenRun_eq_zero_iff :
    d.givenRun l = 0 ↔ ∀ m, d.parent? = some m → m.wasGiven l = false := by
  cases hd : d.nesting with
  | nil => simp [givenRun, parent?, hd]
  | cons m enclosing => by_cases hm : m.wasGiven l <;> simp [givenRun, parent?, hd, hm]

lemma givenRun_eq_succ (h : d.parent? = some m) (hm : m.wasGiven l = true) :
    d.givenRun l = d.caller.givenRun l + 1 := by
  have hd := nesting_eq_cons h
  simp only [givenRun]
  rw [hd, List.takeWhile_cons_of_pos (by exact hm), List.length_cons]

lemma exists_given (h : 0 < d.givenRun l) :
    ∃ m, d.parent? = some m ∧ m.wasGiven l = true := by
  by_contra hn
  have hz : d.givenRun l = 0 := givenRun_eq_zero_iff.mpr (by
    intro m hm
    simpa using fun hg => hn ⟨m, hm, hg⟩)
  omega

lemma given_below_run (h : k < d.givenRun l) :
    ∃ m enclosing, (d.ancestor k).parent? = some m ∧ m.wasGiven l = true ∧
      d.ancestor (k + 1) = .call m enclosing := by
  induction k generalizing d with
  | zero =>
    obtain ⟨m, hm, hg⟩ := exists_given h
    exact ⟨m, d.caller.nesting, hm, hg, caller_eq_call (nesting_eq_cons hm)⟩
  | succ k ih =>
    obtain ⟨m, hm, hg⟩ := exists_given (Nat.zero_lt_of_lt h)
    rw [givenRun_eq_succ hm hg] at h
    rw [ancestor_succ, ancestor_succ]
    exact ih (Nat.lt_of_succ_lt_succ h)

lemma not_given_at_run :
    ∀ m, (d.ancestor (d.givenRun l)).parent? = some m → m.wasGiven l = false := by
  induction hk : d.givenRun l generalizing d with
  | zero => exact givenRun_eq_zero_iff.mp hk
  | succ k ih =>
    obtain ⟨m, hm, hg⟩ := exists_given (l := l) (d := d) (by omega)
    rw [ancestor_succ]
    exact ih (by rw [givenRun_eq_succ hm hg] at hk; omega)

end Declaration

namespace Resolver

def settle (r : Resolver) (p : Prerequisite) (d : Declaration) : Verdict :=
  match d.parent? with
  | none => r.atLocation p d.package
  | some m =>
    if m.macroClass.isFinalizer then
      (r.atLocation p d.package).orElse (r.atLocation p m.macroClass.location)
    else r.atLocation p m.macroClass.location

variable {r : Resolver} {p : Prerequisite} {origin d : Declaration} {m : MacroCall} {hops : ℕ}

lemma delegate_exhausted (h : d.parent? = some m) (hm : m.wasGiven p.label = true) :
    r.delegate p origin 0 d.package d.nesting =
      .unresolved (.nestingTooDeep p origin r.maxMacroDepth) := by
  rw [Declaration.nesting_eq_cons h, delegate_cons, if_pos hm]

lemma delegate_step (h : d.parent? = some m) (hm : m.wasGiven p.label = true) :
    r.delegate p origin (hops + 1) d.package d.nesting =
      r.delegate p origin hops d.caller.package d.caller.nesting := by
  rw [Declaration.nesting_eq_cons h, delegate_cons, if_pos hm, Declaration.package_caller h]

lemma delegate_settle (h : ∀ m, d.parent? = some m → m.wasGiven p.label = false) :
    r.delegate p origin hops d.package d.nesting = r.settle p d := by
  cases hd : d.parent? with
  | none =>
    have hn : d.nesting = [] := List.head?_eq_none_iff.mp hd
    rw [hn, delegate_nil, settle, hd]
  | some m =>
    have hm := h m hd
    rw [Declaration.nesting_eq_cons hd, delegate_cons, settle, hd]
    simp only [hm, Bool.false_eq_true, if_false]

lemma delegate_eq (r : Resolver) (p : Prerequisite) (origin : Declaration) (hops : ℕ)
    (d : Declaration) :
    r.delegate p origin hops d.package d.nesting =
      if hops < d.givenRun p.label then .unresolved (.nestingTooDeep p origin r.maxMacroDepth)
      else r.settle p (d.ancestor (d.givenRun p.label)) := by
  -- A move uses up one hop and shortens the run by one, so their order does not change.
  induction hk : d.givenRun p.label generalizing d hops with
  | zero =>
    rw [if_neg (Nat.not_lt_zero hops), Declaration.ancestor_zero]
    exact delegate_settle (Declaration.givenRun_eq_zero_iff.mp hk)
  | succ k ih =>
    obtain ⟨m, hm, hg⟩ := Declaration.exists_given (l := p.label) (d := d) (by omega)
    cases hops with
    | zero => rw [delegate_exhausted hm hg, if_pos (Nat.succ_pos k)]
    | succ hops =>
      have hk' : d.caller.givenRun p.label = k := by
        rw [Declaration.givenRun_eq_succ hm hg] at hk
        omega
      rw [delegate_step hm hg, ih hops d.caller hk', Declaration.ancestor_succ]
      simp only [Nat.add_lt_add_iff_right]

lemma atDeclaration_eq (r : Resolver) (p : Prerequisite) (d : Declaration) :
    r.atDeclaration p d =
      if r.maxMacroDepth < d.givenRun p.label then
        .unresolved (.nestingTooDeep p d r.maxMacroDepth)
      else r.settle p (d.ancestor (d.givenRun p.label)) :=
  delegate_eq r p d r.maxMacroDepth d

lemma cause_of_settle {cause : Unresolved} (h : r.settle p d = .unresolved cause) :
    cause = .noVisibility p := by
  unfold settle at h
  cases hd : d.parent? with
  | none =>
    rw [hd] at h
    exact cause_of_atLocation r p _ h
  | some m =>
    rw [hd] at h
    dsimp only at h
    split at h
    · rcases Verdict.orElse_eq_unresolved_iff.mp h with hl | ⟨_, hr⟩
      · exact cause_of_atLocation r p _ hl
      · exact cause_of_atLocation r p _ hr
    · exact cause_of_atLocation r p _ h

lemma atDeclaration_nestingTooDeep_iff (r : Resolver) (p : Prerequisite) (d : Declaration) :
    (∃ q origin limit, r.atDeclaration p d = .unresolved (.nestingTooDeep q origin limit)) ↔
      r.maxMacroDepth < d.givenRun p.label := by
  rw [atDeclaration_eq]
  constructor
  · rintro ⟨q, origin, limit, h⟩
    by_contra hn
    rw [if_neg hn] at h
    have hc := cause_of_settle h
    contradiction
  · intro h
    exact ⟨p, d, r.maxMacroDepth, if_pos h⟩

lemma settle_cap (r : Resolver) (p : Prerequisite) (d : Declaration) (cap : ℕ) :
    ({ r with maxMacroDepth := cap } : Resolver).settle p d = r.settle p d := rfl

lemma atDeclaration_cap {cap : ℕ} (hr : d.givenRun p.label ≤ r.maxMacroDepth)
    (hc : d.givenRun p.label ≤ cap) :
    ({ r with maxMacroDepth := cap } : Resolver).atDeclaration p d = r.atDeclaration p d := by
  rw [atDeclaration_eq, atDeclaration_eq, if_neg (Nat.not_lt.mpr hc), if_neg (Nat.not_lt.mpr hr),
    settle_cap]

lemma givenRun_le_of_ofBool {b : Bool} (h : r.atDeclaration p d = .ofBool b) :
    d.givenRun p.label ≤ r.maxMacroDepth := by
  by_contra hn
  rw [atDeclaration_eq, if_pos (Nat.lt_of_not_le hn)] at h
  cases b <;> simp [Verdict.ofBool] at h

theorem atDeclaration_closed_form (r : Resolver) (p : Prerequisite) (d : Declaration) :
    let k := d.givenRun p.label
    let e := d.ancestor k
    (∀ i < k, ∃ m enclosing, (d.ancestor i).parent? = some m ∧ m.wasGiven p.label = true ∧
      d.ancestor (i + 1) = .call m enclosing) ∧
    (∀ m, e.parent? = some m → m.wasGiven p.label = false) ∧
    (r.atDeclaration p d =
      if r.maxMacroDepth < k then .unresolved (.nestingTooDeep p d r.maxMacroDepth)
      else
        match e.parent? with
        | none => r.atLocation p e.package
        | some m =>
          if m.macroClass.isFinalizer then
            match r.atLocation p e.package with
            | .granted => .granted
            | .unresolved cause => .unresolved cause
            | .denied => r.atLocation p m.macroClass.location
          else r.atLocation p m.macroClass.location) ∧
    ((∃ q origin limit, r.atDeclaration p d = .unresolved (.nestingTooDeep q origin limit)) ↔
      r.maxMacroDepth < k) ∧
    ∀ cap b, r.maxMacroDepth ≤ cap → r.atDeclaration p d = .ofBool b →
      ({ r with maxMacroDepth := cap } : Resolver).atDeclaration p d = .ofBool b := by
  intro k e
  refine ⟨fun i hi => Declaration.given_below_run hi, Declaration.not_given_at_run, ?_,
    atDeclaration_nestingTooDeep_iff r p d, ?_⟩
  · rw [atDeclaration_eq, settle]
    congr 1
    cases e.parent? with
    | none => rfl
    | some m => cases r.atLocation p e.package <;> rfl
  · intro cap b hc hb
    have hk := givenRun_le_of_ofBool hb
    rw [atDeclaration_cap hk (hk.trans hc), hb]

end Resolver

end EdgeAdmission
