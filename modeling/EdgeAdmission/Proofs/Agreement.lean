import EdgeAdmission.Conventions
import EdgeAdmission.Proofs.Delegation

namespace EdgeAdmission

inductive Verdict.Agree (p q : Prerequisite) (d e : Declaration) : Verdict → Verdict → Prop
  | granted : Agree p q d e granted granted
  | denied : Agree p q d e denied denied
  | nestingTooDeep (limit : ℕ) : Agree p q d e (unresolved (.nestingTooDeep p d limit))
      (unresolved (.nestingTooDeep q e limit))
  | noVisibility : Agree p q d e (unresolved (.noVisibility p)) (unresolved (.noVisibility q))

structure Prerequisite.Alike (p q : Prerequisite) : Prop where
  label : p.label = q.label
  visibility : p.visibility = q.visibility

structure MacroCall.Alike (l : Label) (m n : MacroCall) : Prop where
  package : m.package = n.package
  location : m.macroClass.location = n.macroClass.location
  finalizer : m.macroClass.isFinalizer = n.macroClass.isFinalizer
  given : m.wasGiven l = n.wasGiven l

structure Declaration.Alike (l : Label) (d e : Declaration) : Prop where
  package : d.package = e.package
  nesting : List.Forall₂ (MacroCall.Alike l) d.nesting e.nesting

def Prerequisite.throughAliases (p : Prerequisite) (aliases : List Target) : Prerequisite :=
  aliases.foldl throughAlias p

def MacroCall.give (m : MacroCall) (l : Label) : MacroCall :=
  { m with arguments := l :: m.arguments }

def Declaration.giveAt (d : Declaration) (i : ℕ) (l : Label) : Declaration :=
  match d with
  | target t => .target { t with nesting := t.nesting.modify i (·.give l) }
  | call m enclosing => .call m (enclosing.modify i (·.give l))

variable {p q : Prerequisite} {d e : Declaration}

lemma Prerequisite.throughAliases_concat (p : Prerequisite) (aliases : List Target)
    (outer : Target) :
    p.throughAliases (aliases ++ [outer]) = (p.throughAliases aliases).throughAlias outer := by
  simp only [throughAliases, List.foldl_append, List.foldl_cons, List.foldl_nil]

lemma Prerequisite.throughAliases_alike {a b : Target} (hl : a.label = b.label)
    (hv : a.visibility = b.visibility) (p q : Prerequisite) (as bs : List Target) :
    (p.throughAliases (as ++ [a])).Alike (q.throughAliases (bs ++ [b])) := by
  rw [throughAliases_concat, throughAliases_concat]
  exact ⟨hl, congrArg some hv⟩

lemma MacroCall.give_alike {l k : Label} (h : l ≠ k) (m : MacroCall) : m.Alike l (m.give k) := by
  refine ⟨rfl, rfl, rfl, ?_⟩
  simp [wasGiven, give, h]

lemma MacroCall.Alike.refl (l : Label) (m : MacroCall) : m.Alike l m := ⟨rfl, rfl, rfl, rfl⟩

lemma Declaration.Alike.refl (l : Label) (d : Declaration) : d.Alike l d :=
  ⟨rfl, List.forall₂_same.mpr fun m _ => MacroCall.Alike.refl l m⟩

lemma MacroCall.modify_alike {l k : Label} (h : l ≠ k) (ms : List MacroCall) (i : ℕ) :
    List.Forall₂ (MacroCall.Alike l) ms (ms.modify i (·.give k)) := by
  induction ms generalizing i with
  | nil =>
    rw [List.modify_nil]
    exact .nil
  | cons m ms ih =>
    cases i with
    | zero => exact .cons (give_alike h m) (List.forall₂_same.mpr fun n _ => .refl l n)
    | succ i => exact .cons (.refl l m) (ih i)

namespace Declaration.Alike

variable {l : Label}

lemma parent? (h : d.Alike l e) : d.parent? = none ∧ e.parent? = none ∨
    ∃ m n, d.parent? = some m ∧ e.parent? = some n ∧ m.Alike l n := by
  have hn := h.nesting
  cases hd : d.nesting with
  | nil =>
    rw [hd, List.forall₂_nil_left_iff] at hn
    simp [Declaration.parent?, hd, hn]
  | cons m ms =>
    rw [hd, List.forall₂_cons_left_iff] at hn
    obtain ⟨n, ns, hm, _, he⟩ := hn
    simp [Declaration.parent?, hd, he, hm]

lemma caller (h : d.Alike l e) : d.caller.Alike l e.caller := by
  have hn := h.nesting
  cases hd : d.nesting with
  | nil =>
    rw [hd, List.forall₂_nil_left_iff] at hn
    simpa only [Declaration.caller, hd, hn] using h
  | cons m ms =>
    rw [hd, List.forall₂_cons_left_iff] at hn
    obtain ⟨n, ns, hm, hms, he⟩ := hn
    rw [caller_eq_call hd, caller_eq_call he]
    exact ⟨hm.package, hms⟩

lemma ancestor (h : d.Alike l e) (k : ℕ) : (d.ancestor k).Alike l (e.ancestor k) := by
  induction k generalizing d e with
  | zero => exact h
  | succ k ih =>
    rw [ancestor_succ, ancestor_succ]
    exact ih h.caller

lemma givenRun (h : d.Alike l e) : d.givenRun l = e.givenRun l := by
  have hn := h.nesting
  unfold Declaration.givenRun
  generalize d.nesting = ms, e.nesting = ns at hn ⊢
  induction hn with
  | nil => rfl
  | @cons m n ms ns hm _ ih =>
    have hg := hm.given
    cases hw : n.wasGiven l with
    | false => simp [hg, hw]
    | true => simp [hg, hw, ih]

end Declaration.Alike

lemma Declaration.giveAt_alike {l k : Label} (h : l ≠ k) (d : Declaration) (i : ℕ) :
    d.Alike l (d.giveAt i k) := by
  cases d with
  | target t => exact ⟨rfl, MacroCall.modify_alike h t.nesting i⟩
  | call m enclosing => exact ⟨rfl, MacroCall.modify_alike h enclosing i⟩

lemma Verdict.Agree.ofBool (b : Bool) : Agree p q d e (.ofBool b) (.ofBool b) := by
  cases b
  · exact .denied
  · exact .granted

lemma Verdict.Agree.orElse {u u' v v' : Verdict} (hu : Agree p q d e u u')
    (hv : Agree p q d e v v') : Agree p q d e (u.orElse v) (u'.orElse v') := by
  cases hu with
  | granted => exact .granted
  | denied => exact hv
  | nestingTooDeep limit => exact .nestingTooDeep limit
  | noVisibility => exact .noVisibility

namespace Resolver

lemma atLocation_agree (r : Resolver) (h : p.Alike q) (here : Package) :
    Verdict.Agree p q d e (r.atLocation p here) (r.atLocation q here) := by
  simp only [atLocation, h.label, h.visibility]
  split
  · exact .granted
  · cases q.visibility with
    | none => exact .noVisibility
    | some v => exact .ofBool _

lemma settle_agree (r : Resolver) (h : p.Alike q) {f g : Declaration} (hf : f.Alike p.label g) :
    Verdict.Agree p q d e (r.settle p f) (r.settle q g) := by
  have ha := r.atLocation_agree (d := d) (e := e) h
  unfold settle
  rcases hf.parent? with ⟨hm, hn⟩ | ⟨m, n, hm, hn, hmn⟩
  · rw [hm, hn, hf.package]
    exact ha g.package
  · rw [hm, hn, hf.package]
    simp only [hmn.finalizer, hmn.location]
    split
    · exact (ha g.package).orElse (ha n.macroClass.location)
    · exact ha n.macroClass.location

lemma atDeclaration_agree (r : Resolver) (h : p.Alike q) (hd : d.Alike p.label e) :
    Verdict.Agree p q d e (r.atDeclaration p d) (r.atDeclaration q e) := by
  rw [atDeclaration_eq, atDeclaration_eq, ← h.label, hd.givenRun]
  split
  · exact .nestingTooDeep r.maxMacroDepth
  · exact r.settle_agree h (hd.ancestor _)

/-- Prerequisites of one label and visibility get the same verdicts, whatever target they resolve
to. So of a chain of aliases only the last one applied counts, and giving a macro the label of the
target behind an alias changes nothing. -/
theorem verdict_noninterference (r : Resolver) :
    (∀ p q d e, Prerequisite.Alike p q → Declaration.Alike p.label d e →
      Verdict.Agree p q d e (r.atDeclaration p d) (r.atDeclaration q e) ∧
      ∀ here, Verdict.Agree p q d e (r.atLocation p here) (r.atLocation q here)) ∧
    (∀ (t u a b : Target) (as bs : List Target) d, a.label = b.label →
      a.visibility = b.visibility →
      let p := (Prerequisite.ofTarget t).throughAliases (as ++ [a])
      let q := (Prerequisite.ofTarget u).throughAliases (bs ++ [b])
      Verdict.Agree p q d d (r.atDeclaration p d) (r.atDeclaration q d) ∧
      ∀ here, Verdict.Agree p q d d (r.atLocation p here) (r.atLocation q here)) ∧
    ∀ (t a : Target) (as : List Target) d i, t.label ≠ a.label →
      let p := (Prerequisite.ofTarget t).throughAliases (as ++ [a])
      Verdict.Agree p p d (d.giveAt i t.label) (r.atDeclaration p d)
        (r.atDeclaration p (d.giveAt i t.label)) := by
  refine ⟨?_, ?_, ?_⟩
  · intro p q d e hp hd
    exact ⟨r.atDeclaration_agree hp hd, fun here => r.atLocation_agree hp here⟩
  · intro t u a b as bs d hl hv p q
    have hp : p.Alike q := Prerequisite.throughAliases_alike hl hv _ _ as bs
    exact ⟨r.atDeclaration_agree hp (.refl _ d), fun here => r.atLocation_agree hp here⟩
  · intro t a as d i h p
    have hp : p.label = a.label := by
      simp only [p, Prerequisite.throughAliases_concat, Prerequisite.label_throughAlias]
    have hd := Declaration.giveAt_alike (l := p.label) (k := t.label) (by rw [hp]; exact h.symm) d i
    exact r.atDeclaration_agree ⟨rfl, rfl⟩ hd

theorem verdict_noninterference_behind_alias :
    let tool : Label := ⟨default, "tool", by decide, by decide, by decide⟩
    let front : Label := ⟨default, "front", by decide, by decide, by decide⟩
    let outer : Target := { (default : Target) with label := front }
    let file : Target := ⟨tool, .sourceFile, [], true, none, .everyone⟩
    let p := (Prerequisite.ofTarget default).throughAliases [outer]
    let q := (Prerequisite.ofTarget file).throughAliases [outer]
    let m : MacroCall := { (default : MacroCall) with arguments := [tool, front] }
    let n : MacroCall := { (default : MacroCall) with name := "call", arguments := [front] }
    let d : Declaration := .target { (default : Target) with nesting := [m] }
    let e : Declaration := .call default [n]
    let other : Target := { outer with kind := .sourceFile }
    let r : Resolver := ⟨Conventions.standard.policy, true, 1⟩
    (p.Alike q ∧ d.Alike p.label e ∧ p.target ≠ q.target ∧ m ≠ n ∧
      Verdict.Agree p q d e (r.atDeclaration p d) (r.atDeclaration q e)) ∧
    (outer ≠ other ∧ outer.label = other.label ∧ outer.visibility = other.visibility ∧
      Verdict.Agree p (q.throughAlias other) d d (r.atDeclaration p d)
        (r.atDeclaration (q.throughAlias other) d)) ∧
    file.label ≠ outer.label ∧
      Verdict.Agree q q d (d.giveAt 0 file.label) (r.atDeclaration q d)
        (r.atDeclaration q (d.giveAt 0 file.label)) := by
  intro tool front outer file p q m n d e other r
  have hp : p.Alike q := ⟨rfl, rfl⟩
  have hd : d.Alike p.label e := ⟨rfl, .cons ⟨rfl, rfl, rfl, by decide⟩ .nil⟩
  have ho : file.label ≠ outer.label := by decide
  obtain ⟨h, hc, hg⟩ := verdict_noninterference r
  refine ⟨⟨hp, hd, by decide, by decide, (h p q d e hp hd).1⟩, ?_, ho, hg file outer [] d 0 ho⟩
  exact ⟨by decide, rfl, rfl, (hc default file outer other [] [outer] d rfl rfl).1⟩

end Resolver

end EdgeAdmission
