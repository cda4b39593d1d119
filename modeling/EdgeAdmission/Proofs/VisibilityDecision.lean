import EdgeAdmission.Check
import Mathlib.Tactic

/-! When the visibility check binds an edge, from where it asks, and whom it names in a denial. -/

namespace EdgeAdmission.Check

variable (policy : Policy) (options : CheckOptions) (e : Edge)

inductive Exempt : Prop
  | unchecked (h : options.checksVisibility = false)
  | lateBound (h : e.via.isLateBound = true)
  | toolchain (hn : e.via.name = Attribute.toolchainsName)
      (hp : policy.checksToolchain e.consumer e.prerequisite.target.label = false)
  | othersAttribute (a : AspectClass) (ha : e.aspect? = some a)
      (h : e.via.isImplicit = false ∨ a.defines e.via.name = false)

inductive Authored (file : ExtensionFile) : Prop
  | byAspect (a : AspectClass) (hi : e.via.isImplicit = true)
      (hn : e.via.name ≠ Attribute.configDependenciesName) (ha : e.aspect? = some a)
      (hd : a.definition = .scripted file)
  | byRule (hi : e.via.isImplicit = true) (hn : e.via.name ≠ Attribute.configDependenciesName)
      (ha : e.aspect? = none) (hd : e.rule.definition = .scripted file)

def asAuthor (file : ExtensionFile) : Verdict :=
  (resolver policy options e).atLocation e.prerequisite file.package

def asConsumer : Verdict :=
  (resolver policy options e).atDeclaration e.prerequisite (.target e.consumer)

inductive Decided : Verdict → Prop
  | consumer (h : ∀ file, ¬ Authored e file) : Decided (asConsumer policy options e)
  | author (file : ExtensionFile) (h : Authored e file)
      (hv : asAuthor policy options e file ≠ .denied) : Decided (asAuthor policy options e file)
  | fallback (file : ExtensionFile) (h : Authored e file)
      (hv : asAuthor policy options e file = .denied) : Decided (asConsumer policy options e)

lemma bindsVisibility_iff :
    bindsVisibility policy options e = true ↔ ¬ Exempt policy options e := by
  constructor
  · intro h hx
    simp only [bindsVisibility, Bool.and_eq_true, Bool.not_eq_true'] at h
    obtain ⟨⟨⟨hv, hl⟩, ht⟩, ha⟩ := h
    cases hx with
    | unchecked h => simp [h] at hv
    | lateBound h => simp [h] at hl
    | toolchain hn hp => simp [hn, hp] at ht
    | othersAttribute a hs h =>
      rw [hs, Option.all_some, Bool.and_eq_true] at ha
      rcases h with h | h
      · simp [h] at ha
      · simp [h] at ha
  · intro h
    simp only [bindsVisibility, Bool.and_eq_true, Bool.not_eq_true']
    refine ⟨⟨⟨?_, ?_⟩, ?_⟩, ?_⟩
    · by_contra hv
      exact h (.unchecked (by simpa using hv))
    · by_contra hl
      exact h (.lateBound (by simpa using hl))
    · by_contra ht
      simp only [Bool.not_eq_false, Bool.and_eq_true, decide_eq_true_eq, Bool.not_eq_true'] at ht
      exact h (.toolchain ht.1 ht.2)
    · cases ha : e.aspect? with
      | none => rfl
      | some a =>
        rw [Option.all_some, Bool.and_eq_true]
        by_contra hn
        refine h (.othersAttribute a ha ?_)
        cases hi : e.via.isImplicit with
        | false => exact .inl rfl
        | true => exact .inr (by simpa [hi] using hn)

lemma author?_eq_some_iff {e : Edge} {file : ExtensionFile} :
    author? e = some file ↔ Authored e file := by
  constructor
  · intro h
    simp only [author?, Option.ite_none_right_eq_some, Bool.and_eq_true, decide_eq_true_eq] at h
    obtain ⟨⟨hi, hn⟩, hf⟩ := h
    unfold Edge.owner at hf
    cases ha : e.aspect? with
    | none =>
      refine .byRule hi hn ha ?_
      cases hd : e.rule.definition <;> simp_all [Definition.file?]
    | some a =>
      refine .byAspect a hi hn ha ?_
      cases hd : a.definition <;> simp_all [Definition.file?]
  · rintro (⟨a, hi, hn, ha, hd⟩ | ⟨hi, hn, ha, hd⟩)
    · simp [author?, Edge.owner, hi, hn, ha, hd, Definition.file?]
    · simp [author?, Edge.owner, hi, hn, ha, hd, Definition.file?]

lemma author?_eq_none_iff {e : Edge} : author? e = none ↔ ∀ file, ¬ Authored e file := by
  simp only [← author?_eq_some_iff, Option.eq_none_iff_forall_ne_some, ne_eq]

lemma verdict_of_authored {file : ExtensionFile} (h : Authored e file) :
    verdict policy options e =
      (asAuthor policy options e file).orElse (asConsumer policy options e) := by
  rw [verdict, author?_eq_some_iff.mpr h]
  rfl

lemma verdict_of_not_authored (h : ∀ file, ¬ Authored e file) :
    verdict policy options e = asConsumer policy options e := by
  rw [verdict, author?_eq_none_iff.mpr h]
  rfl

lemma decided_verdict : Decided policy options e (verdict policy options e) := by
  cases ha : author? e with
  | none =>
    have hn := author?_eq_none_iff.mp ha
    rw [verdict_of_not_authored policy options e hn]
    exact .consumer hn
  | some file =>
    have hf := author?_eq_some_iff.mp ha
    rw [verdict_of_authored policy options e hf]
    by_cases hv : asAuthor policy options e file = .denied
    · rw [hv, Verdict.denied_orElse]
      exact .fallback file hf hv
    · rw [Verdict.orElse_of_ne_denied hv]
      exact .author file hf hv

variable {policy options e}

lemma verdict_eq_of_places {policy' : Policy} {options' : CheckOptions} {e' : Edge}
    (hf : author? e' = author? e)
    (ha : ∀ file, asAuthor policy' options' e' file = asAuthor policy options e file)
    (hc : asConsumer policy' options' e' = asConsumer policy options e) :
    verdict policy' options' e' = verdict policy options e := by
  cases h : author? e with
  | none =>
    have hn := author?_eq_none_iff.mp h
    have hn' := author?_eq_none_iff.mp (hf.trans h)
    rw [verdict_of_not_authored _ _ _ hn, verdict_of_not_authored _ _ _ hn', hc]
  | some file =>
    have hs := author?_eq_some_iff.mp h
    have hs' := author?_eq_some_iff.mp (hf.trans h)
    rw [verdict_of_authored _ _ _ hs, verdict_of_authored _ _ _ hs', ha, hc]

lemma Decided.unique {u v : Verdict} (hu : Decided policy options e u)
    (hv : Decided policy options e v) : u = v := by
  have author_unique : ∀ {f g}, Authored e f → Authored e g → f = g := fun hf hg =>
    Option.some.inj ((author?_eq_some_iff.mpr hf).symm.trans (author?_eq_some_iff.mpr hg))
  cases hu with
  | consumer h =>
    cases hv with
    | consumer => rfl
    | author g hg => exact (h g hg).elim
    | fallback g hg => exact (h g hg).elim
  | author f hf hn =>
    cases hv with
    | consumer h => exact (h f hf).elim
    | author g hg => rw [author_unique hf hg]
    | fallback g hg hd => exact (hn (author_unique hf hg ▸ hd)).elim
  | fallback f hf hd =>
    cases hv with
    | consumer h => exact (h f hf).elim
    | author g hg hn => exact (hn (author_unique hf hg ▸ hd)).elim
    | fallback => rfl

lemma decided_iff {v : Verdict} : Decided policy options e v ↔ v = verdict policy options e := by
  constructor
  · intro h
    exact h.unique (decided_verdict policy options e)
  · rintro rfl
    exact decided_verdict policy options e

lemma asConsumer_of_denied (h : verdict policy options e = .denied) :
    asConsumer policy options e = .denied := by
  cases ha : author? e with
  | none => rwa [verdict_of_not_authored policy options e (author?_eq_none_iff.mp ha)] at h
  | some file =>
    rw [verdict_of_authored policy options e (author?_eq_some_iff.mp ha)] at h
    exact (Verdict.orElse_eq_denied_iff.mp h).2

lemma visibility_of_binds (h : ¬ Exempt policy options e) :
    visibility policy options e =
      match verdict policy options e with
      | .granted => none
      | .denied => some (.error (Finding.notVisible e.prerequisite (grantee e)).message)
      | .unresolved cause => some (.error cause.message) := by
  rw [visibility, if_pos ((bindsVisibility_iff policy options e).mpr h)]
  rfl

lemma visibility_of_exempt (h : Exempt policy options e) : visibility policy options e = none := by
  rw [visibility, if_neg (fun hb => (bindsVisibility_iff policy options e).mp hb h)]

lemma visibility_error {x : Diagnostic} (h : visibility policy options e = some x) :
    ∃ text, x = .error text := by
  by_cases hx : Exempt policy options e
  · simp [visibility_of_exempt hx] at h
  · rw [visibility_of_binds hx] at h
    cases hv : verdict policy options e with
    | granted => simp [hv] at h
    | denied =>
      rw [hv] at h
      exact ⟨_, (Option.some.inj h).symm⟩
    | unresolved cause =>
      rw [hv] at h
      exact ⟨_, (Option.some.inj h).symm⟩

lemma grantee_of_authored {file : ExtensionFile} (h : Authored e file) :
    grantee e = file.display := by
  rw [grantee, author?_eq_some_iff.mpr h]

lemma grantee_of_not_authored (h : ∀ file, ¬ Authored e file) :
    grantee e = e.consumer.label.display := by
  rw [grantee, author?_eq_none_iff.mpr h]

variable (policy options e)

theorem visibility_decision :
    (∀ x, visibility policy options e = some x → ∃ text, x = .error text) ∧
    (Exempt policy options e → visibility policy options e = none) ∧
    (¬ Exempt policy options e → ∃ v, (∀ w, Decided policy options e w ↔ w = v) ∧
      (visibility policy options e = none ↔ v = .granted) ∧
      (v = .denied → asConsumer policy options e = .denied ∧
        (∀ file, Authored e file → visibility policy options e =
          some (.error (Finding.notVisible e.prerequisite file.display).message)) ∧
        ((∀ file, ¬ Authored e file) → visibility policy options e =
          some (.error (Finding.notVisible e.prerequisite e.consumer.label.display).message))) ∧
      ∀ cause, v = .unresolved cause →
        visibility policy options e = some (.error cause.message)) := by
  refine ⟨fun x hx => visibility_error hx, visibility_of_exempt, ?_⟩
  intro h
  refine ⟨verdict policy options e, fun w => decided_iff, ?_, ?_, ?_⟩
  · rw [visibility_of_binds h]
    cases verdict policy options e <;> simp
  · intro hd
    refine ⟨asConsumer_of_denied hd, ?_, ?_⟩
    · intro file hf
      rw [visibility_of_binds h, hd, grantee_of_authored hf]
    · intro hf
      rw [visibility_of_binds h, hd, grantee_of_not_authored hf]
  · intro cause hc
    rw [visibility_of_binds h, hc]

end EdgeAdmission.Check
