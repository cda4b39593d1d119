import EdgeAdmission.Proofs.Delegation
import EdgeAdmission.Proofs.Outcomes
import EdgeAdmission.Proofs.VisibilityDecision

/-! The switches of the checks. Each of them bears on one check: the others say the same under both
of its positions, in the same order. -/

namespace EdgeAdmission.Check

def Stage.ReadsAlike (o o' : CheckOptions) : Stage → Prop
  | .location => o'.allowsExperimental = o.allowsExperimental
  | .packageGroup => True
  | .visibility => o'.checksVisibility = o.checksVisibility ∧ o'.maxMacroDepth = o.maxMacroDepth
  | .testonly => o'.checksOutputFiles = o.checksOutputFiles
  | .deprecation => True

structure OnlyAffects (policy : Policy) (e : Edge) (s : Stage) (o o' : CheckOptions) : Prop where
  others : ∀ t, t ≠ s → outcome policy o' e t = outcome policy o e t
  report : ∀ r, Report.DifferBy (outcome policy o e s) (outcome policy o' e s)
    (Report.checkEdge policy o r e) (Report.checkEdge policy o' r e)

variable {policy : Policy} {o o' : CheckOptions} {e : Edge}

lemma bindsVisibility_congr (h : o'.checksVisibility = o.checksVisibility) :
    bindsVisibility policy o' e = bindsVisibility policy o e := by
  simp only [bindsVisibility, h]

lemma verdict_congr (h : o'.maxMacroDepth = o.maxMacroDepth) :
    verdict policy o' e = verdict policy o e := by
  simp only [verdict, resolver, h]

lemma visibility_congr (hv : o'.checksVisibility = o.checksVisibility)
    (h : verdict policy o' e = verdict policy o e) :
    visibility policy o' e = visibility policy o e := by
  rw [visibility, bindsVisibility_congr hv, h]
  rfl

lemma outcome_congr (t : Stage) (h : t.ReadsAlike o o') :
    outcome policy o' e t = outcome policy o e t := by
  cases t with
  | location =>
    have hx : o'.allowsExperimental = o.allowsExperimental := h
    simp only [outcome, location, hx]
  | packageGroup => rfl
  | visibility => exact visibility_congr h.1 (verdict_congr h.2)
  | testonly =>
    have hf : o'.checksOutputFiles = o.checksOutputFiles := h
    simp only [outcome, testonly, testonlyFinding?, hf]
  | deprecation => rfl

lemma onlyAffects_of_readsAlike {s : Stage} (h : ∀ t : Stage, t ≠ s → t.ReadsAlike o o') :
    OnlyAffects policy e s o o' := by
  have ho : ∀ t, t ≠ s → outcome policy o' e t = outcome policy o e t :=
    fun t ht => outcome_congr t (h t ht)
  exact ⟨ho, fun r => Report.checkEdge_differBy r ho⟩

lemma verdict_depth {depth : ℕ}
    (h : (Declaration.target e.consumer).givenRun e.prerequisite.label ≤ min o.maxMacroDepth depth) :
    verdict policy { o with maxMacroDepth := depth } e = verdict policy o e := by
  obtain ⟨ho, hd⟩ := le_min_iff.mp h
  have hc : asConsumer policy { o with maxMacroDepth := depth } e = asConsumer policy o e :=
    Resolver.atDeclaration_cap (r := resolver policy o e) ho hd
  exact verdict_eq_of_places rfl (fun _ => rfl) hc

lemma visibility_depth (depth : ℕ) :
    visibility policy { o with maxMacroDepth := depth } e = visibility policy o e ∨
      min o.maxMacroDepth depth < (Declaration.target e.consumer).givenRun e.prerequisite.label := by
  rcases Nat.lt_or_ge (min o.maxMacroDepth depth)
    ((Declaration.target e.consumer).givenRun e.prerequisite.label) with h | h
  · exact .inr h
  · exact .inl (visibility_congr rfl (verdict_depth h))

lemma location_tolerated :
    location policy { o with allowsExperimental := false } e = none ∧
        location policy { o with allowsExperimental := true } e = none ∨
      ∃ text text', location policy { o with allowsExperimental := false } e = some (.error text) ∧
        location policy { o with allowsExperimental := true } e = some (.warning text') := by
  unfold location
  dsimp only
  split
  · exact .inr ⟨_, _, rfl, rfl⟩
  · exact .inl ⟨rfl, rfl⟩

lemma testonly_unchecked :
    testonly policy { o with checksOutputFiles := false } e =
        testonly policy { o with checksOutputFiles := true } e ∨
      testonly policy { o with checksOutputFiles := false } e = none ∧
        ∃ generator, e.prerequisite.target.kind = .generatedFile generator := by
  unfold testonly testonlyFinding?
  cases hk : e.prerequisite.target.kind with
  | generatedFile generator =>
    right
    refine ⟨?_, generator, rfl⟩
    simp [TargetKind.generator?]
  | rule | packageGroup | sourceFile => exact .inl rfl

theorem switches_affect_own_check (policy : Policy) (o : CheckOptions) (e : Edge) :
    (let on : CheckOptions := { o with checksVisibility := true }
      let off : CheckOptions := { o with checksVisibility := false }
      OnlyAffects policy e .visibility on off ∧ visibility policy off e = none) ∧
    (∀ depth, let o' : CheckOptions := { o with maxMacroDepth := depth }
      OnlyAffects policy e .visibility o o' ∧
        (visibility policy o' e = visibility policy o e ∨ min o.maxMacroDepth depth <
          (Declaration.target e.consumer).givenRun e.prerequisite.label)) ∧
    (let strict : CheckOptions := { o with allowsExperimental := false }
      let lenient : CheckOptions := { o with allowsExperimental := true }
      OnlyAffects policy e .location strict lenient ∧
        (location policy strict e = none ∧ location policy lenient e = none ∨
          ∃ text text', location policy strict e = some (.error text) ∧
            location policy lenient e = some (.warning text'))) ∧
    (let on : CheckOptions := { o with checksOutputFiles := true }
      let off : CheckOptions := { o with checksOutputFiles := false }
      OnlyAffects policy e .testonly on off ∧
        (testonly policy off e = testonly policy on e ∨
          testonly policy off e = none ∧
            ∃ generator, e.prerequisite.target.kind = .generatedFile generator)) := by
  refine ⟨⟨onlyAffects_of_readsAlike ?_, visibility_of_exempt (.unchecked rfl)⟩,
    fun depth => ⟨onlyAffects_of_readsAlike ?_, visibility_depth depth⟩,
    ⟨onlyAffects_of_readsAlike ?_, location_tolerated⟩,
    ⟨onlyAffects_of_readsAlike ?_, testonly_unchecked⟩⟩
  -- In each case no other check reads the switch.
  all_goals
    intro t ht
    cases t <;> simp_all [Stage.ReadsAlike]

end EdgeAdmission.Check
