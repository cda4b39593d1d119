import EdgeAdmission.Proofs.Aliasing
import EdgeAdmission.Proofs.VisibilityDecision

namespace EdgeAdmission

def Edge.definedAs (e : Edge) (d : Definition) : Edge where
  consumer := { e.consumer with kind := .rule { e.rule with definition := d } }
  rule := { e.rule with definition := d }
  via := e.via
  prerequisite := e.prerequisite
  aspect? := e.aspect?
  consumer_kind := rfl

lemma Edge.definedAs_self (e : Edge) : e.definedAs e.rule.definition = e := by
  obtain ⟨consumer, rule, via, prerequisite, aspect?, hk⟩ := e
  have hc : { consumer with kind := .rule rule } = consumer := by
    rw [← hk]
  simp only [definedAs, hc]

def Policy.seeing (policy : Policy) (t : Target) : Policy :=
  { policy with
    checksExperimental := fun _ => policy.checksExperimental t
    checksToolchain := fun _ => policy.checksToolchain t }

lemma Policy.seeing_answersAlike (policy : Policy) (t u v : Target) :
    (policy.seeing t).AnswersAlike u v := ⟨rfl, fun _ => rfl⟩

lemma Resolver.atDeclaration_seeing (r : Resolver) (t : Target) (p : Prerequisite)
    (d : Declaration) :
    ({ r with policy := r.policy.seeing t } : Resolver).atDeclaration p d =
      r.atDeclaration p d := by
  rw [atDeclaration_eq, atDeclaration_eq]
  rfl

namespace Check

variable {policy : Policy} {o : CheckOptions} {e : Edge} {a : AspectClass}

lemma verdict_seeing : verdict (policy.seeing e.consumer) o e = verdict policy o e := by
  refine verdict_eq_of_places rfl (fun _ => ?_) ?_
  · rfl
  · exact (resolver policy o e).atDeclaration_seeing e.consumer e.prerequisite (.target e.consumer)

lemma visibility_seeing : visibility (policy.seeing e.consumer) o e = visibility policy o e := by
  rw [visibility, verdict_seeing]
  rfl

lemma visibility_forAspect_of_unowned
    (h : ¬ (e.via.isImplicit = true ∧ a.defines e.via.name = true)) :
    visibility policy o (e.forAspect a) = none := by
  apply visibility_of_exempt
  apply Exempt.othersAttribute a rfl
  rw [not_and_or, Bool.not_eq_true, Bool.not_eq_true] at h
  exact h

lemma deprecation_forAspect : deprecation policy (e.forAspect a) = none := rfl

lemma not_authored_forAspect
    (h : e.via.name = Attribute.configDependenciesName ∨ a.definition = .builtin) :
    ∀ file, ¬ Authored (e.forAspect a) file := by
  rintro file (⟨a', _, hn, ha, hd⟩ | ⟨_, _, ha, _⟩)
  · obtain rfl : a = a' := Option.some.inj ha
    rcases h with h | h
    · exact hn h
    · rw [h] at hd
      cases hd
  · cases ha

lemma author?_forAspect (he : e.aspect? = none) :
    author? (e.definedAs a.definition) = author? (e.forAspect a) := by
  simp only [author?, Edge.owner, Edge.definedAs, Edge.forAspect, he]
  rfl

lemma author?_configDependencies (h : e.via.name = Attribute.configDependenciesName) :
    author? e = none := by
  simp [author?, h]

lemma bindsVisibility_forAspect {d : Definition} (he : e.aspect? = none)
    (hi : e.via.isImplicit = true) (hd : a.defines e.via.name = true)
    (h : policy.AnswersAlike e.consumer (e.definedAs d).consumer) :
    bindsVisibility policy o (e.definedAs d) = bindsVisibility policy o (e.forAspect a) := by
  have ht := h.toolchain e.prerequisite.target.label
  rw [Edge.definedAs] at ht
  simp only [bindsVisibility, Edge.definedAs, Edge.forAspect, he, hi, hd, ht, Option.all_some,
    Option.all_none, Bool.and_true]
  rfl

lemma visibility_forAspect {d : Definition} (he : e.aspect? = none)
    (hi : e.via.isImplicit = true) (hd : a.defines e.via.name = true)
    (h : policy.AnswersAlike e.consumer (e.definedAs d).consumer)
    (ha : author? (e.definedAs d) = author? (e.forAspect a)) :
    visibility policy o (e.definedAs d) = visibility policy o (e.forAspect a) :=
  visibility_eq_of_answersAlike h (bindsVisibility_forAspect he hi hd h) ha rfl rfl rfl

end Check

open Check Report in
/-- What an aspect changes in a report. The deprecation is no longer warned of, and visibility only
counts for an implicit attribute that the aspect defines. Then it is asked for as if the rule were
defined where the aspect is, by a policy that does not look at the rule's definition itself. -/
theorem aspects_in_reports (policy : Policy) (o : CheckOptions) (a : AspectClass) {e : Edge}
    (he : e.aspect? = none) :
    let e' := e.forAspect a
    (∀ r, (checkEdge policy o r e').diagnostics =
      r.diagnostics ++ (location policy o e).toList ++ (packageGroup e).toList ++
        (visibility policy o e').toList ++ (testonly policy o e).toList) ∧
    (∀ s ∈ [Stage.location, .packageGroup, .testonly],
      outcome policy o e' s = outcome policy o e s) ∧
    outcome policy o e' .deprecation = none ∧
    (¬ (e.via.isImplicit = true ∧ a.defines e.via.name = true) → visibility policy o e' = none) ∧
    (e.via.isImplicit = true → a.defines e.via.name = true →
      visibility policy o e' = visibility (policy.seeing e.consumer) o (e.definedAs a.definition) ∧
      (policy.AnswersAlike e.consumer (e.definedAs a.definition).consumer →
        visibility policy o e' = visibility policy o (e.definedAs a.definition)) ∧
      (a.definition = e.rule.definition → visibility policy o e' = visibility policy o e) ∧
      (e.via.name = Attribute.configDependenciesName →
        visibility policy o e' = visibility policy o e)) ∧
    (e.via.name = Attribute.configDependenciesName ∨ a.definition = .builtin →
      verdict policy o e' = asConsumer policy o e ∧ grantee e' = e.consumer.label.display) := by
  intro e'
  have hother : ∀ s ∈ [Stage.location, .packageGroup, .testonly],
      outcome policy o e' s = outcome policy o e s := by
    intro s hs
    simp only [List.mem_cons, List.not_mem_nil, or_false] at hs
    rcases hs with rfl | rfl | rfl
    · rfl
    · rfl
    · rfl
  refine ⟨?_, hother, deprecation_forAspect, visibility_forAspect_of_unowned, ?_, ?_⟩
  · intro r
    rw [diagnostics_checkEdge, deprecation_forAspect, Option.toList_none, List.append_nil]
    rfl
  · intro hi hd
    have hself : visibility (policy.seeing e.consumer) o e = visibility policy o e := visibility_seeing
    have hsees : visibility (policy.seeing e.consumer) o e' = visibility policy o e' :=
      visibility_seeing
    have hsaid : ∀ d, author? (e.definedAs d) = author? e' →
        visibility (policy.seeing e.consumer) o (e.definedAs d) = visibility policy o e' := by
      intro d ha
      rw [← hsees]
      exact visibility_forAspect he hi hd (policy.seeing_answersAlike _ _ _) ha
    refine ⟨(hsaid _ (author?_forAspect he)).symm, ?_, ?_, ?_⟩
    · intro h
      exact (visibility_forAspect he hi hd h (author?_forAspect he)).symm
    · intro h
      rw [← hsaid _ (author?_forAspect he), h, Edge.definedAs_self, hself]
    · intro h
      have hn : author? e' = none := author?_configDependencies h
      have ha : author? (e.definedAs e.rule.definition) = author? e' := by
        rw [hn, Edge.definedAs_self, author?_configDependencies h]
      rw [← hsaid _ ha, Edge.definedAs_self, hself]
  · intro h
    have hn : ∀ file, ¬ Authored e' file := not_authored_forAspect h
    exact ⟨verdict_of_not_authored policy o e' hn, grantee_of_not_authored hn⟩

open Check in
theorem aspects_in_reports_on_hidden_tool :
    let tools : Package := ⟨default, ⟨"toolbox", by decide +kernel⟩⟩
    let app : Package := ⟨default, ⟨"app", by decide +kernel⟩⟩
    let file : ExtensionFile := ⟨tools, "defs.bzl", by decide⟩
    let hidden : Target := ⟨⟨tools, default⟩, .sourceFile, [], false, some "old", .nobody⟩
    let tool : Attribute := ⟨"$tool", .acceptAny, by decide⟩
    let rule : RuleClass := ⟨"binary", .scripted file, false, [tool]⟩
    let consumer : Target := ⟨⟨app, default⟩, .rule rule, [], false, none, .nobody⟩
    let e : Edge := ⟨consumer, rule, tool, .ofTarget hidden, none, rfl⟩
    let native : AspectClass := ⟨"native", .builtin, ["$tool"]⟩
    let scripted : AspectClass := ⟨"scripted", .scripted file, ["$tool"]⟩
    let other : AspectClass := ⟨"other", .scripted file, ["$compiler"]⟩
    let said := visibility Conventions.standard.policy .standard
    let warned := outcome Conventions.standard.policy .standard
    e.aspect? = none ∧
    (said e = none ∧ said (e.forAspect native) ≠ none ∧
      said (e.forAspect native) = said (e.definedAs .builtin) ∧
      grantee (e.forAspect native) = consumer.label.display) ∧
    (scripted.definition = rule.definition ∧ said (e.forAspect scripted) = said e) ∧
    (other.defines e.via.name = false ∧ said (e.forAspect other) = none) ∧
    (warned e .deprecation).isSome = true ∧ warned (e.forAspect native) .deprecation = none := by
  intro tools app file hidden tool rule consumer e native scripted other said warned
  let policy := Conventions.standard.policy
  have hi : e.via.isImplicit = true := by decide
  obtain ⟨-, -, hwarned, -, hnative, hconsumer⟩ :=
    aspects_in_reports policy .standard native (e := e) rfl
  obtain ⟨-, -, -, -, hscripted, -⟩ := aspects_in_reports policy .standard scripted (e := e) rfl
  obtain ⟨-, -, -, hother, -, -⟩ := aspects_in_reports policy .standard other (e := e) rfl
  refine ⟨rfl, ⟨by decide +kernel, by decide +kernel, ?_, ?_⟩, ⟨rfl, ?_⟩, ⟨by decide, ?_⟩,
    by decide +kernel, hwarned⟩
  · exact (hnative hi (by decide)).2.1 (Conventions.standard.answersAlike _ _)
  · exact (hconsumer (.inr rfl)).2
  · exact (hscripted hi (by decide)).2.2.1 rfl
  · exact hother (by decide)

open Check in
theorem rule_definition_read_by_policy :
    let loom : Package := ⟨default, ⟨"experimental/loom", by decide +kernel⟩⟩
    let cellar : Package := ⟨default, ⟨"cellar", by decide +kernel⟩⟩
    let hidden : Target := ⟨⟨cellar, default⟩, .sourceFile, [], false, none, .nobody⟩
    let tool : Attribute := ⟨"$tool", .acceptAny, by decide⟩
    let rule : RuleClass := ⟨"binary", .scripted default, false, [tool]⟩
    let consumer : Target := ⟨⟨loom, default⟩, .rule rule, [], false, none, .nobody⟩
    let e : Edge := ⟨consumer, rule, tool, .ofTarget hidden, none, rfl⟩
    let native : AspectClass := ⟨"native", .builtin, ["$tool"]⟩
    let policy : Policy :=
      { Conventions.standard.policy with
        checksExperimental := fun t => t.kind.rule?.any fun r => r.definition = .builtin }
    e.aspect? = none ∧ e.via.isImplicit = true ∧ native.defines e.via.name = true ∧
      visibility policy .standard (e.forAspect native) = none ∧
      visibility policy .standard (e.definedAs native.definition) ≠ none := by
  decide +kernel

end EdgeAdmission
