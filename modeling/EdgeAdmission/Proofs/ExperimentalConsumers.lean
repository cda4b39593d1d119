import EdgeAdmission.Proofs.Outcomes
import EdgeAdmission.Proofs.Privileges

namespace EdgeAdmission

structure Edge.OfExperiment (c : Conventions) (e : Edge) : Prop where
  root : ∃ root ∈ c.experimentalRoots, e.consumer.package.path.isAtOrBelow root = true
  written : e.consumer.nesting = []
  known : ∃ v, e.prerequisite.visibility = some v

namespace Check

variable {policy : Policy} {o : CheckOptions} {e : Edge} {d : Diagnostic}

section Experimental

variable (hx : policy.isExperimental e.consumer.package = true)

include hx

lemma location_of_experimental : location policy o e = none := by
  have hl : policy.isExperimental e.consumer.label.package = true := hx
  unfold location
  dsimp only
  rw [hl, Bool.not_true, Bool.and_false]
  rfl

lemma testonly_of_experimental (h : testonly policy o e = some d) : ∃ text, d = .warning text := by
  simp only [testonly, hx, if_true, Option.ite_none_right_eq_some, Option.map_eq_some_iff] at h
  obtain ⟨-, finding, -, hd⟩ := h
  exact ⟨_, hd.symm⟩

lemma asConsumer_of_experimental (hc : policy.checksExperimental e.consumer = false)
    (hn : e.consumer.nesting = []) : asConsumer policy o e = .granted := by
  have hd : (Declaration.target e.consumer).nesting = [] := hn
  rw [asConsumer, Resolver.atDeclaration, hd, Resolver.delegate_nil, Resolver.atLocation]
  have hx' : policy.isExperimental (Declaration.target e.consumer).package = true := hx
  have hr : (resolver policy o e).checksExperimental = false := hc
  have hp : (resolver policy o e).policy = policy := rfl
  rw [hr, hp, hx']
  rfl

lemma visibility_of_experimental (hc : policy.checksExperimental e.consumer = false)
    (hn : e.consumer.nesting = []) {v : Visibility} (hv : e.prerequisite.visibility = some v) :
    visibility policy o e = none := by
  apply visibility_of_asConsumer (asConsumer_of_experimental hx hc hn)
  intro file _
  exact .known v hv

end Experimental

end Check

lemma exists_warnings {x : Option Diagnostic} (h : ∀ d, x = some d → ∃ text, d = .warning text) :
    ∃ texts : List String, x.toList = texts.map .warning := by
  cases x with
  | none => exact ⟨[], rfl⟩
  | some d =>
    obtain ⟨text, rfl⟩ := h d rfl
    exact ⟨[text], rfl⟩

namespace Report

open Check

variable {c : Conventions} {o : CheckOptions} {e : Edge}

lemma checkEdge_of_experiment (hc : c.checksExperimental = false) (h : e.OfExperiment c)
    (r : Report) :
    ∃ texts : List String, (checkEdge c.policy o r e).diagnostics =
      r.diagnostics ++ (packageGroup e).toList ++ texts.map .warning := by
  have hx : c.policy.isExperimental e.consumer.package = true :=
    Conventions.isExperimental_iff.mpr h.root
  obtain ⟨v, hv⟩ := h.known
  obtain ⟨testonlys, ht⟩ := exists_warnings fun d => testonly_of_experimental (o := o) hx
  obtain ⟨deprecations, hd⟩ := exists_warnings fun d (h : deprecation c.policy e = some d) =>
    deprecation_warning h
  refine ⟨testonlys ++ deprecations, ?_⟩
  rw [diagnostics_checkEdge, location_of_experimental hx,
    visibility_of_experimental hx hc h.written hv, ht, hd]
  simp

lemma checkEdge_no_error (hc : c.checksExperimental = false) (h : e.OfExperiment c) {r : Report}
    (hr : ∀ text, .error text ∉ r.diagnostics) (text : String) :
    .error text ∉ (checkEdge c.policy o r e).diagnostics := by
  obtain ⟨texts, hd⟩ := checkEdge_of_experiment (o := o) hc h r
  rw [hd]
  intro hm
  rcases List.mem_append.mp hm with hm | hm
  · rcases List.mem_append.mp hm with hm | hm
    · exact hr text hm
    · obtain ⟨m, hm⟩ := packageGroup_attributeError (Option.mem_toList.mp hm)
      cases hm
  · obtain ⟨m, -, hm⟩ := List.mem_map.mp hm
    cases hm

lemma checkEdges_no_error (hc : c.checksExperimental = false) {es : List Edge}
    (h : ∀ e ∈ es, e.OfExperiment c) {r : Report} (hr : ∀ text, .error text ∉ r.diagnostics)
    (text : String) : .error text ∉ (checkEdges c.policy o r es).diagnostics := by
  induction es generalizing r with
  | nil => exact hr text
  | cons e es ih =>
    have he : ∀ text, .error text ∉ (checkEdge c.policy o r e).diagnostics :=
      checkEdge_no_error hc (h e List.mem_cons_self) hr
    exact ih (fun f hf => h f (List.mem_cons_of_mem e hf)) he

/-- Unless the conventions bind it, experimental code gets no error but for misplaced package groups:
whatever else is found on its edges is told in a warning. -/
theorem experiments_get_warnings (c : Conventions) (o : CheckOptions)
    (hc : c.checksExperimental = false) :
    (∀ e : Edge, e.OfExperiment c → ∀ r, ∃ texts : List String,
      (checkEdge c.policy o r e).diagnostics =
        r.diagnostics ++ (packageGroup e).toList ++ texts.map .warning) ∧
    (∀ e d, packageGroup e = some d → ∃ text, d = .attributeError e.via.name text) ∧
    (∀ e : Edge, e.OfExperiment c →
      (∀ text, .error text ∉ (checkEdge c.policy o .empty e).diagnostics) ∧
      ∀ d ∈ (checkEdge c.policy o .empty e).diagnostics,
        packageGroup e = some d ∨ ∃ text, d = .warning text) ∧
    ∀ es : List Edge, (∀ e ∈ es, e.OfExperiment c) →
      ∀ text, .error text ∉ (checkEdges c.policy o .empty es).diagnostics := by
  have hn : ∀ text, Diagnostic.error text ∉ empty.diagnostics := fun _ => List.not_mem_nil
  refine ⟨fun e h r => checkEdge_of_experiment hc h r, fun e d => packageGroup_attributeError,
    fun e h => ⟨checkEdge_no_error hc h hn, ?_⟩, fun es h => checkEdges_no_error hc h hn⟩
  intro d hd
  obtain ⟨texts, ht⟩ := checkEdge_of_experiment (o := o) hc h empty
  rw [ht] at hd
  rcases List.mem_append.mp hd with hd | hd
  · exact .inl (by simpa [empty] using hd)
  · obtain ⟨text, -, rfl⟩ := List.mem_map.mp hd
    exact .inr ⟨text, rfl⟩

theorem experiments_get_warnings_for_hidden_group :
    let c := Conventions.standard
    let lab : Package := ⟨default, ⟨"experimental/bench", by decide +kernel⟩⟩
    let tools : Package := ⟨default, ⟨"tools", by decide +kernel⟩⟩
    let group : Target := ⟨⟨tools, default⟩, .packageGroup, [], true, some "old", .nobody⟩
    let tool : Attribute := ⟨"$tool", .acceptAny, by decide⟩
    let rule : RuleClass := ⟨"binary", .scripted default, false, [tool]⟩
    let consumer : Target := ⟨⟨lab, default⟩, .rule rule, [], false, none, .nobody⟩
    let e : Edge := ⟨consumer, rule, tool, .ofTarget group, none, rfl⟩
    c.checksExperimental = false ∧ e.OfExperiment c ∧ Authored e default ∧
      asAuthor c.policy .standard e default = .denied ∧ (packageGroup e).isSome = true ∧
      (checkEdge c.policy .standard .empty e).diagnostics.length = 3 ∧
      (∀ text, .error text ∉ (checkEdge c.policy .standard .empty e).diagnostics) ∧
      ∀ text, .error text ∉ (checkEdges c.policy .standard .empty [e, e]).diagnostics := by
  intro c lab tools group tool rule consumer e
  have hc : c.checksExperimental = false := rfl
  have he : e.OfExperiment c :=
    ⟨⟨_, List.mem_cons_self, by decide +kernel⟩, rfl, .nobody, rfl⟩
  obtain ⟨-, -, hedge, hedges⟩ := experiments_get_warnings c .standard hc
  refine ⟨hc, he, .byRule (by decide) (by decide) rfl rfl, by decide +kernel, by decide +kernel,
    by decide +kernel, (hedge e he).1, hedges [e, e] ?_⟩
  intro f hf
  rcases List.mem_pair.mp hf with rfl | rfl
  · exact he
  · exact he

end Report

end EdgeAdmission
