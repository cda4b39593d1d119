import EdgeAdmission.Conventions
import EdgeAdmission.Proofs.Agreement
import EdgeAdmission.Proofs.Outcomes

namespace EdgeAdmission

inductive Diagnostic.SameSeverity : Diagnostic → Diagnostic → Prop
  | error (m n : String) : SameSeverity (.error m) (.error n)
  | warning (m n : String) : SameSeverity (.warning m) (.warning n)
  | attributeError (name m n : String) :
      SameSeverity (.attributeError name m) (.attributeError name n)

def Target.withVisibility (t : Target) (v : Visibility) : Target := { t with visibility := v }

def Prerequisite.withTarget (p : Prerequisite) (t : Target) : Prerequisite := { p with target := t }

namespace Edge

def reaching (e : Edge) (p : Prerequisite) : Edge := { e with prerequisite := p }

def through (e : Edge) (t : Target) (aliases : List Target) : Edge :=
  e.reaching ((Prerequisite.ofTarget t).throughAliases aliases)

def withConsumerVisibility (e : Edge) (v : Visibility) : Edge :=
  { e with consumer := e.consumer.withVisibility v, consumer_kind := e.consumer_kind }

end Edge

structure Policy.AnswersAlike (policy : Policy) (t u : Target) : Prop where
  experimental : policy.checksExperimental u = policy.checksExperimental t
  toolchain : ∀ l, policy.checksToolchain u l = policy.checksToolchain t l

lemma Conventions.answersAlike (c : Conventions) (t u : Target) : c.policy.AnswersAlike t u :=
  ⟨rfl, fun _ => rfl⟩

namespace Diagnostic

lemma SameSeverity.refl (d : Diagnostic) : d.SameSeverity d := by
  cases d with
  | error m => exact .error m m
  | warning m => exact .warning m m
  | attributeError name m => exact .attributeError name m m

lemma rel_ite {c : Prop} [Decidable c] {x y : Option Diagnostic} (h : Option.Rel SameSeverity x y) :
    Option.Rel SameSeverity (if c then x else none) (if c then y else none) := by
  split
  · exact h
  · exact .none

lemma rel_refl (x : Option Diagnostic) : Option.Rel SameSeverity x x := by
  cases x with
  | none => exact .none
  | some d => exact .some (.refl d)

end Diagnostic

namespace Prerequisite

lemma throughAliases_eq (p : Prerequisite) (aliases : List Target) (a : Target) :
    p.throughAliases (aliases ++ [a]) =
      ⟨p.target, a.label :: (aliases.map (·.label)).reverse ++ p.aliases, some a.visibility⟩ := by
  induction aliases generalizing p with
  | nil => rfl
  | cons b aliases ih =>
    have hb : p.throughAliases (b :: aliases ++ [a]) =
      (p.throughAlias b).throughAliases (aliases ++ [a]) := rfl
    rw [hb, ih]
    simp [throughAlias]

lemma target_throughAliases (p : Prerequisite) (aliases : List Target) :
    (p.throughAliases aliases).target = p.target := by
  induction aliases generalizing p with
  | nil => rfl
  | cons a aliases ih => exact ih (p.throughAlias a)

end Prerequisite

namespace Check

open Diagnostic

variable {policy policy' : Policy} {o o' : CheckOptions} {e e' : Edge} {p q : Prerequisite}

lemma verdict_agree (hr : resolver policy' o' e' = resolver policy o e)
    (ha : author? e' = author? e) (hp : e.prerequisite.Alike e'.prerequisite)
    (hd : (Declaration.target e.consumer).Alike e.prerequisite.label (.target e'.consumer)) :
    Verdict.Agree e.prerequisite e'.prerequisite (.target e.consumer) (.target e'.consumer)
      (verdict policy o e) (verdict policy' o' e') := by
  have hc := (resolver policy o e).atDeclaration_agree hp hd
  unfold verdict
  rw [hr, ha]
  cases author? e with
  | none => exact hc
  | some file => exact ((resolver policy o e).atLocation_agree hp file.package).orElse hc

section OfAgreement

variable (hb : bindsVisibility policy' o' e' = bindsVisibility policy o e)
  (h : Verdict.Agree e.prerequisite e'.prerequisite (.target e.consumer) (.target e'.consumer)
    (verdict policy o e) (verdict policy' o' e'))

include hb h

lemma visibility_sameSeverity :
    Option.Rel SameSeverity (visibility policy o e) (visibility policy' o' e') := by
  unfold visibility
  rw [hb]
  split
  · generalize verdict policy o e = u at h ⊢
    generalize verdict policy' o' e' = v at h ⊢
    cases h with
    | granted => exact .none
    | denied => exact .some (.error _ _)
    | nestingTooDeep => exact .some (.error _ _)
    | noVisibility => exact .some (.error _ _)
  · exact .none

lemma visibility_eq_of_agree (hp : e'.prerequisite.describe = e.prerequisite.describe)
    (hf : e'.prerequisite.target.isSourceFile = e.prerequisite.target.isSourceFile)
    (hc : e'.consumer.label = e.consumer.label) (hg : grantee e' = grantee e) :
    visibility policy' o' e' = visibility policy o e := by
  unfold visibility
  rw [hb]
  split
  · generalize verdict policy o e = u at h ⊢
    generalize verdict policy' o' e' = v at h ⊢
    cases h with
    | granted => rfl
    | denied =>
      unfold Finding.message
      dsimp only
      rw [hp, hf, hg]
    | nestingTooDeep =>
      unfold Finding.message Unresolved.message Declaration.display
      dsimp only
      rw [hp, hc]
    | noVisibility =>
      unfold Finding.message Unresolved.message
      dsimp only
      rw [hp]
  · rfl

end OfAgreement

lemma visibility_eq_of_answersAlike (h : policy.AnswersAlike e.consumer e'.consumer)
    (hb : bindsVisibility policy o e' = bindsVisibility policy o e) (ha : author? e' = author? e)
    (hp : e'.prerequisite = e.prerequisite) (hl : e'.consumer.label = e.consumer.label)
    (hn : e'.consumer.nesting = e.consumer.nesting) :
    visibility policy o e' = visibility policy o e := by
  have hr : resolver policy o e' = resolver policy o e :=
    congrArg (Resolver.mk policy · o.maxMacroDepth) h.experimental
  have hd : (Declaration.target e.consumer).Alike e.prerequisite.label (.target e'.consumer) := by
    refine ⟨congrArg Label.package hl.symm, ?_⟩
    change List.Forall₂ _ e.consumer.nesting e'.consumer.nesting
    rw [hn]
    exact List.forall₂_same.mpr fun m _ => MacroCall.Alike.refl _ m
  have hg : grantee e' = grantee e := by
    rw [grantee, grantee, ha, hl]
  have hv := verdict_agree hr ha ⟨by rw [hp], by rw [hp]⟩ hd
  exact visibility_eq_of_agree hb hv (by rw [hp]) (by rw [hp]) hl hg

section SameTarget

variable (ht : p.target = q.target)

include ht

lemma location_reaching :
    location policy o (e.reaching p) = location policy o (e.reaching q) := by
  simp only [location, Edge.reaching, ht]
  rfl

lemma packageGroup_sameSeverity :
    Option.Rel SameSeverity (packageGroup (e.reaching p)) (packageGroup (e.reaching q)) := by
  simp only [packageGroup, Edge.reaching, Edge.effectiveAttribute, ht]
  exact rel_ite (.some (.attributeError _ _ _))

lemma testonly_sameSeverity :
    Option.Rel SameSeverity (testonly policy o (e.reaching p))
      (testonly policy o (e.reaching q)) := by
  have hs : ∀ f g : Finding, SameSeverity
      (if policy.isExperimental e.consumer.package then .warning f.message else .error f.message)
      (if policy.isExperimental e.consumer.package then .warning g.message else .error g.message) := by
    intro f g
    split
    · exact .warning _ _
    · exact .error _ _
  simp only [testonly, testonlyFinding?, Edge.reaching, ht]
  apply rel_ite
  cases q.target.kind.generator? with
  | none => exact .some (hs _ _)
  | some generator =>
    cases o.checksOutputFiles with
    | false => exact .none
    | true => exact .some (hs _ _)

lemma deprecation_reaching (hl : p.label = q.label) :
    deprecation policy (e.reaching p) = deprecation policy (e.reaching q) := by
  simp only [deprecation, deprecationFinding, Edge.reaching, ht, hl]
  rfl

lemma bindsVisibility_reaching :
    bindsVisibility policy o (e.reaching p) = bindsVisibility policy o (e.reaching q) := by
  simp only [bindsVisibility, Edge.reaching, ht]
  rfl

lemma outcome_sameSeverity (h : p.Alike q) (s : Stage) :
    Option.Rel SameSeverity (outcome policy o (e.reaching p) s)
      (outcome policy o (e.reaching q) s) := by
  cases s with
  | location =>
    rw [outcome, outcome, location_reaching ht]
    exact rel_refl _
  | packageGroup => exact packageGroup_sameSeverity ht
  | visibility =>
    exact visibility_sameSeverity (bindsVisibility_reaching ht).symm
      (verdict_agree rfl rfl h (.refl _ _))
  | testonly => exact testonly_sameSeverity ht
  | deprecation =>
    rw [outcome, outcome, deprecation_reaching ht h.label]
    exact rel_refl _

end SameTarget

lemma outcome_withTarget (p : Prerequisite) (v : Visibility) (s : Stage) :
    outcome policy o (e.reaching (p.withTarget (p.target.withVisibility v))) s =
      outcome policy o (e.reaching p) s := by
  cases s with
  | location => rfl
  | packageGroup => rfl
  | visibility =>
    have h : p.Alike (p.withTarget (p.target.withVisibility v)) := ⟨rfl, rfl⟩
    exact visibility_eq_of_agree rfl (verdict_agree rfl rfl h (.refl _ _)) rfl rfl rfl rfl
  | testonly =>
    unfold outcome testonly testonlyFinding?
    dsimp only [Edge.reaching, Prerequisite.withTarget, Target.withVisibility]
    cases p.target.kind.generator? with
    | none => rfl
    | some generator => cases o.checksOutputFiles <;> rfl
  | deprecation => rfl

lemma outcome_withConsumerVisibility (v : Visibility) {s : Stage} (hs : s ≠ .visibility) :
    outcome policy o (e.withConsumerVisibility v) s = outcome policy o e s := by
  cases s with
  | location => rfl
  | packageGroup => rfl
  | visibility => exact absurd rfl hs
  | testonly => rfl
  | deprecation => rfl

lemma visibility_withConsumerVisibility (v : Visibility)
    (h : policy.AnswersAlike e.consumer (e.consumer.withVisibility v)) :
    visibility policy o (e.withConsumerVisibility v) = visibility policy o e := by
  have hb : bindsVisibility policy o (e.withConsumerVisibility v) = bindsVisibility policy o e := by
    rw [bindsVisibility, Edge.withConsumerVisibility]
    dsimp only
    rw [h.toolchain]
    rfl
  exact visibility_eq_of_answersAlike h hb rfl rfl rfl rfl

end Check

lemma Edge.through_eq {t a b : Target} {as bs : List Target} (v : Visibility) (e : Edge)
    (hm : as.map (·.label) = bs.map (·.label)) (hl : a.label = b.label)
    (hv : a.visibility = b.visibility) :
    e.through (t.withVisibility v) (as ++ [a]) =
      let p := (Prerequisite.ofTarget t).throughAliases (bs ++ [b])
      e.reaching (p.withTarget (p.target.withVisibility v)) := by
  unfold Edge.through
  dsimp only
  rw [Prerequisite.throughAliases_eq, Prerequisite.throughAliases_eq, hm, hl, hv]
  rfl

open Check in
lemma Report.checkEdge_withConsumerVisibility {policy : Policy} {o : CheckOptions} {e : Edge}
    (r : Report) (v : Visibility)
    (h : policy.AnswersAlike e.consumer (e.consumer.withVisibility v)) :
    checkEdge policy o r (e.withConsumerVisibility v) = checkEdge policy o r e := by
  apply checkEdge_congr
  intro s
  by_cases hs : s = .visibility
  · subst hs
    exact visibility_withConsumerVisibility v h
  · exact outcome_withConsumerVisibility v hs

open Check Diagnostic Report in
/-- What aliases change in a report. Whatever the chain, the diagnostic of the location is the same,
and those of package groups and of testonly targets are there with one severity. Two chains that end
in aliases of one label and visibility bring the same diagnostics but for their words. Of a chain
with aliases in it only the labels count and the visibility of the last one, not that of the target;
that of the consumer never counts, unless the policy itself asks for it. -/
theorem aliases_in_reports (policy : Policy) (o : CheckOptions) (e : Edge) :
    (∀ r e', (checkEdge policy o r e').diagnostics =
      r.diagnostics ++ stages.filterMap (outcome policy o e')) ∧
    (∀ t as bs,
      outcome policy o (e.through t as) .location = outcome policy o (e.through t bs) .location ∧
      ∀ s ∈ [Stage.packageGroup, .testonly], Option.Rel SameSeverity
        (outcome policy o (e.through t as) s) (outcome policy o (e.through t bs) s)) ∧
    (∀ t as bs (a b : Target), a.label = b.label → a.visibility = b.visibility → ∀ s,
      Option.Rel SameSeverity (outcome policy o (e.through t (as ++ [a])) s)
        (outcome policy o (e.through t (bs ++ [b])) s)) ∧
    (∀ t v (as bs : List Target) (a b : Target), as.map (·.label) = bs.map (·.label) →
      a.label = b.label → a.visibility = b.visibility → ∀ r,
      checkEdge policy o r (e.through (t.withVisibility v) (as ++ [a])) =
        checkEdge policy o r (e.through t (bs ++ [b]))) ∧
    (∀ v s, s ≠ .visibility →
      outcome policy o (e.withConsumerVisibility v) s = outcome policy o e s) ∧
    (∀ v, policy.AnswersAlike e.consumer (e.consumer.withVisibility v) → ∀ r,
      checkEdge policy o r (e.withConsumerVisibility v) = checkEdge policy o r e) ∧
    ∀ (c : Conventions) v r,
      checkEdge c.policy o r (e.withConsumerVisibility v) = checkEdge c.policy o r e := by
  refine ⟨fun r e' => diagnostics_checkEdge_eq policy o r e', ?_, ?_, ?_, ?_,
    fun v h r => checkEdge_withConsumerVisibility r v h,
    fun c v r => checkEdge_withConsumerVisibility r v (c.answersAlike _ _)⟩
  · intro t as bs
    have ht : ((Prerequisite.ofTarget t).throughAliases as).target =
        ((Prerequisite.ofTarget t).throughAliases bs).target := by
      rw [Prerequisite.target_throughAliases, Prerequisite.target_throughAliases]
    refine ⟨location_reaching ht, ?_⟩
    intro s hs
    rcases List.mem_pair.mp hs with rfl | rfl
    · exact packageGroup_sameSeverity ht
    · exact testonly_sameSeverity ht
  · intro t as bs a b hl hv s
    apply outcome_sameSeverity
    · rw [Prerequisite.target_throughAliases, Prerequisite.target_throughAliases]
    · exact Prerequisite.throughAliases_alike hl hv _ _ as bs
  · intro t v as bs a b hm hl hv r
    rw [Edge.through_eq v e hm hl hv]
    exact checkEdge_congr r fun s => outcome_withTarget _ v s
  · intro v s hs
    exact outcome_withConsumerVisibility v hs

open Check Diagnostic Report in
theorem aliases_in_reports_on_misplaced_group :
    let outer : Label := ⟨default, "outer", by decide, by decide, by decide⟩
    let inner : Label := ⟨default, "inner", by decide, by decide, by decide⟩
    let lab : Package := ⟨default, ⟨"experimental/shelf", by decide +kernel⟩⟩
    let t : Target := ⟨⟨lab, default⟩, .packageGroup, [], true, some "old", .nobody⟩
    let a : Target := { (default : Target) with label := outer }
    let b : Target := { a with isTestonly := true, deprecation := some "old", kind := .sourceFile }
    let c : Target := { (default : Target) with label := inner }
    let e : Edge := default
    let policy := Conventions.standard.policy
    let report := fun e => checkEdge policy .standard .empty e
    let said := fun e s => outcome policy .standard e s
    (said (e.through t []) .location = said (e.through t [a]) .location ∧
      (said (e.through t []) .location).isSome = true) ∧
    (Option.Rel SameSeverity (said (e.through t []) .testonly) (said (e.through t [a]) .testonly) ∧
      said (e.through t []) .testonly ≠ said (e.through t [a]) .testonly) ∧
    (a ≠ b ∧ a.label = b.label ∧ a.visibility = b.visibility ∧
      ∀ s, Option.Rel SameSeverity (said (e.through t ([c] ++ [a])) s)
        (said (e.through t ([] ++ [b])) s)) ∧
    report (e.through (t.withVisibility .everyone) ([c] ++ [a])) =
      report (e.through t ([c.withVisibility .nobody] ++ [b])) ∧
    report (e.withConsumerVisibility .nobody) = report e := by
  intro outer inner lab t a b c e policy report said
  obtain ⟨-, hboth, hlast, hlabels, -, hconsumer, -⟩ := aliases_in_reports policy .standard e
  obtain ⟨hlocation, hseverity⟩ := hboth t [] [a]
  refine ⟨⟨hlocation, by decide +kernel⟩, ⟨hseverity _ (by decide), by decide +kernel⟩,
    ⟨by decide, rfl, rfl, hlast t [c] [] a b rfl rfl⟩, ?_, ?_⟩
  · exact hlabels t .everyone [c] [c.withVisibility .nobody] a b rfl rfl rfl .empty
  · exact hconsumer .nobody ⟨rfl, fun _ => rfl⟩ .empty

open Check in
/-- A policy is handed the whole consumer and may go by its visibility. That of the consumer counts
also where it is the very target that is asked for, and made in a symbolic macro. -/
theorem consumer_visibility_read_by_policy :
    let kiln : Package := ⟨default, ⟨"experimental/kiln", by decide +kernel⟩⟩
    let vault : Package := ⟨default, ⟨"vault", by decide +kernel⟩⟩
    let consumer : Target := ⟨⟨kiln, default⟩, default, [], false, none, .nobody⟩
    let hidden : Target := ⟨⟨vault, default⟩, .sourceFile, [], false, none, .nobody⟩
    let e : Edge := ⟨consumer, default, default, .ofTarget hidden, none, rfl⟩
    let policy : Policy :=
      { Conventions.standard.policy with
        checksExperimental := fun t => decide (t.visibility = .nobody) }
    let self : Visibility → Edge := fun v =>
      ⟨(default : Target).withVisibility v, default, default,
        .ofTarget ((default : Target).withVisibility v), none, rfl⟩
    (visibility policy .standard (e.withConsumerVisibility .nobody) ≠ none ∧
      visibility policy .standard (e.withConsumerVisibility .everyone) = none) ∧
    visibility Conventions.standard.policy .standard (self ⟨[], true⟩) ≠ none ∧
    visibility Conventions.standard.policy .standard (self .everyone) = none := by
  decide +kernel

end EdgeAdmission
