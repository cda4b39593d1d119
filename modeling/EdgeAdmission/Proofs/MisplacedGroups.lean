import EdgeAdmission.Proofs.Aliasing
import EdgeAdmission.Proofs.Composition
import EdgeAdmission.Proofs.VisibilityDecision

/-! Package groups in attributes that do not take them. They make the only diagnostics that are put on
an attribute, and it is the edge alone that decides about them. -/

namespace EdgeAdmission

def Diagnostic.isAttributeError : Diagnostic → Bool
  | .attributeError _ _ => true
  | _ => false

namespace Attribute

def AsksForPackages (a : Attribute) : Prop :=
  ∃ alternative ∈ a.required.alternatives, ∃ provider ∈ alternative,
    provider ∈ ProviderRequirement.packageProviders

def IsLast (attributes : List Attribute) (name : String) (a : Attribute) : Prop :=
  ∃ before after, attributes = before ++ a :: after ∧ a.name = name ∧
    ∀ b ∈ after, b.name ≠ name

lemma acceptsPackages_iff {a : Attribute} :
    a.required.acceptsPackages = true ↔ a.AsksForPackages := by
  simp only [ProviderRequirement.acceptsPackages, AsksForPackages, List.any_eq_true,
    List.contains_iff_mem]

end Attribute

namespace RuleClass

variable {rule : RuleClass} {name : String} {a : Attribute}

lemma attribute?_eq_some_iff :
    rule.attribute? name = some a ↔ Attribute.IsLast rule.attributes name a := by
  simp only [attribute?, List.find?_eq_some_iff_append, decide_eq_true_eq, Bool.not_eq_true',
    decide_eq_false_iff_not]
  -- The lookup goes through the list from its end.
  constructor
  · rintro ⟨hn, after, before, hs, hl⟩
    refine ⟨before.reverse, after.reverse, ?_, hn, fun b hb => hl b (List.mem_reverse.mp hb)⟩
    rw [← List.reverse_reverse rule.attributes, hs]
    simp
  · rintro ⟨before, after, hs, hn, hl⟩
    refine ⟨hn, after.reverse, before.reverse, ?_, fun b hb => hl b (List.mem_reverse.mp hb)⟩
    rw [hs]
    simp

lemma attribute?_eq_none_iff :
    rule.attribute? name = none ↔ ∀ a ∈ rule.attributes, a.name ≠ name := by
  simp [attribute?]

end RuleClass

namespace Edge

/-- The requirements that count for the edge are those of `a`: of the last attribute in the rule class
that has the name, or of the edge's own where the class has none of it. -/
inductive Governs (e : Edge) : Attribute → Prop
  | defined {a : Attribute} (h : Attribute.IsLast e.rule.attributes e.via.name a) : Governs e a
  | undefined (h : ∀ a ∈ e.rule.attributes, a.name ≠ e.via.name) : Governs e e.via

structure MisplacesGroup (e : Edge) : Prop where
  group : e.prerequisite.target.kind = .packageGroup
  not_visibility : e.via.name ≠ "visibility"
  not_allowlist : e.via.name ≠ "$allowlist_function_transition"
  not_asked : ∀ a, e.Governs a → ¬ a.AsksForPackages

def exposedAs (e : Edge) (w : Visibility) (v : Option Visibility) (aspect? : Option AspectClass) :
    Edge :=
  { e with
    prerequisite :=
      { e.prerequisite.withTarget (e.prerequisite.target.withVisibility w) with visibility := v }
    aspect? := aspect? }

variable {e : Edge} {a : Attribute}

lemma governs_iff : e.Governs a ↔ a = e.effectiveAttribute := by
  rw [effectiveAttribute]
  constructor
  · rintro (h | h)
    · rw [RuleClass.attribute?_eq_some_iff.mpr h, Option.getD_some]
    · rw [RuleClass.attribute?_eq_none_iff.mpr h, Option.getD_none]
  · rintro rfl
    cases h : e.rule.attribute? e.via.name with
    | some a => exact .defined (RuleClass.attribute?_eq_some_iff.mp h)
    | none => exact .undefined (RuleClass.attribute?_eq_none_iff.mp h)

lemma existsUnique_governs (e : Edge) : ∃! a, e.Governs a :=
  ⟨e.effectiveAttribute, governs_iff.mpr rfl, fun _ h => governs_iff.mp h⟩

end Edge

namespace Check

variable {policy : Policy} {o : CheckOptions} {e : Edge} {d : Diagnostic} {s : Stage}

lemma misplacesGroup_iff :
    e.MisplacesGroup ↔
      e.prerequisite.target.isPackageGroup = true ∧ groupAttributes.contains e.via.name = false ∧
        e.effectiveAttribute.required.acceptsPackages = false := by
  have ha : groupAttributes.contains e.via.name = false ↔
      e.via.name ≠ "visibility" ∧ e.via.name ≠ "$allowlist_function_transition" := by
    simp [groupAttributes, Attribute.visibilityName, Attribute.transitionAllowlistName]
  rw [ha, Target.isPackageGroup, decide_eq_true_iff, ← Bool.not_eq_true,
    Attribute.acceptsPackages_iff]
  constructor
  · intro h
    exact ⟨h.group, ⟨h.not_visibility, h.not_allowlist⟩, h.not_asked _ (Edge.governs_iff.mpr rfl)⟩
  · rintro ⟨hg, ⟨hv, ht⟩, hp⟩
    refine ⟨hg, hv, ht, fun a h => ?_⟩
    rw [Edge.governs_iff.mp h]
    exact hp

lemma packageGroup_of_misplaced (h : e.MisplacesGroup) :
    packageGroup e = some (.attributeError e.via.name (Finding.misplacedPackageGroup e.via.name
      e.rule.name e.consumer.label e.prerequisite).message) := by
  obtain ⟨hg, hv, hp⟩ := misplacesGroup_iff.mp h
  rw [packageGroup, hg, hv, hp]
  rfl

lemma packageGroup_eq_none_iff : packageGroup e = none ↔ ¬ e.MisplacesGroup := by
  rw [misplacesGroup_iff, packageGroup]
  simp [and_assoc]

lemma packageGroup_exposedAs (e : Edge) (w : Visibility) (v : Option Visibility)
    (aspect? : Option AspectClass) : packageGroup (e.exposedAs w v aspect?) = packageGroup e := rfl

lemma location_not_attributeError (h : location policy o e = some d) :
    d.isAttributeError = false := by
  unfold location at h
  dsimp only at h
  split at h
  · split at h
    · cases h; rfl
    · cases h; rfl
  · cases h

lemma testonly_not_attributeError (h : testonly policy o e = some d) :
    d.isAttributeError = false := by
  simp only [testonly, Option.ite_none_right_eq_some, Option.map_eq_some_iff] at h
  obtain ⟨-, finding, -, rfl⟩ := h
  split
  · rfl
  · rfl

lemma outcome_not_attributeError (hs : s ≠ .packageGroup) (h : outcome policy o e s = some d) :
    d.isAttributeError = false := by
  cases s with
  | location => exact location_not_attributeError h
  | packageGroup => exact absurd rfl hs
  | visibility =>
    obtain ⟨text, rfl⟩ := visibility_error h
    rfl
  | testonly => exact testonly_not_attributeError h
  | deprecation =>
    obtain ⟨text, rfl⟩ := deprecation_warning h
    rfl

lemma packageGroup_isAttributeError (h : packageGroup e = some d) : d.isAttributeError = true := by
  obtain ⟨text, rfl⟩ := packageGroup_attributeError h
  rfl

lemma filter_outcome (policy : Policy) (o : CheckOptions) (e : Edge) (s : Stage) :
    (outcome policy o e s).toList.filter (·.isAttributeError) =
      if s = .packageGroup then (packageGroup e).toList else [] := by
  split
  · next hs =>
    subst hs
    exact List.filter_eq_self.mpr fun d hd => packageGroup_isAttributeError (Option.mem_toList.mp hd)
  · next hs =>
    refine List.filter_eq_nil_iff.mpr fun d hd => ?_
    rw [outcome_not_attributeError hs (Option.mem_toList.mp hd)]
    exact Bool.false_ne_true

end Check

namespace Report

open Check

lemma attributeErrors_checkEdge (policy : Policy) (o : CheckOptions) (e : Edge) :
    (checkEdge policy o empty e).diagnostics.filter (·.isAttributeError) =
      (packageGroup e).toList := by
  rw [diagnostics_checkEdge_eq, List.filterMap_eq_flatMap_toList, empty, List.nil_append,
    List.filter_flatMap]
  simp only [filter_outcome]
  simp [stages]

theorem misplaced_groups_reported (e : Edge) :
    let said := fun policy o e => (checkEdge policy o empty e).diagnostics
    let errors := fun policy o e => (said policy o e).filter (·.isAttributeError)
    (∀ policy o r, (checkEdge policy o r e).diagnostics = r.diagnostics ++ said policy o e) ∧
    (∃! a, e.Governs a) ∧
    (∀ policy o, (∃ d ∈ said policy o e, d.isAttributeError = true) ↔ e.MisplacesGroup) ∧
    (e.MisplacesGroup → ∀ policy o, errors policy o e =
      [.attributeError e.via.name (Finding.misplacedPackageGroup e.via.name e.rule.name
        e.consumer.label e.prerequisite).message]) ∧
    ∀ policy o policy' o' w v aspect?,
      errors policy' o' (e.exposedAs w v aspect?) = errors policy o e := by
  intro said errors
  have herrors : ∀ policy o e, errors policy o e = (packageGroup e).toList :=
    attributeErrors_checkEdge
  refine ⟨fun policy o r => diagnostics_checkEdge_append policy o r e, e.existsUnique_governs,
    ?_, ?_, ?_⟩
  · intro policy o
    have hn : errors policy o e = [] ↔ ¬ e.MisplacesGroup := by
      rw [herrors, Option.toList_eq_nil_iff, packageGroup_eq_none_iff]
    rw [← not_iff_not, ← hn, List.filter_eq_nil_iff]
    push Not
    rfl
  · intro h policy o
    rw [herrors, packageGroup_of_misplaced h]
    rfl
  · intro policy o policy' o' w v aspect?
    rw [herrors, herrors, packageGroup_exposedAs]

theorem misplaced_groups_reported_by_last_definition :
    let asking : Attribute := ⟨"groups", ⟨[["CcInfo"], ["PackageSpecificationInfo"]]⟩, by decide⟩
    let plain : Attribute := ⟨"groups", .allOf ["CcInfo"], by decide⟩
    let friends : Target := { (default : Target) with kind := .packageGroup }
    let p : Prerequisite := (Prerequisite.ofTarget friends).throughAlias default
    let edge := fun attributes via => show Edge from
      let rule : RuleClass := ⟨"binary", .builtin, false, attributes⟩
      ⟨{ (default : Target) with kind := .rule rule }, rule, via, p, none, rfl⟩
    let e := edge [asking, plain] asking
    let text := (Finding.misplacedPackageGroup "groups" "binary" e.consumer.label p).message
    let said := fun policy o e => (checkEdge policy o empty e).diagnostics
    let errors := fun policy o e => (said policy o e).filter (·.isAttributeError)
    e.MisplacesGroup ∧
    (∀ policy o, errors policy o e = [.attributeError "groups" text]) ∧
    (∀ policy o w, errors policy o (e.exposedAs w none (some default)) =
      errors Conventions.standard.policy .standard e) ∧
    ∀ policy o, ¬ ∃ d ∈ said policy o (edge [plain, asking] plain), d.isAttributeError = true := by
  intro asking plain friends p edge e text said errors
  obtain ⟨-, -, -, herrors, hsame⟩ := misplaced_groups_reported e
  obtain ⟨-, -, hmisplaced, -, -⟩ := misplaced_groups_reported (edge [plain, asking] plain)
  have he : e.MisplacesGroup := misplacesGroup_iff.mpr ⟨rfl, by decide, by decide⟩
  refine ⟨he, herrors he, fun policy o w => hsame _ _ policy o w none (some default), ?_⟩
  intro policy o h
  have hn := misplacesGroup_iff.mp ((hmisplaced policy o).mp h)
  exact absurd hn.2.2 (by decide)

end Report

end EdgeAdmission
