import EdgeAdmission.Conventions
import EdgeAdmission.Proofs.Outcomes

namespace EdgeAdmission.Report

open Check

section Blocks

variable (policy : Policy) (o : CheckOptions)

def runStages (ss : List Stage) (r : Report) (e : Edge) : Report :=
  ss.foldl (fun r s => r.addAll (outcome policy o e s).toList) r

lemma checkEdge_eq_runStages (r : Report) (e : Edge) :
    checkEdge policy o r e = runStages policy o stages r e := rfl

lemma diagnostics_runStages (ss : List Stage) (r : Report) (e : Edge) :
    (runStages policy o ss r e).diagnostics = r.diagnostics ++ ss.filterMap (outcome policy o e) := by
  induction ss generalizing r with
  | nil => simp [runStages]
  | cons s ss ih =>
    have hs := ih (r.addAll (outcome policy o e s).toList)
    rw [diagnostics_addAll] at hs
    refine hs.trans ?_
    simp [List.filterMap_eq_flatMap_toList]

lemma diagnostics_runStages_one (s : Stage) (e : Edge) :
    (runStages policy o [s] empty e).diagnostics = (outcome policy o e s).toList := by
  rw [diagnostics_runStages, List.filterMap_eq_flatMap_toList]
  simp [empty]

lemma diagnostics_checkEdge_append (r : Report) (e : Edge) :
    (checkEdge policy o r e).diagnostics =
      r.diagnostics ++ (checkEdge policy o empty e).diagnostics := by
  rw [diagnostics_checkEdge_eq, diagnostics_checkEdge_eq]
  rfl

lemma diagnostics_checkEdges (r : Report) (es : List Edge) :
    (checkEdges policy o r es).diagnostics =
      r.diagnostics ++ es.flatMap fun e => (checkEdge policy o empty e).diagnostics := by
  induction es generalizing r with
  | nil => simp [checkEdges]
  | cons e es ih =>
    have hr := ih (checkEdge policy o r e)
    rw [diagnostics_checkEdge_append, List.append_assoc] at hr
    exact hr

lemma length_checkEdge_le (e : Edge) : (checkEdge policy o empty e).diagnostics.length ≤ 5 := by
  rw [diagnostics_checkEdge_eq]
  exact List.length_filterMap_le (outcome policy o e) stages

lemma hasErrors_checkEdges_iff (r : Report) (es : List Edge) :
    (checkEdges policy o r es).hasErrors = true ↔
      r.hasErrors = true ∨ ∃ e ∈ es, (checkEdge policy o empty e).hasErrors = true := by
  simp only [hasErrors, diagnostics_checkEdges, List.any_append, Bool.or_eq_true, List.any_flatMap,
    List.any_eq_true]

lemma hasErrors_checkEdge_iff (e : Edge) :
    (checkEdge policy o empty e).hasErrors = true ↔
      ∃ s, s ≠ .deprecation ∧ ∃ d, outcome policy o e s = some d ∧ d.isError = true := by
  rw [hasErrors, diagnostics_checkEdge_eq]
  simp only [empty, List.nil_append, List.any_eq_true, List.mem_filterMap]
  constructor
  · rintro ⟨d, ⟨s, -, hs⟩, hd⟩
    refine ⟨s, ?_, d, hs, hd⟩
    rintro rfl
    obtain ⟨text, rfl⟩ := deprecation_warning hs
    cases hd
  · rintro ⟨s, -, d, hs, hd⟩
    exact ⟨d, ⟨s, mem_stages s, hs⟩, hd⟩

end Blocks

/-- A report on several edges holds what it held before and then, edge by edge, what is said of each
alone. That in turn is what each check says alone, whichever others are made before it. -/
theorem reports_compose (policy : Policy) (o : CheckOptions) :
    let said := fun e => (checkEdge policy o empty e).diagnostics
    let alone := fun s e => (runStages policy o [s] empty e).diagnostics
    (∀ r es, (checkEdges policy o r es).diagnostics = r.diagnostics ++ es.flatMap said) ∧
    (∀ r e, checkEdge policy o r e =
      runStages policy o [.location, .packageGroup, .visibility, .testonly, .deprecation] r e) ∧
    (∀ ss r e, (runStages policy o ss r e).diagnostics = r.diagnostics ++ ss.flatMap (alone · e)) ∧
    (∀ s e, alone s e = (outcome policy o e s).toList ∧ (alone s e).length ≤ 1) ∧
    (∀ e, (said e).length ≤ 5) ∧
    (∀ r es es', es.Perm es' →
      (checkEdges policy o r es).diagnostics.Perm (checkEdges policy o r es').diagnostics) ∧
    (∀ r e n, (checkEdges policy o r (List.replicate n e)).diagnostics =
      r.diagnostics ++ (List.replicate n (said e)).flatten) ∧
    (∀ r es, (checkEdges policy o r es).hasErrors = true ↔
      r.hasErrors = true ∨ ∃ e ∈ es, (checkEdge policy o empty e).hasErrors = true) ∧
    (∀ e, (checkEdge policy o empty e).hasErrors = true ↔
      ∃ s, s ≠ .deprecation ∧ ∃ d, outcome policy o e s = some d ∧ d.isError = true) ∧
    ∀ e d, outcome policy o e .deprecation = some d → d.isError = false := by
  intro said alone
  have halone : ∀ s e, alone s e = (outcome policy o e s).toList :=
    diagnostics_runStages_one policy o
  refine ⟨diagnostics_checkEdges policy o, checkEdge_eq_runStages policy o, ?_, ?_,
    length_checkEdge_le policy o, ?_, ?_, hasErrors_checkEdges_iff policy o,
    hasErrors_checkEdge_iff policy o, ?_⟩
  · intro ss r e
    rw [diagnostics_runStages, List.filterMap_eq_flatMap_toList]
    simp only [halone]
  · intro s e
    refine ⟨halone s e, ?_⟩
    rw [halone]
    exact Option.length_toList_le
  · intro r es es' h
    rw [diagnostics_checkEdges, diagnostics_checkEdges]
    exact (h.flatMap_right said).append_left r.diagnostics
  · intro r e n
    rw [diagnostics_checkEdges, List.flatMap_replicate]
  · intro e d h
    obtain ⟨text, rfl⟩ := deprecation_warning h
    rfl

theorem reports_compose_in_either_order :
    let lab : Package := ⟨default, ⟨"experimental/desk", by decide +kernel⟩⟩
    let old : Target := ⟨⟨lab, default⟩, .sourceFile, [], true, some "old", .everyone⟩
    let tool : Target := { (default : Target) with isTestonly := true }
    let first : Edge := { (default : Edge) with prerequisite := .ofTarget old }
    let second : Edge := { (default : Edge) with prerequisite := .ofTarget tool }
    let policy := Conventions.standard.policy
    let report := fun r es => checkEdges policy .standard r es
    let before : Report := ⟨[.warning "kept"]⟩
    ((report empty [first]).diagnostics.length = 3 ∧ (report empty [second]).diagnostics.length = 1) ∧
    [first, second].Perm [second, first] ∧
    report before [first, second] ≠ report before [second, first] ∧
    (report before [first, second]).diagnostics.Perm (report before [second, first]).diagnostics ∧
    (report before [first, second]).hasErrors = true := by
  intro lab old tool first second policy report before
  obtain ⟨-, -, -, -, -, hperm, -, herrors, -⟩ := reports_compose policy .standard
  have hp : [first, second].Perm [second, first] := .swap second first []
  refine ⟨⟨by decide +kernel, by decide +kernel⟩, hp, by decide +kernel, hperm before _ _ hp, ?_⟩
  exact (herrors before _).mpr (.inr ⟨first, List.mem_cons_self, by decide +kernel⟩)

end EdgeAdmission.Report
