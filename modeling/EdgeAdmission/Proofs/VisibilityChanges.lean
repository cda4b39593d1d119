import EdgeAdmission.Proofs.Recency
import EdgeAdmission.Visibility

namespace EdgeAdmission.Visibility

variable {current : Cell} {u v w : Visibility} {changes front rest : List Change} {change : Change}
  {source : Source} {group : PackageGroup} {fault : PackageGroupFault} {p : Package}

namespace Change

def Sets (current : Cell) (change : Change) (w : Visibility) : Prop :=
  ∃ source, change = .set source ∧ source.read current = .ok w

def Extends (current : Cell) (change : Change) (w : Visibility) : Prop :=
  ∃ source, change = .extend source ∧ source.read current = .ok w

def Resets (current : Cell) (change : Change) : Prop := ∃ w, Sets current change w

def Brings (current : Cell) (change : Change) (group : PackageGroup) : Prop :=
  ∃ w, (Sets current change w ∨ Extends current change w) ∧ group ∈ w.groups

def Marks (current : Cell) (change : Change) : Prop :=
  change = .enterSymbolicMacro ∨ ∃ w, Sets current change w ∧ w.inSymbolicMacro = true

lemma sets_set : Sets current (.set source) w ↔ source.read current = .ok w := by simp [Sets]

lemma extends_extend : Extends current (.extend source) w ↔ source.read current = .ok w := by
  simp [Extends]

lemma not_sets_extend : ¬ Sets current (.extend source) w := nofun

lemma not_extends_set : ¬ Extends current (.set source) w := nofun

lemma run_of_refused (h : change.apply current u = .error fault) : change.run current v = v := by
  cases change with
  | set source =>
    have hr : source.read current = .error fault := h
    rw [run, apply, hr]
  | enterSymbolicMacro => cases h
  | extend source =>
    cases hr : source.read current with
    | ok w => simp [apply, hr, Except.map] at h
    | error e => simp [run, apply, hr, Except.map]

lemma mem_groups_run :
    group ∈ (change.run current v).groups ↔
      Brings current change group ∨ group ∈ v.groups ∧ ¬ Resets current change := by
  cases change with
  | set source =>
    simp only [Brings, Resets, sets_set, not_extends_set, or_false]
    cases h : source.read current with
    | ok w => simp [run, apply, h]
    | error fault => simp [run, apply, h]
  | enterSymbolicMacro =>
    simp [Brings, Resets, Sets, Extends, run, apply, asInSymbolicMacro]
  | extend source =>
    simp only [Brings, Resets, extends_extend, not_sets_extend, false_or]
    cases h : source.read current with
    | ok w => simp [run, apply, h, Except.map, Visibility.extend, or_comm]
    | error fault => simp [run, apply, h, Except.map]

lemma inSymbolicMacro_run :
    (change.run current v).inSymbolicMacro = true ↔
      Marks current change ∨ v.inSymbolicMacro = true ∧ ¬ Resets current change := by
  cases change with
  | set source =>
    simp only [Marks, Resets, sets_set, reduceCtorEq, false_or]
    cases h : source.read current with
    | ok w => simp [run, apply, h]
    | error fault => simp [run, apply, h]
  | enterSymbolicMacro => simp [Marks, run, apply, asInSymbolicMacro]
  | extend source =>
    simp only [Marks, Resets, not_sets_extend, reduceCtorEq, false_and, exists_false, or_false,
      false_or]
    cases h : source.read current with
    | ok w => simp [run, apply, h, Except.map, Visibility.extend]
    | error fault => simp [run, apply, h, Except.map]

end Change

lemma mem_groups_afterChanges :
    group ∈ (afterChanges current nobody changes).groups ↔
      ∃ change, SinceLast (Change.Resets current) changes change ∧ change.Brings current group :=
  foldl_iff_sinceLast (fun v : Visibility => group ∈ v.groups) (fun _ _ => Change.mem_groups_run)
    List.not_mem_nil

lemma inSymbolicMacro_afterChanges :
    (afterChanges current nobody changes).inSymbolicMacro = true ↔
      ∃ change, SinceLast (Change.Resets current) changes change ∧ change.Marks current :=
  foldl_iff_sinceLast (fun v : Visibility => v.inSymbolicMacro = true)
    (fun _ _ => Change.inSymbolicMacro_run) Bool.false_ne_true

lemma contains_iff_exists_group :
    v.contains p = true ↔ ∃ group ∈ v.groups, group.contains p = true := List.any_eq_true

lemma contains_afterChanges :
    (afterChanges current nobody changes).contains p = true ↔
      ∃ change, SinceLast (Change.Resets current) changes change ∧
        ∃ w, (change.Sets current w ∨ change.Extends current w) ∧ w.contains p = true := by
  simp only [contains_iff_exists_group, mem_groups_afterChanges]
  constructor
  · rintro ⟨group, ⟨change, hc, w, hw, hg⟩, hp⟩
    exact ⟨change, hc, w, hw, group, hg, hp⟩
  · rintro ⟨change, hc, w, hw, group, hg, hp⟩
    exact ⟨group, ⟨change, hc, w, hw, hg⟩, hp⟩

lemma afterChanges_refused (h : change.apply current u = .error fault) :
    afterChanges current v (front ++ change :: rest) = afterChanges current v (front ++ rest) := by
  simp only [afterChanges, List.foldl_append, List.foldl_cons, Change.run_of_refused h]

lemma extend_assoc : (u.extend v).extend w = u.extend (v.extend w) := by
  simp [extend]

/-- A run from nothing ends with the groups, each whole, of the visibility that was last set and of
those it was extended with since. Only setting and entering a symbolic macro decide the boundary. -/
theorem changes_accumulate (current : Cell) :
    (∀ changes p, (afterChanges current nobody changes).contains p = true ↔
      (∃ change, SinceLast (Change.Resets current) changes change ∧
        ∃ w, change.Sets current w ∧ w.contains p = true) ∨
      ∃ change, SinceLast (Change.Resets current) changes change ∧
        ∃ w, change.Extends current w ∧ w.contains p = true) ∧
    (∀ changes group, group ∈ (afterChanges current nobody changes).groups ↔
      ∃ change, SinceLast (Change.Resets current) changes change ∧
        ∃ w, (change.Sets current w ∨ change.Extends current w) ∧ group ∈ w.groups) ∧
    (∀ (v : Visibility) p, v.contains p = true ↔ ∃ group ∈ v.groups,
      (∃ x ∈ group.included, x.contains p = true) ∧ ¬ ∃ x ∈ group.excluded, x.contains p = true) ∧
    (∀ changes, (afterChanges current nobody changes).inSymbolicMacro = true ↔
      SinceLast (Change.Resets current) changes .enterSymbolicMacro ∨
      ∃ change, SinceLast (Change.Resets current) changes change ∧
        ∃ w, change.Sets current w ∧ w.inSymbolicMacro = true) ∧
    (∀ front change rest u fault, change.apply current u = .error fault → ∀ v,
      afterChanges current v (front ++ change :: rest) = afterChanges current v (front ++ rest)) ∧
    (∀ v w : Visibility, (v.extend w).asInSymbolicMacro = v.asInSymbolicMacro.extend w) ∧
    (∀ v : Visibility, v.asInSymbolicMacro.asInSymbolicMacro = v.asInSymbolicMacro) ∧
    ∀ u v w : Visibility, (u.extend v).extend w = u.extend (v.extend w) := by
  refine ⟨fun changes p => ?_, fun changes group => mem_groups_afterChanges, fun v p => ?_,
    fun changes => ?_, fun front change rest u fault h v => afterChanges_refused h, fun _ _ => rfl,
    fun _ => rfl, fun u v w => extend_assoc⟩
  · rw [contains_afterChanges]
    simp only [or_and_right, exists_or, and_or_left]
  · simp [contains_iff_exists_group, PackageGroup.contains]
  · rw [inSymbolicMacro_afterChanges]
    simp only [Change.Marks, and_or_left, exists_or, exists_eq_right]

theorem changes_accumulate_around_refused :
    let depot : Package := ⟨default, ⟨"depot", by decide +kernel⟩⟩
    let yard : Package := ⟨default, ⟨"depot/yard", by decide +kernel⟩⟩
    let before : Change := .extend (.written [["//lib"]] true)
    let first : Change := .set (.written [["//depot/...", "-//depot/yard"]] true)
    let refused : Change := .set (.written [["//lib"], ["-public"]] false)
    let last : Change := .extend (.written [["//depot/yard"]] false)
    let v : Visibility := ⟨[⟨[.beneath depot], [.exactly yard]⟩, ⟨[.exactly yard], []⟩], true⟩
    refused.apply default nobody = .error (.cannotNegate "public") ∧
      afterChanges default nobody [before, first, refused, last] = v ∧
      (∃ group ∈ v.groups, (∃ x ∈ group.included, x.contains yard = true) ∧
        ¬ ∃ x ∈ group.excluded, x.contains yard = true) ∧
      ∃ change, SinceLast (Change.Resets default) [before, first, last] change ∧
        ∃ w, change.Sets default w ∧ w.inSymbolicMacro = true := by
  intro depot yard before first refused last v
  have hr : refused.apply default nobody = .error (.cannotNegate "public") := rfl
  have hv : afterChanges default nobody [before, first, last] = v := rfl
  have hi : v.contains yard = true := by decide +kernel
  obtain ⟨-, -, hgroup, hflag, hrefused, -⟩ := changes_accumulate default
  have hn : ¬ SinceLast (Change.Resets default) [before, first, last] .enterSymbolicMacro := by
    rintro ⟨front, rest, h, -⟩
    have hm : Change.enterSymbolicMacro ∈ [before, first, last] := by simp [h]
    simp [before, first, last] at hm
  refine ⟨hr, ?_, (hgroup v yard).mp hi, ?_⟩
  · exact (hrefused [before, first] refused [last] nobody _ hr nobody).trans hv
  · exact ((hflag [before, first, last]).mp (hv ▸ rfl)).resolve_left hn

end EdgeAdmission.Visibility
