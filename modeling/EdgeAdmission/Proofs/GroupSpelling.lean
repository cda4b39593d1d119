import EdgeAdmission.Proofs.PatternGrammar
import EdgeAdmission.Visibility

/-! How package groups are written, and when the spellings of a group are read back as the group:
always but for included patterns of a cell whose name starts with the mark of exclusion. -/

namespace EdgeAdmission

open Reading

namespace PackagePattern

def LooksExcluded : PackagePattern → Prop
  | .exactly p => p.cell.name.toList.head? = some '-'
  | .beneath p => p.cell.name.toList.head? = some '-'
  | .everything => False

lemma head?_display {x : PackagePattern} :
    x.display.toList.head? = some '-' ↔ x.LooksExcluded := by
  have hk : ∀ (k : Cell) (s : List Char), (k.name.toList ++ s).head? = k.name.toList.head? :=
    fun k s => List.head?_append_of_ne_nil _ k.name_ne_nil
  cases x with
  | exactly p => simp [display, Package.display, LooksExcluded, hk]
  | beneath p =>
    simp only [display, LooksExcluded]
    split <;> simp [Package.display, hk]
  | everything => simp [display, LooksExcluded]

lemma parse_private {current : Cell} {x : PackagePattern} : parse "private" current ≠ .ok x := by
  have hp : parse "private" current = .error (.unexpectedFormat "private") := rfl
  rw [hp]
  exact fun h => nomatch h

lemma parse_eq_everything_iff {text : String} {current : Cell} :
    parse text current = .ok everything ↔ text = "public" := by
  constructor
  · intro h
    rcases parse_eq_ok_iff.mp h with ⟨ht, _⟩ | ⟨_, k, path, _, hx⟩
    · exact ht
    · exact absurd rfl hx.ne_everything
  · rintro rfl
    rfl

lemma exists_parse_behind_minus {x : PackagePattern} (h : x.Legible) (hm : x.LooksExcluded)
    (current : Cell) :
    ∃ text y, x.display = "-" ++ text ∧ y ≠ everything ∧ parse text current = .ok y := by
  have hx : x ≠ everything := by
    rintro rfl
    exact hm
  obtain ⟨k, path, hd, hc, hs⟩ := exists_spells_display h hx
  obtain ⟨name, hk⟩ : ∃ name, k.name = "-" ++ name := by
    have hh : k.name.toList.head? = some '-' := by
      rw [← head?_display, hd, String.toList_append, String.toList_append, List.append_assoc] at hm
      rwa [List.head?_append_of_ne_nil _ k.name_ne_nil] at hm
    obtain ⟨rest, hr⟩ := List.head?_eq_some_iff.mp hh
    exact ⟨.ofList rest, by simp [← String.toList_inj, hr]⟩
  -- What is left of the name is the name of a cell, or no name at all.
  obtain ⟨l, hl⟩ : ∃ l : Cell, Package.Spells current.name l.name path (name ++ "//" ++ path) := by
    by_cases hn : name = ""
    · subst hn
      exact ⟨current, .own rfl⟩
    · obtain ⟨-, hs, hc, ha⟩ := k.isName
      simp only [hk, String.toList_append, List.mem_append, not_or] at hs hc ha
      obtain ⟨l, rfl⟩ := Cell.exists_name_iff.mpr ⟨hn, hs.2, hc.2, ha.2⟩
      exact ⟨l, .full⟩
  obtain ⟨y, hy⟩ := hs.move l
  exact ⟨_, y, by rw [hd, hk, String.append_assoc, String.append_assoc, String.append_assoc],
    hy.ne_everything, hy.parse_eq_ok hc hl⟩

end PackagePattern

namespace PackageGroup

inductive Entry.Spells (current : Cell) : String → Entry → Prop
  | nothing : Spells current "private" .nothing
  | included {text x} (hm : text.toList.head? ≠ some '-')
      (h : PackagePattern.parse text current = .ok x) : Spells current text (.included x)
  | excluded {text x} (hx : x ≠ .everything) (h : PackagePattern.parse text current = .ok x) :
      Spells current ("-" ++ text) (.excluded x)

def Entry.included? : Entry → Option PackagePattern
  | .included x => some x
  | _ => none

def Entry.excluded? : Entry → Option PackagePattern
  | .excluded x => some x
  | _ => none

def ofEntries (entries : List Entry) : PackageGroup :=
  ⟨entries.filterMap Entry.included?, entries.filterMap Entry.excluded?⟩

lemma insert_ofEntries (entry : Entry) (entries : List Entry) :
    (ofEntries entries).insert entry = ofEntries (entry :: entries) := by
  cases entry <;> rfl

lemma exists_minus {text : String} (h : text.toList.head? = some '-') :
    ∃ negated, text = "-" ++ negated := by
  obtain ⟨rest, hr⟩ := List.head?_eq_some_iff.mp h
  exact ⟨.ofList rest, by simp [← String.toList_inj, hr]⟩

lemma Entry.parse_minus (text : String) (current : Cell) :
    parse ("-" ++ text) current =
      if text = "public" ∨ text = "private" then .error (.cannotNegate text)
      else ((PackagePattern.parse text current).mapError .pattern).map .excluded := by
  have ht : ("-" ++ text).toList = '-' :: text.toList := by simp
  simp only [parse, ht, String.ofList_toList]

lemma Entry.parse_plain {text : String} (h : text.toList.head? ≠ some '-') (current : Cell) :
    parse text current =
      if text = "private" then .ok .nothing
      else ((PackagePattern.parse text current).mapError .pattern).map .included := by
  unfold parse
  split
  · next ht => exact absurd (by rw [ht]; rfl) h
  · rfl

lemma Entry.parse_eq_ok_iff {text : String} {current : Cell} {entry : Entry} :
    parse text current = .ok entry ↔ Spells current text entry := by
  constructor
  · intro h
    by_cases hm : text.toList.head? = some '-'
    · obtain ⟨negated, rfl⟩ := exists_minus hm
      rw [parse_minus] at h
      split at h
      · cases h
      · next hn =>
        simp only [map_eq_ok_iff, mapError_eq_ok_iff] at h
        obtain ⟨x, hx, rfl⟩ := h
        refine .excluded ?_ hx
        rintro rfl
        exact hn (.inl (PackagePattern.parse_eq_everything_iff.mp hx))
    · rw [parse_plain hm] at h
      split at h
      · next ht =>
        cases h
        exact ht ▸ .nothing
      · simp only [map_eq_ok_iff, mapError_eq_ok_iff] at h
        obtain ⟨x, hx, rfl⟩ := h
        exact .included hm hx
  · rintro (_ | ⟨hm, hx⟩ | ⟨hn, hx⟩)
    · rfl
    · rw [parse_plain hm, if_neg fun ht => PackagePattern.parse_private (ht ▸ hx), hx]
      rfl
    · rw [parse_minus, if_neg, hx]
      · rfl
      · rintro (rfl | rfl)
        · rw [PackagePattern.parse_eq_everything_iff.mpr rfl] at hx
          exact hn (Except.ok.inj hx).symm
        · exact PackagePattern.parse_private hx

lemma parse_eq_ok_iff {texts : List String} {current : Cell} {group : PackageGroup} :
    parse texts current = .ok group ↔
      ∃ entries, List.Forall₂ (Entry.Spells current) texts entries ∧ group = ofEntries entries := by
  induction texts generalizing group with
  | nil => simp [parse, ofEntries, empty, eq_comm]
  | cons text texts ih =>
    simp only [parse, bind_eq_ok_iff, pure_eq_ok_iff, Entry.parse_eq_ok_iff, ih,
      List.forall₂_cons_left_iff]
    constructor
    · rintro ⟨entry, he, _, ⟨entries, hs, rfl⟩, rfl⟩
      exact ⟨entry :: entries, ⟨entry, entries, he, hs, rfl⟩, insert_ofEntries entry entries⟩
    · rintro ⟨_, ⟨entry, entries, he, hs, rfl⟩, rfl⟩
      exact ⟨entry, he, _, ⟨entries, hs, rfl⟩, insert_ofEntries entry entries⟩

structure Legible (group : PackageGroup) : Prop where
  included : ∀ x ∈ group.included, x.Legible
  excluded : ∀ x ∈ group.excluded, x.Legible ∧ x ≠ .everything

lemma Legible.insert {group : PackageGroup} {text : String} {current : Cell} {entry : Entry}
    (hg : group.Legible) (he : Entry.Spells current text entry) : (group.insert entry).Legible := by
  cases he with
  | nothing => exact hg
  | included _ h =>
    refine ⟨fun x hx => ?_, hg.excluded⟩
    rcases List.mem_cons.mp hx with rfl | hx
    · exact PackagePattern.legible_of_parse h
    · exact hg.included x hx
  | excluded hn h =>
    refine ⟨hg.included, fun x hx => ?_⟩
    rcases List.mem_cons.mp hx with rfl | hx
    · exact ⟨PackagePattern.legible_of_parse h, hn⟩
    · exact hg.excluded x hx

lemma legible_of_parse {texts : List String} {current : Cell} {group : PackageGroup}
    (h : parse texts current = .ok group) : group.Legible := by
  obtain ⟨entries, hs, rfl⟩ := parse_eq_ok_iff.mp h
  induction hs with
  | nil => exact ⟨by simp [ofEntries], by simp [ofEntries]⟩
  | cons he hs ih =>
    rw [← insert_ofEntries]
    exact (ih (parse_eq_ok_iff.mpr ⟨_, hs, rfl⟩)).insert he

variable {group : PackageGroup}

lemma spells_excluded {x : PackagePattern} (h : x.Legible ∧ x ≠ .everything) (current : Cell) :
    Entry.Spells current ("-" ++ x.display) (.excluded x) :=
  .excluded h.2 (PackagePattern.parse_display h.1 current)

lemma exists_spells_spelling (h : group.Legible) (current : Cell) :
    ∀ text ∈ group.spellings, ∃ entry, Entry.Spells current text entry := by
  intro text ht
  rcases List.mem_append.mp ht with ht | ht
  · obtain ⟨x, hx, rfl⟩ := List.mem_map.mp ht
    by_cases hm : x.LooksExcluded
    · obtain ⟨rest, y, hd, hn, hy⟩ :=
        PackagePattern.exists_parse_behind_minus (h.included x hx) hm current
      exact ⟨.excluded y, hd ▸ .excluded hn hy⟩
    · rw [← PackagePattern.head?_display] at hm
      exact ⟨_, .included hm (PackagePattern.parse_display (h.included x hx) current)⟩
  · obtain ⟨x, hx, rfl⟩ := List.mem_map.mp ht
    exact ⟨_, spells_excluded (h.excluded x hx) current⟩

lemma exists_parse {texts : List String} {current : Cell}
    (h : ∀ text ∈ texts, ∃ entry, Entry.Spells current text entry) :
    ∃ g, parse texts current = .ok g := by
  induction texts with
  | nil => exact ⟨empty, rfl⟩
  | cons text texts ih =>
    obtain ⟨entry, he⟩ := h text List.mem_cons_self
    obtain ⟨g, hg⟩ := ih fun t ht => h t (List.mem_cons_of_mem _ ht)
    obtain ⟨entries, hs, _⟩ := parse_eq_ok_iff.mp hg
    exact ⟨_, parse_eq_ok_iff.mpr ⟨_, .cons he hs, rfl⟩⟩

lemma parse_spellings (h : group.Legible) (hm : ∀ x ∈ group.included, ¬ x.LooksExcluded)
    (current : Cell) : parse group.spellings current = .ok group := by
  refine parse_eq_ok_iff.mpr
    ⟨group.included.map .included ++ group.excluded.map .excluded, ?_, ?_⟩
  · apply List.rel_append
    · rw [List.forall₂_map_left_iff, List.forall₂_map_right_iff, List.forall₂_same]
      intro x hx
      exact .included (PackagePattern.head?_display.not.mpr (hm x hx))
        (PackagePattern.parse_display (h.included x hx) current)
    · rw [List.forall₂_map_left_iff, List.forall₂_map_right_iff, List.forall₂_same]
      exact fun x hx => spells_excluded (h.excluded x hx) current
  · simp [ofEntries, List.filterMap_map, Function.comp_def, Entry.included?, Entry.excluded?]

lemma length_included_le {texts : List String} {current : Cell}
    (h : parse texts current = .ok group) :
    group.included.length ≤ texts.countP fun text => text.toList.head? ≠ some '-' := by
  obtain ⟨entries, hs, rfl⟩ := parse_eq_ok_iff.mp h
  clear h
  induction hs with
  | nil => exact le_rfl
  | cons he hs ih =>
    rw [← insert_ofEntries, List.countP_cons]
    cases he with
    | nothing => exact Nat.le_add_right_of_le ih
    | included hm _ => simpa [hm, insert] using ih
    | excluded _ _ => exact Nat.le_add_right_of_le ih

lemma not_looksExcluded_of_parse {current : Cell}
    (h : parse group.spellings current = .ok group) :
    ∀ x ∈ group.included, ¬ x.LooksExcluded := by
  have hl := length_included_le h
  have he : (group.excluded.map ("-" ++ ·.display)).countP
      (fun text => text.toList.head? ≠ some '-') = 0 := by
    simp [List.countP_eq_zero]
  rw [spellings, List.countP_append, he, Nat.add_zero, List.countP_map] at hl
  -- There are no more texts without the mark than spellings of included patterns.
  have ha := List.countP_eq_length.mp (le_antisymm List.countP_le_length hl)
  intro x hx
  simpa [PackagePattern.head?_display] using ha x hx

end PackageGroup

namespace Visibility

lemma ofTexts_spellings_iff {v : Visibility} {current : Cell} :
    ofTexts v.spellings v.inSymbolicMacro current = .ok v ↔
      ∀ group ∈ v.groups, PackageGroup.parse group.spellings current = .ok group := by
  have hm : (v.groups.map (·.spellings)).mapM (PackageGroup.parse · current) = .ok v.groups ↔
      ∀ group ∈ v.groups, PackageGroup.parse group.spellings current = .ok group := by
    rw [mapM_eq_ok_iff, List.forall₂_map_left_iff, List.forall₂_same]
  rw [← hm, ofTexts, spellings, map_eq_ok_iff]
  constructor
  · rintro ⟨groups, hg, hv⟩
    obtain rfl : groups = v.groups := congrArg Visibility.groups hv
    exact hg
  · intro h
    exact ⟨v.groups, h, rfl⟩

theorem spellings_read_back_iff (v : Visibility) (other : Cell)
    (hv : ∀ group ∈ v.groups, ∃ texts current, PackageGroup.parse texts current = .ok group) :
    (∀ group ∈ v.groups, ∃ g, PackageGroup.parse group.spellings other = .ok g) ∧
    (∀ group ∈ v.groups, PackageGroup.parse group.spellings other = .ok group ↔
      ∀ x ∈ group.included, ¬ x.LooksExcluded) ∧
    (ofTexts v.spellings v.inSymbolicMacro other = .ok v ↔
      ∀ group ∈ v.groups, ∀ x ∈ group.included, ¬ x.LooksExcluded) := by
  have hl : ∀ group ∈ v.groups, group.Legible := by
    intro group hg
    obtain ⟨texts, current, h⟩ := hv group hg
    exact PackageGroup.legible_of_parse h
  have hs : ∀ group ∈ v.groups, PackageGroup.parse group.spellings other = .ok group ↔
      ∀ x ∈ group.included, ¬ x.LooksExcluded := by
    intro group hg
    constructor
    · exact PackageGroup.not_looksExcluded_of_parse
    · exact fun hm => PackageGroup.parse_spellings (hl group hg) hm other
  refine ⟨fun group hg => ?_, hs, ?_⟩
  · exact PackageGroup.exists_parse (PackageGroup.exists_spells_spelling (hl group hg) other)
  · rw [ofTexts_spellings_iff]
    exact forall₂_congr hs

theorem spellings_read_back_of_other_cell :
    let a : Package := ⟨⟨"lib", by decide, by decide⟩, ⟨"a-b", by decide +kernel⟩⟩
    let group : PackageGroup := ⟨[.beneath a, .everything], [.exactly a]⟩
    let v : Visibility := ⟨[group, .empty], true⟩
    PackageGroup.parse ["@lib//a-b/...", "private", "-lib//a-b", "public"] default = .ok group ∧
      ofTexts v.spellings v.inSymbolicMacro ⟨"-", by decide, by decide⟩ = .ok v := by
  intro a group v
  have hg : PackageGroup.parse ["@lib//a-b/...", "private", "-lib//a-b", "public"] default =
      .ok group := by rfl
  have hv : ∀ g ∈ v.groups, ∃ texts current, PackageGroup.parse texts current = .ok g := by
    intro g h
    rcases List.mem_cons.mp h with rfl | h
    · exact ⟨_, _, hg⟩
    · exact ⟨[], default, List.mem_singleton.mp h ▸ rfl⟩
  refine ⟨hg, (spellings_read_back_iff v _ hv).2.2.mpr ?_⟩
  simp [v, group, PackageGroup.empty, PackagePattern.LooksExcluded, a]

theorem included_read_back_as_excluded :
    let p : Package := ⟨⟨"-a", by decide, by decide⟩, ⟨"x", by decide +kernel⟩⟩
    let q : Package := ⟨⟨"a", by decide, by decide⟩, ⟨"x", by decide +kernel⟩⟩
    let group : PackageGroup := ⟨[.exactly p], []⟩
    let other : PackageGroup := ⟨[], [.exactly q]⟩
    PackageGroup.parse ["@-a//x"] default = .ok group ∧ group.spellings = ["-a//x"] ∧
      PackageGroup.parse ["-a//x"] default = .ok other ∧ other ≠ group ∧
      group.contains p = true ∧ other.contains p = false := by
  intro p q group other
  exact ⟨rfl, by decide +kernel, rfl, by decide, by decide, by decide⟩

end Visibility

end EdgeAdmission
