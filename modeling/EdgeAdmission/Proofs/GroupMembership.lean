import EdgeAdmission.Proofs.GroupSpelling

namespace EdgeAdmission.PackageGroup

open Reading

variable {current : Cell} {text : String} {texts : List String} {fault : PackageGroupFault}
  {group : PackageGroup} {entry : Entry} {p : Package}

def Grants (current : Cell) (p : Package) (text : String) : Prop :=
  text ≠ "private" ∧ text.toList.head? ≠ some '-' ∧
    ∃ x, PackagePattern.parse text current = .ok x ∧ x.contains p = true

def Withholds (current : Cell) (p : Package) (text : String) : Prop :=
  ∃ negated x, text = "-" ++ negated ∧ PackagePattern.parse negated current = .ok x ∧
    x.contains p = true

inductive Entry.Refused (current : Cell) : String → PackageGroupFault → Prop
  | everyone : Refused current "-public" (.cannotNegate "public")
  | nobody : Refused current "-private" (.cannotNegate "private")
  | excluded {text : String} {fault : PackagePatternFault} (hu : text ≠ "public")
      (hr : text ≠ "private") (h : PackagePattern.parse text current = .error fault) :
      Refused current ("-" ++ text) (.pattern fault)
  | included {text : String} {fault : PackagePatternFault} (hm : text.toList.head? ≠ some '-')
      (hr : text ≠ "private") (h : PackagePattern.parse text current = .error fault) :
      Refused current text (.pattern fault)

lemma minus_injective {s t : String} (h : "-" ++ s = "-" ++ t) : s = t := by
  simpa [← String.toList_inj] using h

lemma head?_minus (s : String) : ("-" ++ s).toList.head? = some '-' := by simp

lemma Entry.parse_eq_error_iff : parse text current = .error fault ↔ Refused current text fault := by
  constructor
  · intro h
    by_cases hm : text.toList.head? = some '-'
    · obtain ⟨negated, rfl⟩ := exists_minus hm
      rw [parse_minus] at h
      split at h
      · next hn =>
        cases h
        rcases hn with rfl | rfl
        · exact .everyone
        · exact .nobody
      · next hn =>
        simp only [map_eq_error_iff, mapError_eq_error_iff] at h
        obtain ⟨e, hx, rfl⟩ := h
        rw [not_or] at hn
        exact .excluded hn.1 hn.2 hx
    · rw [parse_plain hm] at h
      split at h
      · cases h
      · next hn =>
        simp only [map_eq_error_iff, mapError_eq_error_iff] at h
        obtain ⟨e, hx, rfl⟩ := h
        exact .included hm hn hx
  · rintro (_ | _ | ⟨hu, hr, h⟩ | ⟨hm, hr, h⟩)
    · rfl
    · rfl
    · rw [parse_minus, if_neg (not_or.mpr ⟨hu, hr⟩), h]
      rfl
    · rw [parse_plain hm, if_neg hr, h]
      rfl

lemma grants_iff (h : Entry.Spells current text entry) :
    Grants current p text ↔ ∃ x, entry.included? = some x ∧ x.contains p = true := by
  cases h with
  | nothing => simp [Grants, Entry.included?]
  | included hm h =>
    have hr : text ≠ "private" := by
      rintro rfl
      exact PackagePattern.parse_private h
    simp [Grants, Entry.included?, hm, hr, h]
  | excluded hx h => simp [Grants, Entry.included?]

lemma withholds_iff (h : Entry.Spells current text entry) :
    Withholds current p text ↔ ∃ x, entry.excluded? = some x ∧ x.contains p = true := by
  cases h with
  | nothing =>
    have hn : ∀ negated, "private" ≠ "-" ++ negated := by
      intro negated hp
      have hh := head?_minus negated
      rw [← hp] at hh
      cases hh
    simp [Withholds, Entry.excluded?, hn]
  | included hm h =>
    have hn : ∀ negated, text ≠ "-" ++ negated := by
      rintro negated rfl
      exact hm (head?_minus negated)
    simp [Withholds, Entry.excluded?, hn]
  | @excluded text x hx h =>
    constructor
    · rintro ⟨negated, y, ht, hy, hp⟩
      obtain rfl := minus_injective ht
      obtain rfl : x = y := Except.ok.inj (h.symm.trans hy)
      exact ⟨x, rfl, hp⟩
    · rintro ⟨y, he, hp⟩
      obtain rfl : x = y := Option.some.inj he
      exact ⟨text, x, rfl, h, hp⟩

lemma exists_mem_iff_of_forall₂ {α β : Type} {R : α → β → Prop} {P : α → Prop} {Q : β → Prop}
    {as : List α} {bs : List β} (h : List.Forall₂ R as bs) (hPQ : ∀ a b, R a b → (P a ↔ Q b)) :
    (∃ a ∈ as, P a) ↔ ∃ b ∈ bs, Q b := by
  induction h with
  | nil => simp
  | cons hab _ ih => simp only [List.exists_mem_cons_iff, hPQ _ _ hab, ih]

lemma any_filterMap_iff {entries : List Entry} {f : Entry → Option PackagePattern} :
    (entries.filterMap f).any (·.contains p) = true ↔
      ∃ entry ∈ entries, ∃ x, f entry = some x ∧ x.contains p = true := by
  rw [List.any_eq_true]
  constructor
  · rintro ⟨x, hx, hp⟩
    obtain ⟨entry, he, hf⟩ := List.mem_filterMap.mp hx
    exact ⟨entry, he, x, hf, hp⟩
  · rintro ⟨entry, he, x, hf, hp⟩
    exact ⟨x, List.mem_filterMap.mpr ⟨entry, he, hf⟩, hp⟩

lemma contains_iff (h : parse texts current = .ok group) :
    group.contains p = true ↔
      (∃ text ∈ texts, Grants current p text) ∧ ¬ ∃ text ∈ texts, Withholds current p text := by
  obtain ⟨entries, hs, rfl⟩ := parse_eq_ok_iff.mp h
  rw [contains, Bool.and_eq_true, Bool.not_eq_true', ← Bool.not_eq_true]
  apply and_congr
  · exact any_filterMap_iff.trans (exists_mem_iff_of_forall₂ hs fun _ _ => grants_iff).symm
  · apply not_congr
    exact any_filterMap_iff.trans (exists_mem_iff_of_forall₂ hs fun _ _ => withholds_iff).symm

lemma exists_parse_iff :
    (∃ g, parse texts current = .ok g) ↔
      ∀ text ∈ texts, ∃ entry, Entry.parse text current = .ok entry := by
  constructor
  · rintro ⟨g, hg⟩
    obtain ⟨entries, hs, -⟩ := parse_eq_ok_iff.mp hg
    clear hg
    induction hs with
    | nil => simp
    | cons he _ ih => exact List.forall_mem_cons.mpr ⟨⟨_, Entry.parse_eq_ok_iff.mpr he⟩, ih⟩
  · intro h
    apply exists_parse
    intro text ht
    obtain ⟨entry, he⟩ := h text ht
    exact ⟨entry, Entry.parse_eq_ok_iff.mp he⟩

lemma exists_parse_append_iff {s t : List String} :
    (∃ g, parse (s ++ t) current = .ok g) ↔
      (∃ g, parse s current = .ok g) ∧ ∃ g, parse t current = .ok g := by
  simp only [exists_parse_iff, List.forall_mem_append]

lemma contains_congr {s t : List String} {g h : PackageGroup} (hm : ∀ text, text ∈ s ↔ text ∈ t)
    (hg : parse s current = .ok g) (hh : parse t current = .ok h) (p : Package) :
    g.contains p = h.contains p := by
  rw [Bool.eq_iff_iff, contains_iff hg, contains_iff hh]
  simp only [hm]

section Insertion

variable {front rest : List String} {g h : PackageGroup}

lemma exists_mem_insert_iff {P : String → Prop} :
    (∃ t ∈ front ++ text :: rest, P t) ↔ P text ∨ ∃ t ∈ front ++ rest, P t := by
  simp only [List.mem_append, List.mem_cons, or_and_right, exists_or, exists_eq_left]
  exact or_left_comm

lemma contains_of_insert_minus (hg : parse (front ++ rest) current = .ok g)
    (hh : parse (front ++ text :: rest) current = .ok h) (hm : text.toList.head? = some '-')
    (hc : h.contains p = true) : g.contains p = true := by
  have hn : ¬ Grants current p text := fun ht => ht.2.1 hm
  rw [contains_iff hh, exists_mem_insert_iff, exists_mem_insert_iff, or_iff_right hn] at hc
  exact (contains_iff hg).mpr ⟨hc.1, fun hw => hc.2 (.inr hw)⟩

lemma contains_insert_of_plain (hg : parse (front ++ rest) current = .ok g)
    (hh : parse (front ++ text :: rest) current = .ok h) (hm : text.toList.head? ≠ some '-')
    (hc : g.contains p = true) : h.contains p = true := by
  have hn : ¬ Withholds current p text := by
    rintro ⟨negated, x, rfl, -⟩
    exact hm (head?_minus negated)
  rw [contains_iff hg] at hc
  rw [contains_iff hh, exists_mem_insert_iff, exists_mem_insert_iff, or_iff_right hn]
  exact ⟨.inr hc.1, hc.2⟩

end Insertion

lemma parse_cons_of_ok (h : Entry.parse text current = .ok entry) :
    parse (text :: texts) current = (parse texts current).map (·.insert entry) := by
  rw [parse, h]
  cases parse texts current <;> rfl

lemma parse_cons_of_error (h : Entry.parse text current = .error fault) :
    parse (text :: texts) current = .error fault := by
  rw [parse, h]
  rfl

lemma parse_eq_error_iff :
    parse texts current = .error fault ↔
      ∃ front text rest, texts = front ++ text :: rest ∧ (∃ g, parse front current = .ok g) ∧
        Entry.Refused current text fault := by
  constructor
  · intro h
    induction texts with
    | nil => cases h
    | cons text texts ih =>
      cases he : Entry.parse text current with
      | error e =>
        rw [parse_cons_of_error he] at h
        cases h
        exact ⟨[], text, texts, rfl, ⟨empty, rfl⟩, Entry.parse_eq_error_iff.mp he⟩
      | ok entry =>
        rw [parse_cons_of_ok he, map_eq_error_iff] at h
        obtain ⟨front, bad, rest, rfl, hf, hr⟩ := ih h
        rw [exists_parse_iff] at hf
        refine ⟨text :: front, bad, rest, rfl, ?_, hr⟩
        exact exists_parse_iff.mpr (List.forall_mem_cons.mpr ⟨⟨entry, he⟩, hf⟩)
  · rintro ⟨front, bad, rest, rfl, hf, hr⟩
    rw [exists_parse_iff] at hf
    induction front with
    | nil => exact parse_cons_of_error (Entry.parse_eq_error_iff.mpr hr)
    | cons text front ih =>
      obtain ⟨⟨entry, he⟩, hf⟩ := List.forall_mem_cons.mp hf
      rw [List.cons_append, parse_cons_of_ok he, ih hf]
      rfl

/-- A list contains what some of its texts grants and none withholds, so neither order nor repetition
matters, and more texts withhold or grant more. It is refused for the leftmost text that is. -/
theorem groups_are_differences (current : Cell) :
    (∀ texts group, parse texts current = .ok group → ∀ p,
      (group.contains p = true ↔
        (∃ text ∈ texts, Grants current p text) ∧ ¬ ∃ text ∈ texts, Withholds current p text)) ∧
    (∀ s t, (∃ g, parse (s ++ t) current = .ok g) ↔
      (∃ g, parse s current = .ok g) ∧ ∃ g, parse t current = .ok g) ∧
    (∀ s t : List String, (∀ text, text ∈ s ↔ text ∈ t) →
      ((∃ g, parse s current = .ok g) ↔ ∃ g, parse t current = .ok g) ∧
      ∀ g h, parse s current = .ok g → parse t current = .ok h → ∀ p, g.contains p = h.contains p) ∧
    (∀ front text rest g h, parse (front ++ rest) current = .ok g →
      parse (front ++ text :: rest) current = .ok h → ∀ p,
        (text.toList.head? = some '-' → h.contains p = true → g.contains p = true) ∧
        (text.toList.head? ≠ some '-' → g.contains p = true → h.contains p = true)) ∧
    (∀ texts fault, parse texts current = .error fault ↔
      ∃ front text rest, texts = front ++ text :: rest ∧ (∃ g, parse front current = .ok g) ∧
        Entry.Refused current text fault) ∧
    ∀ texts g, parse texts current = .ok g → "-public" ∉ texts ∧ "-private" ∉ texts := by
  refine ⟨fun texts group h p => contains_iff h, fun s t => exists_parse_append_iff, ?_, ?_,
    fun texts fault => parse_eq_error_iff, ?_⟩
  · intro s t hm
    refine ⟨?_, fun g h hg hh => contains_congr hm hg hh⟩
    simp only [exists_parse_iff, hm]
  · intro front text rest g h hg hh p
    exact ⟨contains_of_insert_minus hg hh, contains_insert_of_plain hg hh⟩
  · intro texts g hg
    have hn : ∀ text fault, Entry.Refused current text fault → text ∉ texts := by
      intro text fault hr ht
      obtain ⟨entry, he⟩ := exists_parse_iff.mp ⟨g, hg⟩ text ht
      rw [Entry.parse_eq_error_iff.mpr hr] at he
      cases he
    exact ⟨hn _ _ .everyone, hn _ _ .nobody⟩

theorem groups_are_differences_in_any_order :
    let shop : Package := ⟨default, ⟨"shop", by decide +kernel⟩⟩
    let till : Package := ⟨default, ⟨"shop/till", by decide +kernel⟩⟩
    let texts := ["//shop/...", "private", "-//shop/till/..."]
    let other := ["-//shop/till/...", "//shop/...", "private", "//shop/..."]
    let g : PackageGroup := ⟨[.beneath shop], [.beneath till]⟩
    let h : PackageGroup := ⟨[.beneath shop, .beneath shop], [.beneath till]⟩
    let k : PackageGroup := ⟨[.beneath shop], []⟩
    parse texts default = .ok g ∧ parse other default = .ok h ∧
      parse ["//shop/...", "private"] default = .ok k ∧
      (∀ text, text ∈ texts ↔ text ∈ other) ∧ (∀ p, g.contains p = h.contains p) ∧
      ((∃ text ∈ texts, Grants default shop text) ∧ ¬ ∃ text ∈ texts, Withholds default shop text) ∧
      ("-//shop/till/...".toList.head? = some '-' ∧ k.contains shop = true) ∧
      h.contains till = false ∧ "-public" ∉ texts := by
  intro shop till texts other g h k
  have hg : parse texts default = .ok g := rfl
  have hh : parse other default = .ok h := rfl
  have hk : parse ["//shop/...", "private"] default = .ok k := rfl
  have hm : ∀ text, text ∈ texts ↔ text ∈ other := by simp [texts, other, or_comm, or_left_comm]
  have hshop : g.contains shop = true := by decide +kernel
  obtain ⟨hcontains, -, hcongr, hmore, -, hoffends⟩ := groups_are_differences default
  have hminus := (hmore ["//shop/...", "private"] "-//shop/till/..." [] k g hk hg shop).1
  refine ⟨hg, hh, hk, hm, (hcongr texts other hm).2 g h hg hh, (hcontains texts g hg shop).mp hshop,
    ⟨by decide, hminus (by decide) hshop⟩, by decide +kernel, (hoffends texts g hg).1⟩

end EdgeAdmission.PackageGroup
