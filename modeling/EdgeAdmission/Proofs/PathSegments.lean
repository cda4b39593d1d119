import EdgeAdmission.PackagePath
import Mathlib.Tactic

/-! Paths as lists of segments. A path is the text of its segments, and every list of proper
segments is that of a path. -/

namespace EdgeAdmission.PackagePath

structure IsSegment (s : List Char) : Prop where
  nonempty : s ≠ []
  not_here : s ≠ ['.']
  not_up : s ≠ ['.', '.']
  no_slash : '/' ∉ s
  no_backslash : '\\' ∉ s

variable {s : List Char} {segs : List (List Char)} {c : Char}

lemma not_mem_of_mem_splitOn {text : List Char} (h : s ∈ text.splitOn c) : c ∉ s := by
  induction text generalizing s with
  | nil => simp_all [List.splitOn_nil]
  | cons x text ih =>
    rw [List.splitOn_cons_eq_if_modifyHead] at h
    split at h
    · rcases List.mem_cons.mp h with rfl | h
      · exact List.not_mem_nil
      · exact ih h
    · next hx =>
      cases ht : text.splitOn c with
      | nil => simp [ht] at h
      | cons first rest =>
        rw [ht, List.modifyHead_cons] at h
        rcases List.mem_cons.mp h with rfl | h
        · have hf : c ∉ first := ih (by simp [ht])
          rw [List.mem_cons, not_or]
          exact ⟨fun hc => hx (beq_iff_eq.mpr hc.symm), hf⟩
        · exact ih (by simp [ht, h])

lemma mem_intercalate (hs : s ∈ segs) (hc : c ∈ s) : c ∈ ['/'].intercalate segs := by
  induction segs with
  | nil => simp at hs
  | cons first rest ih =>
    cases rest with
    | nil => simp_all
    | cons second rest =>
      rw [List.intercalate_cons_cons]
      rcases List.mem_cons.mp hs with rfl | hs
      · simp [hc]
      · simp [ih hs]

lemma not_mem_intercalate {d : Char} (h : ∀ s ∈ segs, c ∉ s) (hc : c ≠ d) :
    c ∉ [d].intercalate segs := by
  induction segs with
  | nil => simp
  | cons first rest ih =>
    cases rest with
    | nil => simp_all
    | cons second rest =>
      rw [List.intercalate_cons_cons]
      simp_all

lemma intercalate_append {segs' : List (List Char)} (h : segs ≠ []) (h' : segs' ≠ []) :
    ['/'].intercalate (segs ++ segs') = ['/'].intercalate segs ++ '/' :: ['/'].intercalate segs' := by
  induction segs with
  | nil => exact absurd rfl h
  | cons first rest ih =>
    cases rest with
    | nil =>
      obtain ⟨second, rest', rfl⟩ := List.exists_cons_of_ne_nil h'
      simp [List.intercalate_cons_cons]
    | cons second rest =>
      rw [List.cons_append, List.cons_append, List.intercalate_cons_cons,
        List.intercalate_cons_cons, ← List.cons_append, ih (List.cons_ne_nil _ _)]
      simp

lemma intercalate_concat (h : segs ≠ []) (s : List Char) :
    ['/'].intercalate (segs ++ [s]) = ['/'].intercalate segs ++ '/' :: s := by
  simpa using intercalate_append h (List.cons_ne_nil s [])

lemma segmentsOf_eq_splitOn (h : s ≠ []) : segmentsOf s = s.splitOn '/' := if_neg h

lemma segmentDefect?_eq_none_iff :
    segmentDefect? s = none ↔ s ≠ [] ∧ s ≠ ['.'] ∧ s ≠ ['.', '.'] := by
  grind [segmentDefect?]

lemma intercalate_segmentsOf (s : List Char) : ['/'].intercalate (segmentsOf s) = s := by
  by_cases h : s = []
  · simp [h, segmentsOf]
  · rw [segmentsOf_eq_splitOn h, List.intercalate_splitOn]

lemma intercalate_ne_nil (hn : segs ≠ []) (h : ∀ s ∈ segs, s ≠ []) :
    ['/'].intercalate segs ≠ [] := by
  obtain ⟨first, rest, rfl⟩ := List.exists_cons_of_ne_nil hn
  obtain ⟨c, first, rfl⟩ := List.exists_cons_of_ne_nil (h first List.mem_cons_self)
  exact List.ne_nil_of_mem (mem_intercalate List.mem_cons_self List.mem_cons_self)

lemma segmentsOf_intercalate (h : ∀ s ∈ segs, IsSegment s) :
    segmentsOf (['/'].intercalate segs) = segs := by
  -- The empty list of segments is set apart, since the text of it splits into one empty segment.
  by_cases hn : segs = []
  · simp [hn, segmentsOf]
  · rw [segmentsOf_eq_splitOn (intercalate_ne_nil hn fun s hs => (h s hs).nonempty)]
    exact List.splitOn_intercalate '/' (fun s hs => (h s hs).no_slash) hn

lemma isSegment_of_mem_segments {p : PackagePath} (h : s ∈ p.segments) : IsSegment s := by
  obtain ⟨hb, hd⟩ := defect?_eq_none_iff.mp p.normal
  obtain ⟨hn, hh, hu⟩ := segmentDefect?_eq_none_iff.mp (hd s h)
  have ht : s ∈ segmentsOf p.text.toList := h
  refine ⟨hn, hh, hu, ?_, ?_⟩
  · unfold segmentsOf at ht
    split at ht
    · simp at ht
    · exact not_mem_of_mem_splitOn ht
  · intro hs
    exact hb (intercalate_segmentsOf p.text.toList ▸ mem_intercalate ht hs)

lemma text_eq_intercalate (p : PackagePath) :
    p.text.toList = ['/'].intercalate p.segments :=
  (intercalate_segmentsOf _).symm

lemma segments_injective : Function.Injective segments := by
  intro p q h
  apply PackagePath.ext
  rw [← String.toList_inj, text_eq_intercalate, text_eq_intercalate, h]

def ofSegments (segs : List (List Char)) (h : ∀ s ∈ segs, IsSegment s) : PackagePath where
  text := .ofList (['/'].intercalate segs)
  normal := by
    rw [String.toList_ofList, defect?_eq_none_iff, segmentsOf_intercalate h]
    refine ⟨not_mem_intercalate (fun s hs => (h s hs).no_backslash) (by decide), fun s hs => ?_⟩
    exact segmentDefect?_eq_none_iff.mpr ⟨(h s hs).nonempty, (h s hs).not_here, (h s hs).not_up⟩

@[simp] lemma segments_ofSegments (h : ∀ s ∈ segs, IsSegment s) :
    (ofSegments segs h).segments = segs := by
  rw [segments, ofSegments, String.toList_ofList, segmentsOf_intercalate h]

lemma exists_segments_iff :
    (∃ p : PackagePath, p.segments = segs) ↔ ∀ s ∈ segs, IsSegment s := by
  constructor
  · rintro ⟨p, rfl⟩ s hs
    exact isSegment_of_mem_segments hs
  · intro h
    exact ⟨ofSegments segs h, segments_ofSegments h⟩

@[simp] lemma segments_root : root.segments = [] := rfl

lemma segments_eq_nil_iff {p : PackagePath} : p.segments = [] ↔ p = root := by
  rw [← segments_root, segments_injective.eq_iff]

instance : Append PackagePath where
  append p q := ofSegments (p.segments ++ q.segments) fun _ hs =>
    (List.mem_append.mp hs).elim isSegment_of_mem_segments isSegment_of_mem_segments

variable {p q r : PackagePath}

@[simp] lemma segments_append (p q : PackagePath) :
    (p ++ q).segments = p.segments ++ q.segments :=
  segments_ofSegments _

@[simp] lemma append_root (p : PackagePath) : p ++ root = p := by
  apply segments_injective
  simp

@[simp] lemma root_append (p : PackagePath) : root ++ p = p := by
  apply segments_injective
  simp

lemma append_assoc (p q r : PackagePath) : p ++ q ++ r = p ++ (q ++ r) := by
  apply segments_injective
  simp

lemma eq_append_iff : p = q ++ r ↔ p.segments = q.segments ++ r.segments := by
  rw [← segments_append, segments_injective.eq_iff]

lemma exists_eq_append {segs' : List (List Char)} (h : p.segments = segs ++ segs') :
    ∃ q : PackagePath, q.segments = segs' := by
  apply exists_segments_iff.mpr
  intro s hs
  apply isSegment_of_mem_segments (p := p)
  rw [h]
  exact List.mem_append_right segs hs

lemma append_eq_append {p' q' : PackagePath} (h : p ++ q = p' ++ q') :
    (∃ t, p' = p ++ t ∧ q = t ++ q') ∨ ∃ t, p = p' ++ t ∧ q' = t ++ q := by
  simp only [eq_append_iff, segments_append] at h ⊢
  rcases List.append_eq_append_iff.mp h with ⟨segs, hp, hq⟩ | ⟨segs, hp, hq⟩
  · obtain ⟨t, rfl⟩ := exists_eq_append hp
    exact .inl ⟨t, hp, hq⟩
  · obtain ⟨t, rfl⟩ := exists_eq_append hp
    exact .inr ⟨t, hp, hq⟩

lemma toList_text_append (hp : p ≠ root) (hq : q ≠ root) :
    (p ++ q).text.toList = p.text.toList ++ '/' :: q.text.toList := by
  rw [text_eq_intercalate, segments_append, text_eq_intercalate p, text_eq_intercalate q]
  apply intercalate_append
  · exact segments_eq_nil_iff.not.mpr hp
  · exact segments_eq_nil_iff.not.mpr hq

lemma toList_text_eq_nil_iff : p.text.toList = [] ↔ p = root := by
  rw [← segments_eq_nil_iff, text_eq_intercalate]
  constructor
  · intro h
    by_contra hn
    exact intercalate_ne_nil hn (fun s hs => (isSegment_of_mem_segments hs).nonempty) h
  · intro h
    rw [h]
    rfl

lemma restOf?_append (q r : PackagePath) :
    restOf? (q ++ r).text.toList q.text.toList = some r.text.toList := by
  have hn : root.text.toList = [] := rfl
  by_cases hq : q = root
  · rw [hq, root_append, hn, restOf?, if_pos rfl]
  · have hqn : q.text.toList ≠ [] := toList_text_eq_nil_iff.not.mpr hq
    by_cases hr : r = root
    · rw [hr, append_root, hn]
      simp [restOf?, hqn]
    · rw [toList_text_append hq hr]
      simp [restOf?, hqn]

lemma not_nil_mem_splitOn (p : PackagePath) (hp : p ≠ root) : [] ∉ p.text.toList.splitOn '/' := by
  rw [← segmentsOf_eq_splitOn (toList_text_eq_nil_iff.not.mpr hp)]
  intro h
  exact (isSegment_of_mem_segments h).nonempty rfl

lemma eq_append_of_restOf? (h : restOf? p.text.toList q.text.toList = some r.text.toList) :
    p = q ++ r := by
  rcases eq_of_restOf? h with ⟨ht, hq | hr⟩ | ht
  · obtain rfl := toList_text_eq_nil_iff.mp hq
    rw [hq, List.nil_append, String.toList_inj] at ht
    rw [root_append, PackagePath.ext ht]
  · obtain rfl := toList_text_eq_nil_iff.mp hr
    rw [hr, List.append_nil, String.toList_inj] at ht
    rw [append_root, PackagePath.ext ht]
  · -- A slash at either end of the text would bound an empty segment.
    have hp : p ≠ root := by
      rintro rfl
      simp [root] at ht
    have hn := not_nil_mem_splitOn p hp
    rw [ht, List.splitOn_append_cons_self, List.mem_append, not_or] at hn
    have hq : q ≠ root := by
      rintro rfl
      exact hn.1 (by decide)
    have hr : r ≠ root := by
      rintro rfl
      exact hn.2 (by decide)
    apply PackagePath.ext
    rw [← String.toList_inj, ht, toList_text_append hq hr]

lemma rest?_eq_some_iff : p.rest? q = some r ↔ p = q ++ r := by
  have hm := rest?_map_text p q
  constructor
  · intro h
    rw [h, Option.map_some, eq_comm] at hm
    obtain ⟨rest, hr, ht⟩ := Option.map_eq_some_iff.mp hm
    apply eq_append_of_restOf?
    rw [hr, ← ht, String.toList_ofList]
  · rintro rfl
    rw [restOf?_append, Option.map_some, String.ofList_toList] at hm
    obtain ⟨r', hr, ht⟩ := Option.map_eq_some_iff.mp hm
    rw [hr, PackagePath.ext ht]

end EdgeAdmission.PackagePath
