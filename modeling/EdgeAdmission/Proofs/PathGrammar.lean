import EdgeAdmission.Proofs.PathSegments

namespace EdgeAdmission.PackagePath

structure Joins (segs : List (List Char)) (text : String) : Prop where
  isSegment : ∀ s ∈ segs, IsSegment s
  joined : text.toList = ['/'].intercalate segs

inductive SegmentFlaw : List Char → PathDefect → Prop
  | empty : SegmentFlaw [] .emptySegment
  | here : SegmentFlaw ['.'] (.notNormalized ".")
  | up : SegmentFlaw ['.', '.'] (.notNormalized "..")

def LeftmostFlaw (s : List Char) (d : PathDefect) : Prop :=
  ∃ before bad after, s = ['/'].intercalate (before ++ bad :: after) ∧
    (∀ g ∈ before ++ bad :: after, '/' ∉ g) ∧ SegmentFlaw bad d ∧
      ∀ g ∈ before, ∀ d', ¬ SegmentFlaw g d'

inductive Flaw (s : List Char) : PathDefect → Prop
  | absolute (h : s.head? = some '/') : Flaw s .absolute
  | trailingSlash (ha : s.head? ≠ some '/') (h : s.getLast? = some '/') : Flaw s .trailingSlash
  | backslash (ha : s.head? ≠ some '/') (ht : s.getLast? ≠ some '/') (h : '\\' ∈ s) :
      Flaw s .backslash
  | segment {d : PathDefect} (ha : s.head? ≠ some '/') (ht : s.getLast? ≠ some '/')
      (hb : '\\' ∉ s) (hn : s ≠ []) (h : LeftmostFlaw s d) : Flaw s d

variable {s : List Char} {segs : List (List Char)} {c : Char} {d : PathDefect} {text : String}

lemma splitOn_eq_iff :
    s.splitOn c = segs ↔ segs ≠ [] ∧ (∀ g ∈ segs, c ∉ g) ∧ s = [c].intercalate segs := by
  constructor
  · rintro rfl
    exact ⟨List.splitOn_ne_nil c s, fun g hg => not_mem_of_mem_splitOn hg,
      (List.intercalate_splitOn c).symm⟩
  · rintro ⟨hn, hc, rfl⟩
    exact List.splitOn_intercalate c hc hn

lemma segmentDefect?_eq_some_iff : segmentDefect? s = some d ↔ SegmentFlaw s d := by
  constructor
  · intro h
    unfold segmentDefect? at h
    split at h
    · next hs =>
      cases h
      exact hs ▸ .empty
    · split at h
      · next hs =>
        rcases hs with rfl | rfl
        · cases h; exact .here
        · cases h; exact .up
      · cases h
  · rintro (_ | _ | _)
    · rfl
    · rfl
    · rfl

lemma segmentDefect?_eq_none_iff_not_flaw :
    segmentDefect? s = none ↔ ∀ d, ¬ SegmentFlaw s d := by
  simp only [Option.eq_none_iff_forall_ne_some, ne_eq, segmentDefect?_eq_some_iff]

lemma findSome?_segmentsOf_eq_some_iff (h : s ≠ []) :
    (segmentsOf s).findSome? segmentDefect? = some d ↔ LeftmostFlaw s d := by
  simp only [segmentsOf_eq_splitOn h, List.findSome?_eq_some_iff, segmentDefect?_eq_some_iff,
    segmentDefect?_eq_none_iff_not_flaw, splitOn_eq_iff, LeftmostFlaw]
  constructor
  · rintro ⟨before, bad, after, ⟨-, hc, hj⟩, hf, hl⟩
    exact ⟨before, bad, after, hj, hc, hf, hl⟩
  · rintro ⟨before, bad, after, hj, hc, hf, hl⟩
    have hn : before ++ bad :: after ≠ [] := by simp
    exact ⟨before, bad, after, ⟨hn, hc, hj⟩, hf, hl⟩

lemma flaw_of_defect? (h : defect? s = some d) : Flaw s d := by
  unfold defect? at h
  split at h
  · cases h
  · next hn =>
    split at h
    · next ha =>
      cases h
      exact .absolute ha
    · next ha =>
      split at h
      · next ht =>
        cases h
        exact .trailingSlash ha ht
      · next ht =>
        split at h
        · next hb =>
          cases h
          exact .backslash ha ht hb
        · next hb => exact .segment ha ht hb hn ((findSome?_segmentsOf_eq_some_iff hn).mp h)

lemma defect?_of_flaw (h : Flaw s d) : defect? s = some d := by
  unfold defect?
  cases h with
  | absolute ha =>
    have hn : s ≠ [] := by
      rintro rfl
      cases ha
    rw [if_neg hn, if_pos ha]
  | trailingSlash ha ht =>
    have hn : s ≠ [] := by
      rintro rfl
      cases ht
    rw [if_neg hn, if_neg ha, if_pos ht]
  | backslash ha ht hb => rw [if_neg (List.ne_nil_of_mem hb), if_neg ha, if_neg ht, if_pos hb]
  | segment ha ht hb hn hl =>
    rw [if_neg hn, if_neg ha, if_neg ht, if_neg hb]
    exact (findSome?_segmentsOf_eq_some_iff hn).mpr hl

lemma parse_eq_error_iff {fault : PathFault} :
    parse text = .error fault ↔ fault.path = text ∧ Flaw text.toList fault.defect := by
  obtain ⟨path, d⟩ := fault
  have hd : Flaw text.toList d ↔ defect? text.toList = some d := ⟨defect?_of_flaw, flaw_of_defect?⟩
  rw [hd]
  unfold parse
  split
  · next h => simp [h]
  · next h => simp [h, eq_comm]

lemma joins_segments (p : PackagePath) : Joins p.segments p.text :=
  ⟨fun _ => isSegment_of_mem_segments, p.text_eq_intercalate⟩

lemma segments_of_joins {p : PackagePath} (h : Joins segs p.text) : p.segments = segs := by
  rw [segments, h.joined, segmentsOf_intercalate h.isSegment]

lemma exists_parse_iff :
    (∃ p, parse text = .ok p) ↔ text = "" ∨ ∃ segs, segs ≠ [] ∧ Joins segs text := by
  simp only [parse_eq_ok_iff]
  constructor
  · rintro ⟨p, rfl⟩
    by_cases hp : p = root
    · exact .inl (by rw [hp, root])
    · exact .inr ⟨p.segments, segments_eq_nil_iff.not.mpr hp, p.joins_segments⟩
  · rintro (rfl | ⟨segs, -, h⟩)
    · exact ⟨root, rfl⟩
    · refine ⟨ofSegments segs h.isSegment, ?_⟩
      rw [← String.toList_inj, text_eq_intercalate, segments_ofSegments]
      exact h.joined

/-- The texts read are the empty one and those of proper segments, which then are the segments of the
path. For any other text the first flaw is named: a slash at its start, one at its end, a backslash,
and only then the leftmost bad segment. -/
theorem paths_read_by_grammar (text : String) :
    ((∃ p, parse text = .ok p) ↔ text = "" ∨ ∃ segs, segs ≠ [] ∧ Joins segs text) ∧
    (∀ p, parse text = .ok p →
      p.text = text ∧ Joins p.segments text ∧ ∀ segs, Joins segs text → segs = p.segments) ∧
    ∀ fault, parse text = .error fault ↔
      fault.path = text ∧ Flaw text.toList fault.defect := by
  refine ⟨exists_parse_iff, ?_, fun fault => parse_eq_error_iff⟩
  intro p h
  obtain rfl := parse_eq_ok_iff.mp h
  exact ⟨rfl, p.joins_segments, fun segs hs => (segments_of_joins hs).symm⟩

theorem paths_read_by_grammar_with_dots :
    let dotted : PackagePath := ⟨".../..a", by decide +kernel⟩
    let names := ["...".toList, "..a".toList]
    (parse ".../..a" = .ok dotted ∧ Joins names ".../..a" ∧
      ∀ segs, Joins segs ".../..a" → segs = names) ∧
    (parse "a/..//b" = .error ⟨"a/..//b", .notNormalized ".."⟩ ∧
      LeftmostFlaw "a/..//b".toList (.notNormalized "..")) ∧
    parse "a/.\\/" = .error ⟨"a/.\\/", .trailingSlash⟩ ∧
      Flaw "a/.\\/".toList .trailingSlash := by
  intro dotted names
  obtain ⟨-, hread, -⟩ := paths_read_by_grammar ".../..a"
  obtain ⟨-, -, hsegment⟩ := paths_read_by_grammar "a/..//b"
  obtain ⟨-, -, hslash⟩ := paths_read_by_grammar "a/.\\/"
  have hd : parse ".../..a" = .ok dotted := parse_text dotted
  obtain ⟨-, hj, hu⟩ := hread dotted hd
  have hn : dotted.segments = names := by decide +kernel
  have hs : parse "a/..//b" = .error ⟨"a/..//b", .notNormalized ".."⟩ := by decide +kernel
  have ht : parse "a/.\\/" = .error ⟨"a/.\\/", .trailingSlash⟩ := by decide +kernel
  refine ⟨⟨hd, hn ▸ hj, hn ▸ hu⟩, ⟨hs, ?_⟩, ht, ((hslash _).mp ht).2⟩
  cases ((hsegment _).mp hs).2 with
  | segment _ _ _ _ h => exact h

end EdgeAdmission.PackagePath
