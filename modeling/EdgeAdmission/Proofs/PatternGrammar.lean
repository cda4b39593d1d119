import EdgeAdmission.PackagePattern
import EdgeAdmission.Proofs.LabelGrammar

/-! How patterns of packages are written. A pattern is written like a package whose last segment may
be the wildcard, but for one spelling too many of all the packages of a cell. -/

namespace EdgeAdmission.PackagePattern

open Reading

inductive Denotes (q : Package) : PackagePattern → Prop
  | exactly (h : wildcard ∉ q.path.segments) : Denotes q (.exactly q)
  | beneath (p : Package) (hk : q.cell = p.cell)
      (hs : q.path.segments = p.path.segments ++ [wildcard]) (h : wildcard ∉ p.path.segments) :
      Denotes q (.beneath p)

/-- How patterns of the cell `k` are written behind the `//`. For the root of the cell `below` gives
`/...`, which is no path. -/
inductive Spells (k : Cell) : String → PackagePattern → Prop
  | exactly (p : PackagePath) (h : wildcard ∉ p.segments) : Spells k p.text (.exactly ⟨k, p⟩)
  | all : Spells k "..." (.beneath ⟨k, .root⟩)
  | below (p : PackagePath) (h : wildcard ∉ p.segments) :
      Spells k (p.text ++ "/...") (.beneath ⟨k, p⟩)

lemma isSegment_wildcard : PackagePath.IsSegment wildcard := by
  constructor <;> decide

section Wildcard

variable {path front : List Char}

lemma dropWildcard_append (path : List Char) :
    dropWildcard (path ++ '/' :: wildcard) = (path, true) := by
  have hw : path ++ '/' :: wildcard ≠ wildcard := by
    intro h
    have hs : '/' ∈ wildcard := h ▸ (by simp)
    exact absurd hs isSegment_wildcard.no_slash
  have hs : ('/' :: wildcard).isSuffixOf? (path ++ '/' :: wildcard) = some path :=
    List.isSuffixOf?_eq_some_iff_append_eq.mpr rfl
  rw [dropWildcard, if_neg hw, hs]

lemma dropWildcard_of_not_mem (h : wildcard ∉ path.splitOn '/') :
    dropWildcard path = (path, false) := by
  have hw : path ≠ wildcard := by
    rintro rfl
    exact h (by decide)
  rw [dropWildcard, if_neg hw]
  cases hs : ('/' :: wildcard).isSuffixOf? path with
  | none => rfl
  | some front =>
    obtain rfl := List.isSuffixOf?_eq_some_iff_append_eq.mp hs
    -- What stands behind the last slash is a segment.
    rw [List.splitOn_append_cons_self] at h
    exact absurd (List.mem_append_right _ (by decide)) h

lemma eq_of_dropWildcard (h : dropWildcard path = (front, true)) :
    path = wildcard ∧ front = [] ∨ path = front ++ '/' :: wildcard := by
  unfold dropWildcard at h
  split at h
  · next hw =>
    obtain rfl : [] = front := congrArg Prod.fst h
    exact .inl ⟨hw, rfl⟩
  · split at h
    · next hs =>
      obtain rfl : _ = front := congrArg Prod.fst h
      exact .inr (List.isSuffixOf?_eq_some_iff_append_eq.mp hs).symm
    · cases h

lemma eq_of_keep (h : dropWildcard path = (front, false)) : path = front := by
  unfold dropWildcard at h
  split at h
  · cases h
  · split at h
    · cases h
    · exact congrArg Prod.fst h

lemma wildcard_mem_segments_iff {p : PackagePath} :
    wildcard ∈ p.segments ↔ wildcard ∈ p.text.toList.splitOn '/' := by
  by_cases h : p.text.toList = []
  · rw [PackagePath.segments, PackagePath.segmentsOf, if_pos h, h]
    decide
  · rw [PackagePath.segments, PackagePath.segmentsOf_eq_splitOn h]

end Wildcard

lemma not_wildcard_mem_root : wildcard ∉ PackagePath.root.segments := by
  decide +kernel

lemma dropWildcard_of_spells {k : Cell} {text : String} {x : PackagePattern} (h : Spells k text x) :
    ∃ p : PackagePath, wildcard ∉ p.segments ∧ ∃ isSubtree,
      dropWildcard text.toList = (p.text.toList, isSubtree) ∧
        x = if isSubtree then beneath ⟨k, p⟩ else exactly ⟨k, p⟩ := by
  cases h with
  | exactly p h =>
    exact ⟨p, h, false, dropWildcard_of_not_mem (wildcard_mem_segments_iff.not.mp h), rfl⟩
  | all => exact ⟨.root, not_wildcard_mem_root, true, rfl, rfl⟩
  | below p h =>
    refine ⟨p, h, true, ?_, rfl⟩
    rw [String.toList_append]
    exact dropWildcard_append p.text.toList

lemma spells_of_dropWildcard {k : Cell} {text : String} {p : PackagePath} {isSubtree : Bool}
    (h : wildcard ∉ p.segments) (hd : dropWildcard text.toList = (p.text.toList, isSubtree)) :
    Spells k text (if isSubtree then beneath ⟨k, p⟩ else exactly ⟨k, p⟩) := by
  cases isSubtree with
  | false =>
    obtain rfl : text = p.text := String.toList_inj.mp (eq_of_keep hd)
    exact .exactly p h
  | true =>
    rcases eq_of_dropWildcard hd with ⟨ht, hp⟩ | ht
    · obtain rfl : text = "..." := String.toList_inj.mp ht
      obtain rfl : p = .root := PackagePath.ext (String.toList_inj.mp hp)
      exact .all
    · obtain rfl : text = p.text ++ "/..." := by
        rw [← String.toList_inj, String.toList_append]
        exact ht
      exact .below p h

lemma spells_iff_dropWildcard {k : Cell} {path : List Char} {x : PackagePattern} :
    Spells k (.ofList path) x ↔
      wildcard ∉ (dropWildcard path).1.splitOn '/' ∧
        ∃ p : PackagePath, String.ofList (dropWildcard path).1 = p.text ∧
          (if (dropWildcard path).2 then beneath ⟨k, p⟩ else exactly ⟨k, p⟩) = x := by
  constructor
  · intro h
    obtain ⟨p, hp, isSubtree, hd, rfl⟩ := dropWildcard_of_spells h
    rw [String.toList_ofList] at hd
    rw [hd]
    exact ⟨wildcard_mem_segments_iff.not.mp hp, p, String.ofList_toList, rfl⟩
  · rintro ⟨hw, p, hp, rfl⟩
    have ht : (dropWildcard path).1 = p.text.toList := by rw [← hp, String.toList_ofList]
    rw [ht, ← wildcard_mem_segments_iff] at hw
    exact spells_of_dropWildcard hw (by rw [String.toList_ofList, ← ht])

lemma parse_eq_ok_iff {text : String} {current : Cell} {x : PackagePattern} :
    parse text current = .ok x ↔
      text = "public" ∧ x = everything ∨
        ':' ∉ text.toList ∧ ∃ k path, Package.Spells current.name k.name (.ofList path) text ∧
          Spells k (.ofList path) x := by
  simp only [Package.spells_iff_cutDouble?]
  by_cases he : text = ""
  · simp [parse, he, Text.cutDouble?]
  by_cases hp : text = "public"
  · have hx : parse "public" current = .ok everything := by simp [parse]
    rw [hp, hx]
    simp [Text.cutDouble?, eq_comm]
  by_cases hc : ':' ∈ text.toList
  · simp [parse, he, hp, hc]
  simp only [parse, he, hp, hc, if_false, false_and, false_or, not_false_eq_true, true_and]
  cases hd : Text.cutDouble? '/' text.toList with
  | none => simp
  | some parts =>
    simp only [bind_eq_ok_iff, mapError_eq_ok_iff]
    constructor
    · rintro ⟨k, hr, h⟩
      split at h
      · cases h
      · next hw =>
        simp only [bind_eq_ok_iff, mapError_eq_ok_iff, pure_eq_ok_iff,
          PackagePath.parse_eq_ok_iff] at h
        exact ⟨k, parts.2, ⟨parts.1, rfl, hr⟩, spells_iff_dropWildcard.mpr ⟨hw, h⟩⟩
    · rintro ⟨k, path, ⟨reference, h, hr⟩, hx⟩
      obtain rfl := Option.some.inj h
      obtain ⟨hw, hx⟩ := spells_iff_dropWildcard.mp hx
      refine ⟨k, hr, ?_⟩
      rw [if_neg hw]
      simpa only [bind_eq_ok_iff, mapError_eq_ok_iff, pure_eq_ok_iff,
        PackagePath.parse_eq_ok_iff] using hx

lemma exists_concat_wildcard (p : PackagePath) :
    ∃ q : PackagePath, q.segments = p.segments ++ [wildcard] := by
  apply PackagePath.exists_segments_iff.mpr
  intro s hs
  rcases List.mem_append.mp hs with hs | hs
  · exact PackagePath.isSegment_of_mem_segments hs
  · exact List.mem_singleton.mp hs ▸ isSegment_wildcard

lemma text_of_concat_wildcard {p q : PackagePath} (h : q.segments = p.segments ++ [wildcard]) :
    q.text = if p = .root then "..." else p.text ++ "/..." := by
  rw [← String.toList_inj, PackagePath.text_eq_intercalate, h]
  split
  · next hp =>
    rw [PackagePath.segments_eq_nil_iff.mpr hp]
    decide
  · next hp =>
    rw [PackagePath.intercalate_concat (PackagePath.segments_eq_nil_iff.not.mpr hp),
      ← PackagePath.text_eq_intercalate, String.toList_append]
    rfl

lemma spells_iff_denotes {k : Cell} {path : String} {x : PackagePattern} :
    Spells k path x ↔
      (∃ p : PackagePath, p.text = path ∧ Denotes ⟨k, p⟩ x) ∨
        path = "/..." ∧ x = .beneath ⟨k, .root⟩ := by
  constructor
  · rintro (⟨p, h⟩ | _ | ⟨p, h⟩)
    · exact .inl ⟨p, rfl, .exactly h⟩
    · obtain ⟨q, hq⟩ := exists_concat_wildcard .root
      have ht := text_of_concat_wildcard hq
      rw [if_pos rfl] at ht
      exact .inl ⟨q, ht, .beneath _ rfl hq not_wildcard_mem_root⟩
    · -- Behind the root the wildcard has a slash in front that its path does not have.
      by_cases hp : p = .root
      · exact .inr ⟨by rw [hp]; rfl, by rw [hp]⟩
      · obtain ⟨q, hq⟩ := exists_concat_wildcard p
        have ht := text_of_concat_wildcard hq
        rw [if_neg hp] at ht
        exact .inl ⟨q, ht, .beneath _ rfl hq h⟩
  · rintro (⟨p, rfl, hd⟩ | ⟨rfl, rfl⟩)
    · cases hd with
      | exactly h => exact .exactly p h
      | beneath r hk hs h =>
        obtain ⟨_, q⟩ := r
        obtain rfl : k = _ := hk
        have ht := text_of_concat_wildcard hs
        split at ht
        · next hq =>
          obtain rfl : q = .root := hq
          exact ht ▸ .all
        · exact ht ▸ .below q h
    · exact .below .root not_wildcard_mem_root

lemma exists_denotes_iff {q : Package} :
    (∃ x, Denotes q x) ↔ wildcard ∉ q.path.segments.dropLast := by
  constructor
  · rintro ⟨_, h | ⟨p, _, hs, h⟩⟩
    · exact fun hd => h (List.mem_of_mem_dropLast hd)
    · rw [hs, List.dropLast_concat]
      exact h
  · intro h
    by_cases hw : wildcard ∈ q.path.segments
    · have hn : q.path.segments ≠ [] := List.ne_nil_of_mem hw
      have hl : q.path.segments.dropLast ++ [q.path.segments.getLast hn] = q.path.segments :=
        List.dropLast_append_getLast hn
      rw [← hl, List.mem_append, List.mem_singleton] at hw
      have hw : wildcard = q.path.segments.getLast hn := hw.resolve_left h
      obtain ⟨p, hp⟩ : ∃ p : PackagePath, p.segments = q.path.segments.dropLast :=
        PackagePath.exists_segments_iff.mpr fun s hs =>
          PackagePath.isSegment_of_mem_segments (List.mem_of_mem_dropLast hs)
      exact ⟨_, .beneath ⟨q.cell, p⟩ rfl (by rw [hp, hw, hl]) (by rwa [hp])⟩
    · exact ⟨_, .exactly hw⟩

lemma parse_eq_ok_iff_denotes {text : String} {current : Cell} {x : PackagePattern} :
    parse text current = .ok x ↔
      text = "public" ∧ x = everything ∨
        (∃ q, Package.parse text current = .ok q ∧ Denotes q x) ∨
          ∃ k, Package.Spells current.name k.name "/..." text ∧ x = .beneath ⟨k, .root⟩ := by
  rw [parse_eq_ok_iff]
  refine or_congr_right ?_
  constructor
  · rintro ⟨hc, k, path, hs, hx⟩
    rcases spells_iff_denotes.mp hx with ⟨p, hp, hd⟩ | ⟨hp, rfl⟩
    · rw [← hp] at hs
      exact .inl ⟨⟨k, p⟩, Package.parse_eq_ok_iff.mpr ⟨hc, hs⟩, hd⟩
    · exact .inr ⟨k, hp ▸ hs, rfl⟩
  · rintro (⟨q, hq, hd⟩ | ⟨k, hs, rfl⟩)
    · obtain ⟨hc, hs⟩ := Package.parse_eq_ok_iff.mp hq
      refine ⟨hc, q.cell, q.path.text.toList, ?_, ?_⟩
      · rwa [String.ofList_toList]
      · rw [String.ofList_toList]
        exact spells_iff_denotes.mpr (.inl ⟨q.path, rfl, hd⟩)
    · refine ⟨?_, k, "/...".toList, hs, spells_iff_denotes.mpr (.inr ⟨rfl, rfl⟩)⟩
      rw [hs.colon_mem_iff]
      decide

namespace Spells

variable {k : Cell} {path : String} {x : PackagePattern}

lemma ne_everything (h : Spells k path x) : x ≠ everything := by
  cases h <;> exact fun h => nomatch h

lemma move (h : Spells k path x) (l : Cell) : ∃ y, Spells l path y := by
  cases h with
  | exactly p h => exact ⟨_, .exactly p h⟩
  | all => exact ⟨_, .all⟩
  | below p h => exact ⟨_, .below p h⟩

lemma parse_eq_ok {text : String} {current : Cell} (h : Spells k path x)
    (hc : ':' ∉ path.toList) (ht : Package.Spells current.name k.name path text) :
    parse text current = .ok x := by
  refine parse_eq_ok_iff.mpr (.inr ⟨ht.colon_mem_iff.not.mpr hc, k, path.toList, ?_, ?_⟩)
  · rwa [String.ofList_toList]
  · rwa [String.ofList_toList]

end Spells

def Legible : PackagePattern → Prop
  | .exactly p => ':' ∉ p.path.text.toList ∧ wildcard ∉ p.path.segments
  | .beneath p => ':' ∉ p.path.text.toList ∧ wildcard ∉ p.path.segments
  | .everything => True

lemma legible_of_parse {text : String} {current : Cell} {x : PackagePattern}
    (h : parse text current = .ok x) : x.Legible := by
  rcases parse_eq_ok_iff.mp h with ⟨_, rfl⟩ | ⟨hc, k, path, ht, hx⟩
  · trivial
  rw [ht.colon_mem_iff] at hc
  generalize String.ofList path = path at hc hx
  cases hx with
  | exactly p hw => exact ⟨hc, hw⟩
  | all =>
    have hr : ':' ∉ PackagePath.root.text.toList := by decide
    exact ⟨hr, not_wildcard_mem_root⟩
  | below p hw =>
    rw [String.toList_append, List.mem_append, not_or] at hc
    exact ⟨hc.1, hw⟩

lemma exists_spells_display {x : PackagePattern} (h : x.Legible) (hx : x ≠ everything) :
    ∃ (k : Cell) (path : String), x.display = k.name ++ "//" ++ path ∧ ':' ∉ path.toList ∧
      Spells k path x := by
  cases x with
  | exactly p => exact ⟨p.cell, p.path.text, rfl, h.1, .exactly p.path h.2⟩
  | beneath p =>
    obtain ⟨k, path⟩ := p
    by_cases hp : path = .root
    · subst hp
      exact ⟨k, "...", by simp [display, PackagePath.isRoot, PackagePath.root, String.append_assoc],
        by decide, .all⟩
    · have hn : path.isRoot = false := by
        refine decide_eq_false fun ht => hp (PackagePath.ext ht)
      refine ⟨k, path.text ++ "/...", ?_, ?_, .below path h.2⟩
      · simp [display, hn, Package.display, String.append_assoc]
      · simpa using h.1
  | everything => exact absurd rfl hx

lemma parse_display {x : PackagePattern} (h : x.Legible) (current : Cell) :
    parse x.display current = .ok x := by
  by_cases hx : x = everything
  · subst hx
    rfl
  · obtain ⟨k, path, hd, hc, hs⟩ := exists_spells_display h hx
    exact hs.parse_eq_ok hc (hd ▸ .full)

theorem patterns_read_like_packages (current : Cell) (text : String) :
    (∀ x, parse text current = .ok x ↔
      text = "public" ∧ x = everything ∨
        (∃ q, Package.parse text current = .ok q ∧ Denotes q x) ∨
          ∃ k, Package.Spells current.name k.name "/..." text ∧ x = .beneath ⟨k, .root⟩) ∧
    ((∃ x, parse text current = .ok x) ↔
      text = "public" ∨
        (∃ q, Package.parse text current = .ok q ∧ wildcard ∉ q.path.segments.dropLast) ∨
          ∃ k : Cell, Package.Spells current.name k.name "/..." text) := by
  refine ⟨fun x => parse_eq_ok_iff_denotes, ?_⟩
  simp only [parse_eq_ok_iff_denotes, ← exists_denotes_iff]
  constructor
  · rintro ⟨x, ⟨ht, _⟩ | ⟨q, hq, hd⟩ | ⟨k, hs, _⟩⟩
    · exact .inl ht
    · exact .inr (.inl ⟨q, hq, x, hd⟩)
    · exact .inr (.inr ⟨k, hs⟩)
  · rintro (ht | ⟨q, hq, x, hd⟩ | ⟨k, hs⟩)
    · exact ⟨everything, .inl ⟨ht, rfl⟩⟩
    · exact ⟨x, .inr (.inl ⟨q, hq, hd⟩)⟩
    · exact ⟨_, .inr (.inr ⟨k, hs, rfl⟩)⟩

theorem absolute_wildcard_is_no_package :
    parse "///..." default = .ok (.beneath ⟨default, .root⟩) ∧
      Package.parse "///..." default = .error (.path ⟨"/...", .absolute⟩) := by
  exact ⟨rfl, rfl⟩

end EdgeAdmission.PackagePattern
