import EdgeAdmission.Proofs.PatternGrammar

namespace EdgeAdmission.PackagePattern

open Reading

def package? : PackagePattern → Option Package
  | exactly p => some p
  | beneath p => some p
  | everything => none

def canonicalize (text : String) (current : Cell) : Except PackagePatternFault String :=
  (parse text current).map display

variable {x y : PackagePattern} {text canon : String} {current : Cell}

lemma display_injOn (hx : x.Legible) (hy : y.Legible) (h : x.display = y.display) : x = y := by
  have hx' : parse x.display default = .ok x := parse_display hx default
  have hy' : parse y.display default = .ok y := parse_display hy default
  rw [h, hy'] at hx'
  exact (Except.ok.inj hx').symm

lemma Legible.not_wildcard_mem (h : x.Legible) {p : Package} (hp : x.package? = some p) :
    wildcard ∉ p.path.segments := by
  cases x with
  | exactly q =>
    obtain rfl : q = p := Option.some.inj hp
    exact h.2
  | beneath q =>
    obtain rfl : q = p := Option.some.inj hp
    exact h.2
  | everything => cases hp

lemma canonicalize_eq_ok_iff :
    canonicalize text current = .ok canon ↔ ∃ x, parse text current = .ok x ∧ x.display = canon :=
  map_eq_ok_iff

lemma canonicalize_display (h : x.Legible) (current : Cell) :
    canonicalize x.display current = .ok x.display :=
  canonicalize_eq_ok_iff.mpr ⟨x, parse_display h current, rfl⟩

lemma display_of_concat_wildcard {p q : Package} (hk : q.cell = p.cell)
    (hs : q.path.segments = p.path.segments ++ [wildcard]) :
    (exactly q).display = (beneath p).display := by
  have ht := text_of_concat_wildcard hs
  by_cases hp : p.path = .root
  · have hr : p.path.isRoot = true := by rw [hp]; rfl
    rw [if_pos hp] at ht
    simp [display, Package.display, hk, ht, hr, String.append_assoc]
  · have hr : p.path.isRoot = false := decide_eq_false fun h => hp (PackagePath.ext h)
    rw [if_neg hp] at ht
    simp [display, Package.display, hk, ht, hr, String.append_assoc]

/-- The display of what was read is read back from every cell. So it is a canonical spelling, which
does not change when it is taken again, and no two patterns that were read share it. This rests on
the wildcard being no segment of a path that was read. -/
theorem display_is_canonical :
    (∀ text current x, parse text current = .ok x → ∀ other, parse x.display other = .ok x) ∧
    (∀ text current canon, canonicalize text current = .ok canon →
      ∀ other, canonicalize canon other = .ok canon) ∧
    (∀ s t c d x y, parse s c = .ok x → parse t d = .ok y → x.display = y.display → x = y) ∧
    (∀ s t c d p q, parse s c = .ok (.exactly p) → parse t d = .ok (.beneath q) →
      (exactly p).display ≠ (beneath q).display) ∧
    (∀ text current x p, parse text current = .ok x → x.package? = some p →
      wildcard ∉ p.path.segments) ∧
    ∀ p q : Package, q.cell = p.cell → q.path.segments = p.path.segments ++ [wildcard] →
      (exactly q).display = (beneath p).display := by
  refine ⟨?_, ?_, ?_, ?_, ?_, fun p q => display_of_concat_wildcard⟩
  · intro text current x h other
    exact parse_display (legible_of_parse h) other
  · intro text current canon h other
    obtain ⟨x, hx, rfl⟩ := canonicalize_eq_ok_iff.mp h
    exact canonicalize_display (legible_of_parse hx) other
  · intro s t c d x y hx hy
    exact display_injOn (legible_of_parse hx) (legible_of_parse hy)
  · intro s t c d p q hp hq h
    have he := display_injOn (legible_of_parse hp) (legible_of_parse hq) h
    cases he
  · intro text current x p h hp
    exact (legible_of_parse h).not_wildcard_mem hp

theorem display_is_canonical_in_other_cell :
    let lib : Cell := ⟨"lib", by decide, by decide⟩
    let a : PackagePath := ⟨"a", by decide +kernel⟩
    let b : PackagePath := ⟨"a/...", by decide +kernel⟩
    parse "@//a/..." lib = .ok (.beneath ⟨lib, a⟩) ∧ parse "lib//a" default = .ok (.exactly ⟨lib, a⟩) ∧
      parse "lib//a/..." default = .ok (.beneath ⟨lib, a⟩) ∧
      canonicalize "lib//a/..." default = .ok "lib//a/..." ∧
      (∀ y, parse "lib//a/..." default = .ok y → (beneath ⟨lib, a⟩).display = y.display →
        .beneath ⟨lib, a⟩ = y) ∧
      (exactly ⟨lib, a⟩).display ≠ (beneath ⟨lib, a⟩).display ∧ wildcard ∉ a.segments ∧
      (exactly ⟨lib, b⟩).display = (beneath ⟨lib, a⟩).display := by
  intro lib a b
  have hb : parse "@//a/..." lib = .ok (.beneath ⟨lib, a⟩) := rfl
  have he : parse "lib//a" default = .ok (.exactly ⟨lib, a⟩) := rfl
  have hc : canonicalize "@//a/..." lib = .ok "lib//a/..." := rfl
  have hs : b.segments = a.segments ++ [wildcard] := by decide +kernel
  obtain ⟨hparse, hidem, hinj, hne, hsegs, hshare⟩ := display_is_canonical
  refine ⟨hb, he, hparse _ _ _ hb default, hidem _ _ _ hc default, ?_, ?_, ?_, ?_⟩
  · exact fun y hy => hinj _ _ _ _ _ y hb hy
  · exact hne _ _ _ _ _ _ he hb
  · exact hsegs _ _ _ ⟨lib, a⟩ hb rfl
  · exact hshare ⟨lib, a⟩ ⟨lib, b⟩ rfl hs

end EdgeAdmission.PackagePattern
