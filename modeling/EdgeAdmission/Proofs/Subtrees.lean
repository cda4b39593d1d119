import EdgeAdmission.Conventions
import EdgeAdmission.PackagePattern
import EdgeAdmission.Proofs.PathSegments
import Mathlib.Data.String.Basic

/-! Subtrees of paths and of packages. What stands below a path is read off the segments and not
off the characters, so the packages of a cell are a tree, and of two subtrees that meet one is
inside the other. -/

namespace EdgeAdmission

namespace PackagePath

variable {p q r t : PackagePath} {s : List Char}

lemma restOf?_text (p q : PackagePath) :
    restOf? p.text.toList q.text.toList = (p.rest? q).map (·.text.toList) := by
  have hm := congrArg (Option.map String.toList) (rest?_map_text p q)
  simp only [Option.map_map, Function.comp_def, String.toList_ofList, Option.map_id'] at hm
  exact hm.symm

lemma rest?_iff_segments : p.rest? q = some r ↔ p.segments = q.segments ++ r.segments := by
  rw [rest?_eq_some_iff, eq_append_iff]

lemma restOf?_text_eq_some_iff :
    restOf? p.text.toList q.text.toList = some s ↔
      ∃ r, parse (.ofList s) = .ok r ∧ p.segments = q.segments ++ r.segments := by
  simp only [restOf?_text, Option.map_eq_some_iff, rest?_iff_segments, parse_eq_ok_iff]
  constructor
  · rintro ⟨r, hr, rfl⟩
    exact ⟨r, String.ofList_toList, hr⟩
  · rintro ⟨r, hs, hr⟩
    exact ⟨r, hr, by rw [← hs, String.toList_ofList]⟩

lemma isAtOrBelow_iff_exists : p.isAtOrBelow q = true ↔ ∃ r, p = q ++ r := by
  simp only [isAtOrBelow, Option.isSome_iff_exists, rest?_eq_some_iff]

lemma isAtOrBelow_iff : p.isAtOrBelow q = true ↔ q.segments <+: p.segments := by
  rw [isAtOrBelow_iff_exists]
  constructor
  · rintro ⟨r, rfl⟩
    rw [segments_append]
    exact List.prefix_append _ _
  · rintro ⟨segs, h⟩
    obtain ⟨r, rfl⟩ := exists_eq_append h.symm
    exact ⟨r, eq_append_iff.mpr h.symm⟩

lemma rest?_append (p q r : PackagePath) : p.rest? (q ++ r) = (p.rest? q).bind (·.rest? r) := by
  ext t
  simp only [Option.bind_eq_some_iff, rest?_eq_some_iff, append_assoc]
  constructor
  · intro h
    exact ⟨r ++ t, h, rfl⟩
  · rintro ⟨u, hu, rfl⟩
    exact hu

lemma text_prefix (h : p.isAtOrBelow q = true) : q.text.toList <+: p.text.toList := by
  obtain ⟨r, rfl⟩ := isAtOrBelow_iff_exists.mp h
  by_cases hq : q = root
  · rw [toList_text_eq_nil_iff.mpr hq]
    exact List.nil_prefix
  by_cases hr : r = root
  · rw [hr, append_root]
  · rw [toList_text_append hq hr]
    exact List.prefix_append _ _

theorem rest_by_segments :
    (∀ (p q : PackagePath) (s : List Char), restOf? p.text.toList q.text.toList = some s ↔
      ∃ r, parse (.ofList s) = .ok r ∧ p.segments = q.segments ++ r.segments) ∧
    (∀ p q r : PackagePath, p.rest? q = some r ↔ p.segments = q.segments ++ r.segments) ∧
    (∀ p q r r' : PackagePath, p.segments = q.segments ++ r.segments →
      p.segments = q.segments ++ r'.segments → r = r') ∧
    (∀ p q : PackagePath, p.isAtOrBelow q = true ↔ q.segments <+: p.segments) ∧
    ∀ p q q₁ q₂ : PackagePath, q.segments = q₁.segments ++ q₂.segments →
      p.rest? q = (p.rest? q₁).bind (·.rest? q₂) := by
  refine ⟨fun p q s => restOf?_text_eq_some_iff, fun p q r => rest?_iff_segments, ?_,
    fun p q => isAtOrBelow_iff, ?_⟩
  · intro p q r r' h h'
    apply segments_injective
    exact List.append_cancel_left (h.symm.trans h')
  · intro p q q₁ q₂ h
    rw [eq_append_iff.mpr h]
    exact rest?_append p q₁ q₂

theorem rest_by_segments_of_nested :
    let p : PackagePath := ⟨"foo/bar/baz", by decide +kernel⟩
    let q : PackagePath := ⟨"foo/bar", by decide +kernel⟩
    let foo : PackagePath := ⟨"foo", by decide +kernel⟩
    let bar : PackagePath := ⟨"bar", by decide +kernel⟩
    let baz : PackagePath := ⟨"baz", by decide +kernel⟩
    let ba : PackagePath := ⟨"foo/ba", by decide +kernel⟩
    restOf? p.text.toList q.text.toList = some "baz".toList ∧
      (∀ r : PackagePath, p.segments = q.segments ++ r.segments → r = baz) ∧
      ¬ ba.segments <+: p.segments ∧ p.rest? ba = none ∧
      p.rest? q = (p.rest? foo).bind (·.rest? bar) := by
  intro p q foo bar baz ba
  obtain ⟨htext, -, hunique, hbelow, hsteps⟩ := rest_by_segments
  have hp : p.segments = q.segments ++ baz.segments := by decide +kernel
  have hn : p.rest? ba = none := by decide +kernel
  refine ⟨(htext p q _).mpr ⟨baz, rfl, hp⟩, fun r h => hunique p q r baz h hp, ?_, hn, ?_⟩
  · rw [← hbelow, isAtOrBelow, hn]
    exact Bool.false_ne_true
  · exact hsteps p q foo bar (by decide +kernel)

end PackagePath

namespace Package

variable {a b c : Package}

lemma isAtOrBelow_iff :
    a.isAtOrBelow b = true ↔ a.cell = b.cell ∧ b.path.segments <+: a.path.segments := by
  rw [isAtOrBelow, Bool.and_eq_true, decide_eq_true_eq, PackagePath.isAtOrBelow_iff]

lemma isAtOrBelow_self (a : Package) : a.isAtOrBelow a = true :=
  isAtOrBelow_iff.mpr ⟨rfl, List.prefix_rfl⟩

lemma isAtOrBelow_trans (hab : a.isAtOrBelow b = true) (hbc : b.isAtOrBelow c = true) :
    a.isAtOrBelow c = true := by
  rw [isAtOrBelow_iff] at hab hbc ⊢
  exact ⟨hab.1.trans hbc.1, hbc.2.trans hab.2⟩

lemma isAtOrBelow_antisymm (hab : a.isAtOrBelow b = true) (hba : b.isAtOrBelow a = true) :
    a = b := by
  obtain ⟨hcell, hp⟩ := isAtOrBelow_iff.mp hab
  obtain ⟨-, hp'⟩ := isAtOrBelow_iff.mp hba
  have hlen : b.path.segments.length = a.path.segments.length :=
    hp.length_le.antisymm hp'.length_le
  apply Package.ext hcell
  apply PackagePath.segments_injective
  exact (hp.eq_of_length hlen).symm

lemma isAtOrBelow_root (a : Package) : a.isAtOrBelow ⟨a.cell, .root⟩ = true :=
  isAtOrBelow_iff.mpr ⟨rfl, List.nil_prefix⟩

lemma comparable_of_isAtOrBelow (hb : a.isAtOrBelow b = true) (hc : a.isAtOrBelow c = true) :
    b.isAtOrBelow c = true ∨ c.isAtOrBelow b = true := by
  simp only [isAtOrBelow_iff] at hb hc ⊢
  rcases List.prefix_or_prefix_of_prefix hb.2 hc.2 with h | h
  · exact .inr ⟨hc.1.symm.trans hb.1, h⟩
  · exact .inl ⟨hb.1.symm.trans hc.1, h⟩

lemma compare_isLE_of_isAtOrBelow (h : a.isAtOrBelow b = true) : (compare b a).isLE = true := by
  rw [isAtOrBelow, Bool.and_eq_true, decide_eq_true_eq] at h
  have htext : b.path.text ≤ a.path.text :=
    (PackagePath.text_prefix h.2).le
  have hcell : compare b.cell.name a.cell.name = .eq := by
    rw [h.1]
    exact Std.ReflCmp.compare_self
  have hlex : compare b a =
      (compare b.cell.name a.cell.name).then (compare b.path.text a.path.text) := rfl
  rw [hlex, hcell, Ordering.eq_then, Ordering.isLE_iff_ne_gt]
  exact compare_le_iff_le.mpr htext

end Package

namespace PackagePattern

variable {p q : Package}

lemma contains_beneath {a : Package} : (beneath p).contains a = true ↔ a.isAtOrBelow p = true :=
  Iff.rfl

lemma beneath_subset_iff :
    (∀ a, (beneath q).contains a = true → (beneath p).contains a = true) ↔
      q.isAtOrBelow p = true := by
  simp only [contains_beneath]
  constructor
  · intro h
    exact h q (Package.isAtOrBelow_self q)
  · intro h a ha
    exact Package.isAtOrBelow_trans ha h

lemma beneath_disjoint (hpq : p.isAtOrBelow q = false) (hqp : q.isAtOrBelow p = false)
    (a : Package) : ¬ ((beneath p).contains a = true ∧ (beneath q).contains a = true) := by
  rintro ⟨hp, hq⟩
  rcases Package.comparable_of_isAtOrBelow hp hq with h | h
  · simp [h] at hpq
  · simp [h] at hqp

end PackagePattern

lemma Conventions.isExperimental_of_isAtOrBelow {c : Conventions} {a b : Package}
    (h : a.isAtOrBelow b = true) (hb : c.isExperimental b = true) : c.isExperimental a = true := by
  obtain ⟨root, hroot, hbelow⟩ := isExperimental_iff.mp hb
  refine isExperimental_iff.mpr ⟨root, hroot, ?_⟩
  rw [PackagePath.isAtOrBelow_iff] at hbelow ⊢
  exact hbelow.trans (Package.isAtOrBelow_iff.mp h).2

theorem packages_form_trees :
    (∀ a : Package, a.isAtOrBelow a = true) ∧
    (∀ a b c : Package, a.isAtOrBelow b = true → b.isAtOrBelow c = true →
      a.isAtOrBelow c = true) ∧
    (∀ a b : Package, a.isAtOrBelow b = true → b.isAtOrBelow a = true → a = b) ∧
    (∀ a b : Package, a.isAtOrBelow b = true → a.cell = b.cell) ∧
    (∀ a : Package, a.isAtOrBelow ⟨a.cell, .root⟩ = true) ∧
    (∀ a b c : Package, a.isAtOrBelow b = true → a.isAtOrBelow c = true →
      b.isAtOrBelow c = true ∨ c.isAtOrBelow b = true) ∧
    (∀ a b : Package, a.isAtOrBelow b = true → (compare b a).isLE = true) ∧
    (∀ p q : Package, (∀ a, (PackagePattern.beneath q).contains a = true →
      (PackagePattern.beneath p).contains a = true) ↔ q.isAtOrBelow p = true) ∧
    (∀ p q : Package, p.isAtOrBelow q = false → q.isAtOrBelow p = false → ∀ a,
      ¬ ((PackagePattern.beneath p).contains a = true ∧
        (PackagePattern.beneath q).contains a = true)) ∧
    ∀ (c : Conventions) (a b : Package), a.isAtOrBelow b = true → c.isExperimental b = true →
      c.isExperimental a = true := by
  refine ⟨Package.isAtOrBelow_self, fun a b c => Package.isAtOrBelow_trans,
    fun a b => Package.isAtOrBelow_antisymm, ?_, Package.isAtOrBelow_root,
    fun a b c => Package.comparable_of_isAtOrBelow, fun a b => Package.compare_isLE_of_isAtOrBelow,
    fun p q => PackagePattern.beneath_subset_iff, fun p q => PackagePattern.beneath_disjoint,
    fun c a b => Conventions.isExperimental_of_isAtOrBelow⟩
  intro a b h
  exact (Package.isAtOrBelow_iff.mp h).1

theorem packages_form_trees_among_siblings :
    let foo : Package := ⟨default, ⟨"foo", by decide +kernel⟩⟩
    let bar : Package := ⟨default, ⟨"foo/bar", by decide +kernel⟩⟩
    let baz : Package := ⟨default, ⟨"foo/bar/baz", by decide +kernel⟩⟩
    let sibling : Package := ⟨default, ⟨"foo-bar", by decide +kernel⟩⟩
    let c : Conventions := { Conventions.standard with experimentalRoots := [foo.path] }
    baz.isAtOrBelow foo = true ∧ baz.cell = foo.cell ∧
      (foo.isAtOrBelow bar = true ∨ bar.isAtOrBelow foo = true) ∧ (compare foo baz).isLE = true ∧
      (∀ a : Package, a.isAtOrBelow foo = true → foo.isAtOrBelow a = true → a = foo) ∧
      (∀ a, (PackagePattern.beneath bar).contains a = true →
        (PackagePattern.beneath foo).contains a = true) ∧
      (compare sibling bar).isLE = true ∧
      (∀ a, ¬ ((PackagePattern.beneath foo).contains a = true ∧
        (PackagePattern.beneath sibling).contains a = true)) ∧
      c.isExperimental baz = true ∧ c.isExperimental sibling = false := by
  intro foo bar baz sibling c
  obtain ⟨-, htrans, hantisymm, hcell, -, hchain, hcompare, hsubset, hdisjoint, hexperimental⟩ :=
    packages_form_trees
  have hbar : baz.isAtOrBelow bar = true := by decide +kernel
  have hfoo : bar.isAtOrBelow foo = true := by decide +kernel
  have hbaz : baz.isAtOrBelow foo = true := htrans baz bar foo hbar hfoo
  refine ⟨hbaz, hcell baz foo hbaz, hchain baz foo bar hbaz hbar, hcompare baz foo hbaz,
    fun a => hantisymm a foo, (hsubset foo bar).mpr hfoo, by decide +kernel, ?_, ?_, ?_⟩
  · exact hdisjoint foo sibling (by decide +kernel) (by decide +kernel)
  · exact hexperimental c baz foo hbaz (by decide +kernel)
  · decide +kernel

end EdgeAdmission
