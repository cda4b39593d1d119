import EdgeAdmission.Conventions
import EdgeAdmission.Proofs.PathSegments

/-! Packages that count as one: those at one place below the two roots of a configured pair. Only one
pair is looked at, so what the pairs make one together need not be. -/

namespace EdgeAdmission

def Package.descend (a : Package) (x : PackagePath) : Package := ⟨a.cell, a.path ++ x⟩

namespace Conventions

def rootPairs (c : Conventions) : List (PackagePath × PackagePath) :=
  c.logicalPairs ++ c.logicalPairs.map Prod.swap

def Mirrored (c : Conventions) (p q : PackagePath) : Prop :=
  ∃ l r rest, (l, r) ∈ c.rootPairs ∧ p = l ++ rest ∧ q = r ++ rest

/-- Where two pairs meet, in that a root of one stands at `t` below a root of the other, the paths
that they lead to from there are one path or mirrored by a pair themselves. -/
def Coherent (c : Conventions) : Prop :=
  ∀ l r l' r' t, (l, r) ∈ c.rootPairs → (l', r') ∈ c.rootPairs → r = l' ++ t →
    l = r' ++ t ∨ c.Mirrored l (r' ++ t)

variable {c : Conventions} {l r p q : PackagePath} {a b : Package}

lemma mem_rootPairs_iff : (l, r) ∈ c.rootPairs ↔ (l, r) ∈ c.logicalPairs ∨ (r, l) ∈ c.logicalPairs := by
  rw [rootPairs, List.mem_append, List.mem_map_swap]

lemma rootPairs_symm (h : (l, r) ∈ c.rootPairs) : (r, l) ∈ c.rootPairs :=
  mem_rootPairs_iff.mpr (mem_rootPairs_iff.mp h).symm

lemma corresponds_iff : corresponds l r p q = true ↔ ∃ rest, p = l ++ rest ∧ q = r ++ rest := by
  simp only [← PackagePath.rest?_eq_some_iff, corresponds]
  cases p.rest? l <;> cases q.rest? r <;> simp [eq_comm]

lemma any_corresponds_iff :
    (c.logicalPairs.any fun (left, right) =>
      corresponds left right p q || corresponds right left p q) = true ↔ c.Mirrored p q := by
  simp only [List.any_eq_true, Bool.or_eq_true, corresponds_iff]
  constructor
  · rintro ⟨⟨l, r⟩, h, ⟨rest, hp, hq⟩ | ⟨rest, hp, hq⟩⟩
    · exact ⟨l, r, rest, mem_rootPairs_iff.mpr (.inl h), hp, hq⟩
    · exact ⟨r, l, rest, mem_rootPairs_iff.mpr (.inr h), hp, hq⟩
  · rintro ⟨l, r, rest, h, hp, hq⟩
    rcases mem_rootPairs_iff.mp h with h | h
    · exact ⟨(l, r), h, .inl ⟨rest, hp, hq⟩⟩
    · exact ⟨(r, l), h, .inr ⟨rest, hp, hq⟩⟩

instance (c : Conventions) (p q : PackagePath) : Decidable (c.Mirrored p q) :=
  decidable_of_iff _ any_corresponds_iff

lemma isSameLogicalPackage_iff :
    c.isSameLogicalPackage a b = true ↔ a = b ∨ a.cell = b.cell ∧ c.Mirrored a.path b.path := by
  rw [isSameLogicalPackage, Bool.or_eq_true, Bool.and_eq_true, any_corresponds_iff,
    decide_eq_true_eq, decide_eq_true_eq]

lemma mirrored_symm (h : c.Mirrored p q) : c.Mirrored q p := by
  obtain ⟨l, r, rest, hm, hp, hq⟩ := h
  exact ⟨r, l, rest, rootPairs_symm hm, hq, hp⟩

lemma mirrored_append (h : c.Mirrored p q) (x : PackagePath) : c.Mirrored (p ++ x) (q ++ x) := by
  obtain ⟨l, r, rest, hm, rfl, rfl⟩ := h
  exact ⟨l, r, rest ++ x, hm, PackagePath.append_assoc _ _ _, PackagePath.append_assoc _ _ _⟩

lemma mirrored_iff_segments :
    c.Mirrored p q ↔ ∃ l r, (l, r) ∈ c.logicalPairs ∧ ∃ rest : List (List Char),
      p.segments = l.segments ++ rest ∧ q.segments = r.segments ++ rest ∨
        p.segments = r.segments ++ rest ∧ q.segments = l.segments ++ rest := by
  constructor
  · rintro ⟨l, r, rest, h, rfl, rfl⟩
    rcases mem_rootPairs_iff.mp h with h | h
    · exact ⟨l, r, h, rest.segments, .inl ⟨by simp, by simp⟩⟩
    · exact ⟨r, l, h, rest.segments, .inr ⟨by simp, by simp⟩⟩
  · rintro ⟨l, r, h, rest, ⟨hp, hq⟩ | ⟨hp, hq⟩⟩
    · obtain ⟨t, rfl⟩ := PackagePath.exists_eq_append hp
      exact ⟨l, r, t, mem_rootPairs_iff.mpr (.inl h), PackagePath.eq_append_iff.mpr hp,
        PackagePath.eq_append_iff.mpr hq⟩
    · obtain ⟨t, rfl⟩ := PackagePath.exists_eq_append hp
      exact ⟨r, l, t, mem_rootPairs_iff.mpr (.inr h), PackagePath.eq_append_iff.mpr hp,
        PackagePath.eq_append_iff.mpr hq⟩

lemma isSameLogicalPackage_comm (c : Conventions) (a b : Package) :
    c.isSameLogicalPackage a b = c.isSameLogicalPackage b a := by
  have h : ∀ {a b}, c.isSameLogicalPackage a b = true → c.isSameLogicalPackage b a = true := by
    intro a b hab
    rw [isSameLogicalPackage_iff] at hab ⊢
    rcases hab with rfl | ⟨hc, hm⟩
    · exact .inl rfl
    · exact .inr ⟨hc.symm, mirrored_symm hm⟩
  exact Bool.eq_iff_iff.mpr ⟨h, h⟩

lemma cell_eq_of_isSameLogicalPackage (h : c.isSameLogicalPackage a b = true) :
    a.cell = b.cell := by
  rcases isSameLogicalPackage_iff.mp h with rfl | ⟨hc, _⟩
  · rfl
  · exact hc

lemma isSameLogicalPackage_descend (h : c.isSameLogicalPackage a b = true) (x : PackagePath) :
    c.isSameLogicalPackage (a.descend x) (b.descend x) = true := by
  rw [isSameLogicalPackage_iff] at h ⊢
  rcases h with rfl | ⟨hc, hm⟩
  · exact .inl rfl
  · exact .inr ⟨hc, mirrored_append hm x⟩

lemma coherent_iff_rest? :
    c.Coherent ↔ ∀ first ∈ c.rootPairs, ∀ second ∈ c.rootPairs, ∀ t ∈ first.2.rest? second.1,
      first.1 = second.2 ++ t ∨ c.Mirrored first.1 (second.2 ++ t) := by
  constructor
  · rintro h ⟨l, r⟩ hlr ⟨l', r'⟩ hlr' t ht
    exact h l r l' r' t hlr hlr' (PackagePath.rest?_eq_some_iff.mp ht)
  · intro h l r l' r' t hlr hlr' ht
    exact h (l, r) hlr (l', r') hlr' t (PackagePath.rest?_eq_some_iff.mpr ht)

instance (c : Conventions) : Decidable c.Coherent := decidable_of_iff _ coherent_iff_rest?.symm

lemma trans_of_coherent (h : c.Coherent) {d : Package} (hab : c.isSameLogicalPackage a b = true)
    (hbd : c.isSameLogicalPackage b d = true) : c.isSameLogicalPackage a d = true := by
  rw [isSameLogicalPackage_iff] at hab hbd ⊢
  rcases hab with rfl | ⟨hc, l, r, x, hlr, ha, hb⟩
  · exact hbd
  rcases hbd with rfl | ⟨hc', l', r', y, hlr', hb', hd⟩
  · exact .inr ⟨hc, l, r, x, hlr, ha, hb⟩
  have hcell : a.cell = d.cell := hc.trans hc'
  have hmirror : a.path = d.path ∨ c.Mirrored a.path d.path := by
    rcases PackagePath.append_eq_append (hb.symm.trans hb') with ⟨t, ht, rfl⟩ | ⟨t, ht, rfl⟩
    · -- The second root stands at `t` below the first one.
      rw [ha, hd, ← PackagePath.append_assoc]
      rcases h r' l' r l t (rootPairs_symm hlr') (rootPairs_symm hlr) ht with hr | hm
      · exact .inl (by rw [hr])
      · exact .inr (mirrored_append (mirrored_symm hm) y)
    · rw [ha, hd, ← PackagePath.append_assoc]
      rcases h l r l' r' t hlr hlr' ht with hl | hm
      · exact .inl (by rw [hl])
      · exact .inr (mirrored_append hm x)
  rcases hmirror with hp | hm
  · exact .inl (Package.ext hcell hp)
  · exact .inr ⟨hcell, hm⟩

lemma isSameLogicalPackage_in_cell_iff (cell : Cell) :
    c.isSameLogicalPackage ⟨cell, p⟩ ⟨cell, q⟩ = true ↔ p = q ∨ c.Mirrored p q := by
  rw [isSameLogicalPackage_iff]
  constructor
  · rintro (h | ⟨_, hm⟩)
    · exact .inl (congrArg Package.path h)
    · exact .inr hm
  · rintro (rfl | hm)
    · exact .inl rfl
    · exact .inr ⟨rfl, hm⟩

lemma same_of_overlap {l' r' t : PackagePath} (hlr : (l, r) ∈ c.rootPairs)
    (hlr' : (l', r') ∈ c.rootPairs) (ht : r = l' ++ t) (cell : Cell) :
    c.isSameLogicalPackage ⟨cell, l⟩ ⟨cell, r⟩ = true ∧
    c.isSameLogicalPackage ⟨cell, r⟩ ⟨cell, r' ++ t⟩ = true ∧
    (c.isSameLogicalPackage ⟨cell, l⟩ ⟨cell, r' ++ t⟩ = true ↔
      l = r' ++ t ∨ c.Mirrored l (r' ++ t)) := by
  have hl : c.Mirrored l r :=
    ⟨l, r, .root, hlr, (PackagePath.append_root l).symm, (PackagePath.append_root r).symm⟩
  have hr : c.Mirrored r (r' ++ t) := ⟨l', r', t, hlr', ht, rfl⟩
  refine ⟨?_, ?_, isSameLogicalPackage_in_cell_iff cell⟩
  · exact (isSameLogicalPackage_in_cell_iff cell).mpr (.inr hl)
  · exact (isSameLogicalPackage_in_cell_iff cell).mpr (.inr hr)

lemma coherent_of_trans
    (h : ∀ a b d, c.isSameLogicalPackage a b = true → c.isSameLogicalPackage b d = true →
      c.isSameLogicalPackage a d = true) : c.Coherent := by
  intro l r l' r' t hlr hlr' ht
  obtain ⟨hl, hr, hboth⟩ := same_of_overlap hlr hlr' ht default
  exact hboth.mp (h _ _ _ hl hr)

theorem logical_packages_mirror_pairs (c : Conventions) :
    (∀ a, c.isSameLogicalPackage a a = true) ∧
    (∀ a b, c.isSameLogicalPackage a b = c.isSameLogicalPackage b a) ∧
    (∀ a b, c.isSameLogicalPackage a b = true → a.cell = b.cell) ∧
    (∀ a b, a ≠ b → a.cell = b.cell →
      (c.isSameLogicalPackage a b = true ↔
        ∃ l r, (l, r) ∈ c.logicalPairs ∧ ∃ rest : List (List Char),
          a.path.segments = l.segments ++ rest ∧ b.path.segments = r.segments ++ rest ∨
            a.path.segments = r.segments ++ rest ∧ b.path.segments = l.segments ++ rest)) ∧
    ∀ a b, c.isSameLogicalPackage a b = true → ∀ x,
      c.isSameLogicalPackage (a.descend x) (b.descend x) = true := by
  refine ⟨isSameLogicalPackage_self c, isSameLogicalPackage_comm c,
    fun a b => cell_eq_of_isSameLogicalPackage, ?_, fun a b h x => isSameLogicalPackage_descend h x⟩
  intro a b hab hc
  rw [isSameLogicalPackage_iff, ← mirrored_iff_segments]
  constructor
  · rintro (h | ⟨_, hm⟩)
    · exact absurd h hab
    · exact hm
  · intro hm
    exact .inr ⟨hc, hm⟩

theorem logical_packages_mirror_pairs_at_root :
    let tests : PackagePath := ⟨"tests", by decide +kernel⟩
    let lib : PackagePath := ⟨"lib/io", by decide +kernel⟩
    let c : Conventions := { Conventions.standard with logicalPairs := [(tests, .root)] }
    let a : Package := ⟨default, tests ++ lib⟩
    let b : Package := ⟨default, lib⟩
    a ≠ b ∧ a.cell = b.cell ∧ c.isSameLogicalPackage a b = true ∧
      (∃ l r, (l, r) ∈ c.logicalPairs ∧ ∃ rest : List (List Char),
        a.path.segments = l.segments ++ rest ∧ b.path.segments = r.segments ++ rest ∨
          a.path.segments = r.segments ++ rest ∧ b.path.segments = l.segments ++ rest) ∧
      c.isSameLogicalPackage (a.descend tests) (b.descend tests) = true := by
  intro tests lib c a b
  obtain ⟨-, -, -, hpairs, hdescend⟩ := logical_packages_mirror_pairs c
  have hab : a ≠ b := by decide +kernel
  have hs : c.isSameLogicalPackage a b = true := by decide +kernel
  exact ⟨hab, rfl, hs, (hpairs a b hab rfl).mp hs, hdescend a b hs tests⟩

theorem logical_packages_equivalence_iff (c : Conventions) :
    ((∀ a b d, c.isSameLogicalPackage a b = true → c.isSameLogicalPackage b d = true →
      c.isSameLogicalPackage a d = true) ↔ c.Coherent) ∧
    (Equivalence (fun a b => c.isSameLogicalPackage a b = true) ↔ c.Coherent) ∧
    ∀ l r l' r' t, (l, r) ∈ c.rootPairs → (l', r') ∈ c.rootPairs → r = l' ++ t → ∀ cell : Cell,
      c.isSameLogicalPackage ⟨cell, l⟩ ⟨cell, r⟩ = true ∧
      c.isSameLogicalPackage ⟨cell, r⟩ ⟨cell, r' ++ t⟩ = true ∧
      (c.isSameLogicalPackage ⟨cell, l⟩ ⟨cell, r' ++ t⟩ = true ↔
        l = r' ++ t ∨ c.Mirrored l (r' ++ t)) := by
  refine ⟨⟨coherent_of_trans, fun h a b d => trans_of_coherent h⟩, ⟨?_, ?_⟩, ?_⟩
  · intro h
    exact coherent_of_trans fun a b d => h.trans
  · intro h
    refine ⟨isSameLogicalPackage_self c, ?_, trans_of_coherent h⟩
    intro a b hab
    rw [isSameLogicalPackage_comm, hab]
  · intro l r l' r' t hlr hlr' ht cell
    exact same_of_overlap hlr hlr' ht cell

theorem logical_packages_equivalence_fails_for_shared_root :
    let docs : PackagePath := ⟨"docs", by decide +kernel⟩
    let site : PackagePath := ⟨"site", by decide +kernel⟩
    let wiki : PackagePath := ⟨"wiki", by decide +kernel⟩
    let c : Conventions := { Conventions.standard with logicalPairs := [(docs, site), (wiki, site)] }
    let cell : Cell := ⟨"third", by decide, by decide⟩
    (docs, site) ∈ c.rootPairs ∧ (site, wiki) ∈ c.rootPairs ∧ site = site ++ .root ∧
      c.isSameLogicalPackage ⟨cell, docs⟩ ⟨cell, site⟩ = true ∧
      c.isSameLogicalPackage ⟨cell, site⟩ ⟨cell, wiki ++ .root⟩ = true ∧
      c.isSameLogicalPackage ⟨cell, docs⟩ ⟨cell, wiki ++ .root⟩ = false ∧
      ¬ c.Coherent := by
  intro docs site wiki c cell
  have hm : (docs, site) ∈ c.rootPairs := by decide +kernel
  have hm' : (site, wiki) ∈ c.rootPairs := by decide +kernel
  have ht : site = site ++ .root := (PackagePath.append_root site).symm
  have hnot : ¬ (docs = wiki ++ .root ∨ c.Mirrored docs (wiki ++ .root)) := by decide +kernel
  obtain ⟨-, -, hmeet⟩ := logical_packages_equivalence_iff c
  obtain ⟨hl, hr, hboth⟩ := hmeet docs site site wiki .root hm hm' ht cell
  have hfar : c.isSameLogicalPackage ⟨cell, docs⟩ ⟨cell, wiki ++ .root⟩ = false :=
    Bool.eq_false_iff.mpr fun h => hnot (hboth.mp h)
  exact ⟨hm, hm', ht, hl, hr, hfar, fun h => hnot (h _ _ _ _ _ hm hm' ht)⟩

example :
    let javatests : PackagePath := ⟨"javatests", by decide +kernel⟩
    let java : PackagePath := ⟨"java", by decide +kernel⟩
    Coherent { Conventions.standard with logicalPairs := [(javatests, java)] } ∧
      ¬ Coherent { Conventions.standard with logicalPairs := [(java, java ++ javatests)] } := by
  decide +kernel

theorem chained_pairs_not_transitive :
    let unit : PackagePath := ⟨"unit", by decide +kernel⟩
    let src : PackagePath := ⟨"src", by decide +kernel⟩
    let gen : PackagePath := ⟨"gen", by decide +kernel⟩
    let chained : Conventions := { Conventions.standard with logicalPairs := [(unit, src), (src, gen)] }
    (∃ settings,
      Settings.parse "[depcheck]\nlogical_package_pairs = unit=src, src=gen\n" ".buckconfig" =
        .ok settings ∧ ofSettings settings = .ok chained) ∧
    chained.isSameLogicalPackage ⟨default, unit⟩ ⟨default, src⟩ = true ∧
    chained.isSameLogicalPackage ⟨default, src⟩ ⟨default, gen⟩ = true ∧
    chained.isSameLogicalPackage ⟨default, unit⟩ ⟨default, gen⟩ = false := by
  intro unit src gen chained
  refine ⟨⟨_, rfl, rfl⟩, ?_, ?_, ?_⟩
  all_goals decide +kernel

end Conventions

end EdgeAdmission
