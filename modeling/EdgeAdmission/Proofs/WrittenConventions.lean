import EdgeAdmission.Conventions
import EdgeAdmission.Proofs.Overlays
import EdgeAdmission.Proofs.PathSegments

namespace EdgeAdmission

open Text Reading

namespace Settings

inductive Enumerates {α : Type} (Spells : α → List Char → Prop) : List α → List (List Char) → Prop
  | nil : Enumerates Spells [] []
  | blank {part : List Char} {as : List α} {parts : List (List Char)} (hp : Pads [] part)
      (h : Enumerates Spells as parts) : Enumerates Spells as (part :: parts)
  | item {a : α} {core part : List Char} {as : List α} {parts : List (List Char)}
      (ha : Spells a core) (hp : Pads core part) (h : Enumerates Spells as parts) :
      Enumerates Spells (a :: as) (part :: parts)

section Items

variable {α ε : Type} {Spells : α → List Char → Prop} {as : List α} {parts : List (List Char)}
  {core line a s : List Char} {c : Char}

lemma not_mem_blanks (ha : ∀ d ∈ a, isBlank d = true) (hc : isBlank c = false) : c ∉ a := by
  intro h
  rw [ha c h] at hc
  cases hc

lemma not_mem_of_pads (h : Pads core line) (hc : isBlank c = false) (hn : c ∉ core) :
    c ∉ line := by
  obtain ⟨a, b, rfl, ha, hb⟩ := h
  simp only [List.mem_append, not_or]
  exact ⟨⟨not_mem_blanks ha hc, hn⟩, not_mem_blanks hb hc⟩

lemma pads_trim (s : List Char) : Pads (trim s) s := by
  obtain ⟨a, ha, hab⟩ := exists_eq_append_trimStart s
  obtain ⟨b, hb, hbb⟩ := exists_eq_trimEnd_append (trimStart s)
  refine ⟨a, b, ?_, hab, hbb⟩
  rw [trim, List.append_assoc, ← hb, ← ha]

lemma trim_splitOn_append_left (ha : ∀ d ∈ a, isBlank d = true) (s : List Char) :
    ((a ++ s).splitOn ',').map trim = (s.splitOn ',').map trim := by
  have hn : ',' ∉ a := not_mem_blanks ha rfl
  cases h : cut? ',' s with
  | none =>
    have hs : ',' ∉ s := cut?_eq_none_iff.mp h
    have has : ',' ∉ a ++ s := by simp [hn, hs]
    rw [List.splitOn_eq_singleton hs, List.splitOn_eq_singleton has]
    simp [trim_append_left ha]
  | some parts =>
    obtain ⟨rfl, hx⟩ := cut?_eq_some_iff.mp h
    have hax : ',' ∉ a ++ parts.1 := by simp [hn, hx]
    rw [← List.append_assoc, List.splitOn_append_cons_self_of_not_mem hx,
      List.splitOn_append_cons_self_of_not_mem hax]
    simp [trim_append_left ha]

lemma trim_splitOn_append_right (ha : ∀ d ∈ a, isBlank d = true) (s : List Char) :
    ((s ++ a).splitOn ',').map trim = (s.splitOn ',').map trim := by
  have hn : ',' ∉ a := not_mem_blanks ha rfl
  cases h : cutLast? ',' s with
  | none =>
    have hs : ',' ∉ s := cutLast?_eq_none_iff.mp h
    have hsa : ',' ∉ s ++ a := by simp [hn, hs]
    rw [List.splitOn_eq_singleton hs, List.splitOn_eq_singleton hsa]
    simp [trim_append_right ha]
  | some parts =>
    obtain ⟨rfl, hy⟩ := cutLast?_eq_some_iff.mp h
    have hya : ',' ∉ parts.2 ++ a := by simp [hn, hy]
    rw [List.append_assoc, List.cons_append, List.splitOn_append_cons_self,
      List.splitOn_append_cons_self, List.splitOn_eq_singleton hy, List.splitOn_eq_singleton hya]
    simp [trim_append_right ha]

lemma items_of_pads (h : Pads core line) : items (.ofList line) = items (.ofList core) := by
  obtain ⟨a, b, rfl, ha, hb⟩ := h
  simp only [items, String.toList_ofList]
  rw [trim_splitOn_append_right hb, trim_splitOn_append_left ha]

lemma Enumerates.not_mem_part (h : Enumerates Spells as parts) (hc : isBlank c = false)
    (hn : ∀ a ∈ as, ∀ core, Spells a core → c ∉ core) : ∀ part ∈ parts, c ∉ part := by
  induction h with
  | nil => simp
  | blank hp _ ih =>
    rw [List.forall_mem_cons]
    exact ⟨not_mem_of_pads hp hc List.not_mem_nil, ih hn⟩
  | item ha hp _ ih =>
    rw [List.forall_mem_cons] at hn ⊢
    exact ⟨not_mem_of_pads hp hc (hn.1 _ ha), ih hn.2⟩

lemma Enumerates.mapM_trimmed {read : String → Except ε α} (h : Enumerates Spells as parts)
    (hr : ∀ a ∈ as, ∀ core, Spells a core → trim core ≠ [] ∧ read (.ofList (trim core)) = .ok a) :
    (((parts.map trim).filter (· ≠ [])).map String.ofList).mapM read = .ok as := by
  rw [mapM_eq_ok_iff, List.forall₂_map_left_iff]
  induction h with
  | nil => exact .nil
  | blank hp _ ih =>
    rw [List.map_cons, trim_of_pads hp, List.filter_cons_of_neg (by simp)]
    exact ih hr
  | @item a core part as parts ha hp _ ih =>
    rw [List.forall_mem_cons] at hr
    obtain ⟨hne, hread⟩ := hr.1 core ha
    rw [List.map_cons, trim_of_pads hp, List.filter_cons_of_pos (by simpa using hne)]
    exact .cons hread (ih hr.2)

lemma Enumerates.mapM_items {read : String → Except ε α} (h : Enumerates Spells as parts)
    (hc : ∀ a ∈ as, ∀ core, Spells a core → ',' ∉ core)
    (hr : ∀ a ∈ as, ∀ core, Spells a core → trim core ≠ [] ∧ read (.ofList (trim core)) = .ok a) :
    (items (.ofList ([','].intercalate parts))).mapM read = .ok as := by
  have hm := h.mapM_trimmed hr
  rw [items, String.toList_ofList]
  by_cases hp : parts = []
  · -- The empty text has one part, which is dropped like every blank one.
    subst hp
    exact hm
  · rwa [List.splitOn_intercalate ',' (h.not_mem_part rfl hc) hp]

end Items

section Lines

variable {lines : List (List Char)} {as : List Setting} {text ending path : String}

lemma parse_of_lines (hn : lines ≠ []) (hl : ∀ line ∈ lines, '\n' ∉ line)
    (ht : text.toList = ['\n'].intercalate lines) (he : ending = "" ∨ ending = "\n")
    (ha : assignmentsOf none 1 lines = .ok as) : parse (text ++ ending) path = .ok ⟨path, as⟩ := by
  have hs : text.toList.splitOn '\n' = lines := by rw [ht, List.splitOn_intercalate '\n' hl hn]
  rw [parse_eq_ok_iff, ← assignmentsOf_lines]
  refine ⟨rfl, ?_⟩
  rcases he with rfl | rfl
  · rwa [String.append_empty, hs]
  · have hend : (text ++ "\n").toList = text.toList ++ '\n' :: [] := String.toList_append
    rwa [hend, List.splitOn_append_cons_self, hs, List.splitOn_nil, assignmentsOf_concat_nil]

lemma isAssignment_of_property {property : String} {c : Char} (value : List Char)
    (hh : property.toList.head? = some c) (hb : isBlank c = false)
    (hc : c ≠ '#' ∧ c ≠ ';' ∧ c ≠ '[') (hn : '=' ∉ property.toList)
    (hp : trim property.toList = property.toList) :
    Line.IsAssignment (property.toList ++ ' ' :: '=' :: ' ' :: value) property
      (.ofList (trim value)) := by
  have hspace : ∀ d ∈ [' '], isBlank d = true := List.forall_mem_singleton.mpr rfl
  obtain ⟨rest, hrest⟩ := List.head?_eq_some_iff.mp hh
  have hsplit : property.toList ++ ' ' :: '=' :: ' ' :: value =
      (c :: rest ++ [' ']) ++ '=' :: ' ' :: value := by simp [hrest]
  have ht : trim (property.toList ++ ' ' :: '=' :: ' ' :: value) =
      c :: (rest ++ [' ']) ++ '=' :: trimEnd (' ' :: value) := by
    rw [hsplit, trim_append_cons rfl]
    simp [trimStart, hb]
  rw [hrest] at hn hp
  refine ⟨⟨?_, ?_, ?_⟩, ?_, c :: (rest ++ [' ']), trimEnd (' ' :: value), ht, ?_, ?_, ?_, ?_⟩
  · rw [ht]
    exact List.cons_ne_nil _ _
  · rw [ht]
    simpa using hc.1
  · rw [ht]
    simpa using hc.2.1
  · rw [ht]
    simpa using hc.2.2
  · simpa using hn
  · rw [← List.cons_append, trim_append_right hspace, hp, hrest]
  · rintro rfl
    cases hrest
  · rw [String.toList_ofList, trim_trimEnd]
    exact trim_append_left hspace value

end Lines

end Settings

namespace Conventions

open Settings

/-- A path that stands in a list as it is: no comma ends it and no outer blank is trimmed. -/
structure Listable (p : PackagePath) : Prop where
  no_comma : ',' ∉ p.text.toList
  trimmed : trim p.text.toList = p.text.toList

def SpellsRoot (p : PackagePath) (core : List Char) : Prop := core = p.text.toList

def SpellsPair (pair : PackagePath × PackagePath) (core : List Char) : Prop :=
  ∃ left right, Pads pair.1.text.toList left ∧ Pads pair.2.text.toList right ∧
    core = left ++ '=' :: right

variable {p : PackagePath} {pair : PackagePath × PackagePath} {core : List Char}
  {roots : List PackagePath} {pairs : List (PackagePath × PackagePath)}
  {rootParts pairParts : List (List Char)} {rootItems pairItems : List String}
  {settings : Settings}

lemma parse_of_spellsRoot (hp : p ≠ .root) (hl : Listable p) (h : SpellsRoot p core) :
    trim core ≠ [] ∧ (PackagePath.parse (.ofList (trim core))).mapError
      (ConventionsFault.path rootsKey) = .ok p := by
  obtain rfl := h
  rw [hl.trimmed, String.ofList_toList]
  exact ⟨PackagePath.toList_text_eq_nil_iff.not.mpr hp,
    mapError_eq_ok_iff.mpr (PackagePath.parse_text p)⟩

lemma parsePair_of_spells (hl : Listable pair.1) (hr : Listable pair.2)
    (he : '=' ∉ pair.1.text.toList) (h : SpellsPair pair core) :
    trim core ≠ [] ∧ parsePair (.ofList (trim core)) = .ok pair := by
  obtain ⟨left, right, hleft, hright, rfl⟩ := h
  have ht : trim (left ++ '=' :: right) = trimStart left ++ '=' :: trimEnd right :=
    trim_append_cons rfl
  have hn : '=' ∉ trimStart left := by
    intro hm
    exact not_mem_of_pads hleft rfl he ((List.dropWhile_sublist _).subset hm)
  have hc : cut? '=' (trimStart left ++ '=' :: trimEnd right) =
      some (trimStart left, trimEnd right) := cut?_eq_some_iff.mpr ⟨rfl, hn⟩
  rw [ht]
  refine ⟨by simp, ?_⟩
  rw [parsePair, String.toList_ofList, hc]
  simp only [trim_trimStart, trim_trimEnd, trim_of_pads hleft, trim_of_pads hright, hl.trimmed,
    hr.trimmed, String.ofList_toList, PackagePath.parse_text]
  rfl

lemma comma_not_mem_of_spellsPair (hl : Listable pair.1) (hr : Listable pair.2)
    (h : SpellsPair pair core) : ',' ∉ core := by
  obtain ⟨left, right, hleft, hright, rfl⟩ := h
  have hnl : ',' ∉ left := not_mem_of_pads hleft rfl hl.no_comma
  have hnr : ',' ∉ right := not_mem_of_pads hright rfl hr.no_comma
  simp [hnl, hnr]

lemma ofSettings_of_lists (hr : settings.list? rootsKey = some rootItems)
    (hroots : parseRoots rootItems = .ok roots) (hp : settings.list? pairsKey = some pairItems)
    (hpairs : pairItems.mapM parsePair = .ok pairs)
    (he : settings.find? (.ofCheck "check_visibility_for_experimental") = none)
    (ht : settings.find? (.ofCheck "check_visibility_for_toolchains") = none) :
    ofSettings settings = .ok ⟨roots, false, true, pairs⟩ := by
  have hexperimental : settings.value? .truth (.ofCheck "check_visibility_for_experimental") =
      .ok none := by rw [value?, he]
  have htoolchains : settings.value? .truth (.ofCheck "check_visibility_for_toolchains") =
      .ok none := by rw [value?, ht]
  rw [ofSettings, hr, hp, hexperimental, htoolchains]
  simp only [hroots, Option.getD_some, hpairs]
  rfl

lemma parse_written {rootText pairText : List Char} {ending : String} (hr : '\n' ∉ rootText)
    (hp : '\n' ∉ pairText) (he : ending = "" ∨ ending = "\n") (path : String) :
    parse ("[depcheck]\nexperimental_roots = " ++ .ofList rootText ++
        "\nlogical_package_pairs = " ++ .ofList pairText ++ ending) path =
      .ok ⟨path, [⟨rootsKey, .ofList (trim rootText), 2⟩,
        ⟨pairsKey, .ofList (trim pairText), 3⟩]⟩ := by
  let rootLine := "experimental_roots".toList ++ ' ' :: '=' :: ' ' :: rootText
  let pairLine := "logical_package_pairs".toList ++ ' ' :: '=' :: ' ' :: pairText
  have hheader : Line.IsHeader "[depcheck]".toList "depcheck" := Line.isHeader_iff.mpr (by decide)
  have hroot : Line.IsAssignment rootLine "experimental_roots" (.ofList (trim rootText)) :=
    isAssignment_of_property rootText rfl rfl (by decide) (by decide) (by decide)
  have hpair : Line.IsAssignment pairLine "logical_package_pairs" (.ofList (trim pairText)) :=
    isAssignment_of_property pairText rfl rfl (by decide) (by decide) (by decide)
  have hlines : ∀ line ∈ ["[depcheck]".toList, rootLine, pairLine], '\n' ∉ line := by
    simp [rootLine, pairLine, hr, hp]
  refine parse_of_lines (List.cons_ne_nil _ _) hlines ?_ he ?_
  · simp [rootLine, pairLine]
  · rw [assignmentsOf_header hheader, assignmentsOf_assignment hroot,
      assignmentsOf_assignment hpair]
    rfl

/-- Roots and pairs that are written as lists, each on its line and with any blanks and blank items,
are read back in their order. An empty list of roots is no missing one: it leaves no package
experimental. -/
theorem written_lists_read_back (roots : List PackagePath)
    (pairs : List (PackagePath × PackagePath)) (rootParts pairParts : List (List Char))
    (ending path : String) (hr : ∀ p ∈ roots, p ≠ .root ∧ Listable p)
    (hp : ∀ pair ∈ pairs, Listable pair.1 ∧ Listable pair.2 ∧ '=' ∉ pair.1.text.toList)
    (hroots : Enumerates SpellsRoot roots rootParts)
    (hpairs : Enumerates SpellsPair pairs pairParts)
    (hline : ∀ part ∈ rootParts ++ pairParts, '\n' ∉ part) (he : ending = "" ∨ ending = "\n") :
    let text := "[depcheck]\nexperimental_roots = " ++ .ofList ([','].intercalate rootParts) ++
      "\nlogical_package_pairs = " ++ .ofList ([','].intercalate pairParts) ++ ending
    let c : Conventions := ⟨roots, false, true, pairs⟩
    (∃ settings, Settings.parse text path = .ok settings ∧ ofSettings settings = .ok c) ∧
      (roots = [] → ∀ a, c.isExperimental a = false) := by
  intro text c
  rw [List.forall_mem_append] at hline
  have hrootLine : '\n' ∉ [','].intercalate rootParts :=
    PackagePath.not_mem_intercalate hline.1 (by decide)
  have hpairLine : '\n' ∉ [','].intercalate pairParts :=
    PackagePath.not_mem_intercalate hline.2 (by decide)
  have hreadRoots : parseRoots (items (.ofList (trim ([','].intercalate rootParts)))) =
      .ok roots := by
    rw [← items_of_pads (pads_trim _)]
    apply hroots.mapM_items
    · intro p hm core h
      exact h ▸ (hr p hm).2.no_comma
    · intro p hm core
      exact parse_of_spellsRoot (hr p hm).1 (hr p hm).2
  have hreadPairs : (items (.ofList (trim ([','].intercalate pairParts)))).mapM parsePair =
      .ok pairs := by
    rw [← items_of_pads (pads_trim _)]
    apply hpairs.mapM_items
    · intro pair hm core
      exact comma_not_mem_of_spellsPair (hp pair hm).1 (hp pair hm).2.1
    · intro pair hm core
      exact parsePair_of_spells (hp pair hm).1 (hp pair hm).2.1 (hp pair hm).2.2
  refine ⟨⟨_, parse_written hrootLine hpairLine he path, ?_⟩, ?_⟩
  · exact ofSettings_of_lists rfl hreadRoots rfl hreadPairs rfl rfl
  · rintro rfl a
    rfl

theorem written_lists_read_back_of_loose_text :
    let sandbox : PackagePath := ⟨"sandbox", by decide +kernel⟩
    let labs : PackagePath := ⟨"labs/a=b", by decide +kernel⟩
    let text := "[depcheck]\nexperimental_roots =  sandbox,,labs/a=b\t\n" ++
      "logical_package_pairs = sandbox = labs/a=b, ,=sandbox"
    let empty := "[depcheck]\nexperimental_roots = \nlogical_package_pairs = \n"
    let c : Conventions := ⟨[sandbox, labs], false, true, [(sandbox, labs), (.root, sandbox)]⟩
    (∃ settings, Settings.parse text "cfg" = .ok settings ∧ ofSettings settings = .ok c) ∧
      (∃ settings, Settings.parse empty "cfg" = .ok settings ∧
        ofSettings settings = .ok ⟨[], false, true, []⟩) ∧
      ∀ a, isExperimental ⟨[], false, true, []⟩ a = false := by
  intro sandbox labs text empty c
  have hsandbox : Listable sandbox := ⟨by decide +kernel, by decide +kernel⟩
  have hlabs : Listable labs := ⟨by decide +kernel, by decide +kernel⟩
  have hroot : Listable .root := ⟨by decide +kernel, by decide +kernel⟩
  have hne : sandbox ≠ .root ∧ labs ≠ .root := by decide +kernel
  have hroots : Enumerates SpellsRoot [sandbox, labs]
      [" sandbox".toList, [], "labs/a=b\t".toList] :=
    .item rfl (pads_append [' '] "sandbox".toList [] rfl rfl) (.blank (pads_self [])
      (.item rfl (pads_append [] "labs/a=b".toList ['\t'] rfl rfl) .nil))
  have hpair : SpellsPair (sandbox, labs) "sandbox = labs/a=b".toList :=
    ⟨"sandbox ".toList, " labs/a=b".toList, pads_append [] "sandbox".toList [' '] rfl rfl,
      pads_append [' '] "labs/a=b".toList [] rfl rfl, rfl⟩
  have hopen : SpellsPair (.root, sandbox) "=sandbox".toList :=
    ⟨[], "sandbox".toList, pads_self [], pads_self _, rfl⟩
  have hpairs : Enumerates SpellsPair [(sandbox, labs), (.root, sandbox)]
      ["sandbox = labs/a=b".toList, [' '], "=sandbox".toList] :=
    .item hpair (pads_self _) (.blank (pads_append [' '] [] [] rfl rfl)
      (.item hopen (pads_self _) .nil))
  have hequals : '=' ∉ sandbox.text.toList ∧ '=' ∉ PackagePath.root.text.toList := by
    decide +kernel
  obtain ⟨hread, -⟩ := written_lists_read_back _ _ _ _ "" "cfg" (by simp [hne, hsandbox, hlabs])
    (by simp [hsandbox, hlabs, hroot, hequals]) hroots hpairs (by decide +kernel) (.inl rfl)
  obtain ⟨hreadEmpty, hnone⟩ := written_lists_read_back [] [] [] [] "\n" "cfg" (by simp)
    (by simp) .nil .nil (by simp) (.inr rfl)
  have ht : text = "[depcheck]\nexperimental_roots = " ++
      .ofList ([','].intercalate [" sandbox".toList, [], "labs/a=b\t".toList]) ++
      "\nlogical_package_pairs = " ++
      .ofList ([','].intercalate ["sandbox = labs/a=b".toList, [' '], "=sandbox".toList]) ++ "" := by
    decide +kernel
  refine ⟨?_, hreadEmpty, hnone rfl⟩
  rw [ht]
  exact hread

end Conventions

end EdgeAdmission
