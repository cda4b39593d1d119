import EdgeAdmission.ExtensionFile
import EdgeAdmission.Label
import EdgeAdmission.Proofs.PathSegments
import EdgeAdmission.Proofs.Reading

namespace EdgeAdmission

open Reading

def Cell.IsName (name : String) : Prop :=
  name ≠ "" ∧ '/' ∉ name.toList ∧ ':' ∉ name.toList ∧ '@' ∉ name.toList

def PackagePath.IsNormal (text : String) : Prop :=
  text = "" ∨ '\\' ∉ text.toList ∧
    ∀ segment ∈ text.toList.splitOn '/', segment ≠ [] ∧ segment ≠ ['.'] ∧ segment ≠ ['.', '.']

def TargetName.IsName (name : String) : Prop :=
  name ≠ "" ∧ ':' ∉ name.toList ∧ name.toList.head? ≠ some '/' ∧ name.toList.getLast? ≠ some '/'

instance (name : String) : Decidable (Cell.IsName name) := inferInstanceAs (Decidable (_ ∧ _))

instance (text : String) : Decidable (PackagePath.IsNormal text) :=
  inferInstanceAs (Decidable (_ ∨ _))

instance (name : String) : Decidable (TargetName.IsName name) :=
  inferInstanceAs (Decidable (_ ∧ _))

inductive Package.Spells (current cell path : String) : String → Prop
  | full : Spells current cell path (cell ++ "//" ++ path)
  | sigil : Spells current cell path ("@" ++ cell ++ "//" ++ path)
  | own (h : cell = current) : Spells current cell path ("//" ++ path)
  | ownSigil (h : cell = current) : Spells current cell path ("@//" ++ path)

namespace Cell

lemma isName (k : Cell) : IsName k.name := by
  have hd := k.undelimited
  simp only [List.any_eq_false, isDelimiter, Bool.or_eq_true, decide_eq_true_eq, not_or] at hd
  exact ⟨k.nonempty, fun h => (hd _ h).1.1 rfl, fun h => (hd _ h).1.2 rfl, fun h => (hd _ h).2 rfl⟩

lemma exists_name_iff {name : String} : (∃ k : Cell, k.name = name) ↔ IsName name := by
  constructor
  · rintro ⟨k, rfl⟩
    exact k.isName
  · rintro ⟨hn, hs, hc, ha⟩
    refine ⟨⟨name, hn, ?_⟩, rfl⟩
    simp only [List.any_eq_false, isDelimiter, Bool.or_eq_true, decide_eq_true_eq, not_or]
    intro c h
    exact ⟨⟨fun hx => hs (hx ▸ h), fun hx => hc (hx ▸ h)⟩, fun hx => ha (hx ▸ h)⟩

lemma dropSigil_eq_iff {reference name : List Char} :
    dropSigil reference = name ↔
      reference = '@' :: name ∨ reference = name ∧ name.head? ≠ some '@' := by
  cases reference with
  | nil => grind [dropSigil]
  | cons c reference =>
    by_cases hc : c = '@'
    · subst hc
      grind [dropSigil]
    · have hd : dropSigil (c :: reference) = c :: reference := by simp [dropSigil, hc]
      grind

lemma head?_name (k : Cell) : k.name.toList.head? ≠ some '@' :=
  fun h => k.isName.2.2.2 (List.mem_of_head? h)

lemma name_ne_nil (k : Cell) : k.name.toList ≠ [] := by
  simpa using k.nonempty

lemma resolve_eq_ok_iff {reference : List Char} {current k : Cell} :
    resolve reference current = .ok k ↔
      (reference = k.name.toList ∨ reference = '@' :: k.name.toList) ∨
        k = current ∧ (reference = [] ∨ reference = ['@']) := by
  have hk := k.name_ne_nil
  have hh := k.head?_name
  -- No name is empty or starts with the sigil, so only one of the two readings is possible.
  by_cases h : dropSigil reference = []
  · rw [resolve, if_pos h]
    rw [dropSigil_eq_iff] at h
    constructor
    · intro hc
      obtain rfl : current = k := Except.ok.inj hc
      exact .inr ⟨rfl, h.symm.imp And.left id⟩
    · rintro ((rfl | rfl) | ⟨rfl, _⟩)
      · grind
      · simp [hk] at h
      · rfl
  · rw [resolve, if_neg h, parse_eq_ok_iff, ← String.toList_inj, String.toList_ofList,
      dropSigil_eq_iff]
    rw [dropSigil_eq_iff] at h
    grind

lemma no_slash_of_resolve {reference : List Char} {current k : Cell}
    (h : resolve reference current = .ok k) : '/' ∉ reference := by
  have hk := k.isName.2.1
  rw [resolve_eq_ok_iff] at h
  rcases h with (rfl | rfl) | ⟨_, rfl | rfl⟩ <;> simp [hk]

end Cell

lemma PackagePath.exists_text_iff {text : String} :
    (∃ p : PackagePath, p.text = text) ↔ IsNormal text := by
  have hd : defect? text.toList = none ↔ IsNormal text := by
    rw [defect?_eq_none_iff]
    by_cases ht : text = ""
    · simp [ht, IsNormal, segmentsOf]
    · have hs : segmentsOf text.toList = text.toList.splitOn '/' := if_neg (by simpa using ht)
      simp only [hs, segmentDefect?_eq_none_iff, IsNormal, ht, false_or]
  constructor
  · rintro ⟨p, rfl⟩
    exact hd.mp p.normal
  · intro h
    exact ⟨⟨text, hd.mpr h⟩, rfl⟩

lemma TargetName.parse_eq_ok_iff {text : String} {n : TargetName} :
    parse text = .ok n ↔ text = n.text := by
  constructor
  · intro h
    unfold parse at h
    split_ifs at h
    cases h
    rfl
  · rintro rfl
    exact n.parse_text

lemma TargetName.exists_text_iff {name : String} :
    (∃ n : TargetName, n.text = name) ↔ IsName name := by
  constructor
  · rintro ⟨n, rfl⟩
    exact ⟨n.nonempty, n.no_colon, not_or.mp n.no_outer_slash⟩
  · rintro ⟨hn, hc, hs⟩
    exact ⟨⟨name, hn, hc, not_or.mpr hs⟩, rfl⟩

namespace Package

variable {text : String} {current k : Cell} {path : List Char}

lemma spells_iff {current cell path text : String} :
    Spells current cell path text ↔
      (text = cell ++ "//" ++ path ∨ text = "@" ++ cell ++ "//" ++ path) ∨
        cell = current ∧ (text = "//" ++ path ∨ text = "@//" ++ path) := by
  constructor
  · rintro (_ | _ | h | h)
    · exact .inl (.inl rfl)
    · exact .inl (.inr rfl)
    · exact .inr ⟨h, .inl rfl⟩
    · exact .inr ⟨h, .inr rfl⟩
  · rintro ((rfl | rfl) | ⟨h, rfl | rfl⟩)
    · exact .full
    · exact .sigil
    · exact .own h
    · exact .ownSigil h

lemma spells_iff_exists_reference :
    Spells current.name k.name (.ofList path) text ↔
      ∃ reference, text.toList = reference ++ '/' :: '/' :: path ∧
        Cell.resolve reference current = .ok k := by
  have hc : k = current ↔ k.name = current.name := Cell.ext_iff
  simp only [Cell.resolve_eq_ok_iff, spells_iff, hc, ← String.toList_inj, String.toList_append,
    String.toList_ofList, String.reduceToList]
  constructor
  · rintro ((h | h) | ⟨hk, h | h⟩)
    · exact ⟨k.name.toList, by simp [h], .inl (.inl rfl)⟩
    · exact ⟨'@' :: k.name.toList, by simp [h], .inl (.inr rfl)⟩
    · exact ⟨[], by simp [h], .inr ⟨hk, .inl rfl⟩⟩
    · exact ⟨['@'], by simp [h], .inr ⟨hk, .inr rfl⟩⟩
  · rintro ⟨_, h, (rfl | rfl) | ⟨hk, rfl | rfl⟩⟩
    · exact .inl (.inl (by simp [h]))
    · exact .inl (.inr (by simp [h]))
    · exact .inr ⟨hk, .inl (by simp [h])⟩
    · exact .inr ⟨hk, .inr (by simp [h])⟩

lemma spells_iff_cutDouble? :
    Spells current.name k.name (.ofList path) text ↔
      ∃ reference, Text.cutDouble? '/' text.toList = some (reference, path) ∧
        Cell.resolve reference current = .ok k := by
  rw [spells_iff_exists_reference]
  refine exists_congr fun reference => and_congr_left fun hr => ?_
  constructor
  · intro h
    rw [h]
    exact Text.cutDouble?_append (Cell.no_slash_of_resolve hr)
  · exact Text.eq_of_cutDouble?

lemma parse_eq_ok_iff {p : Package} :
    parse text current = .ok p ↔
      ':' ∉ text.toList ∧ Spells current.name p.cell.name p.path.text text := by
  by_cases hc : ':' ∈ text.toList
  · simp [parse, hc]
  rw [parse, if_neg hc, ← String.ofList_toList (s := p.path.text), spells_iff_cutDouble?]
  cases hd : Text.cutDouble? '/' text.toList with
  | none => simp
  | some parts =>
    simp only [bind_eq_ok_iff, mapError_eq_ok_iff, pure_eq_ok_iff, PackagePath.parse_eq_ok_iff]
    constructor
    · rintro ⟨cell, hr, path, hp, rfl⟩
      refine ⟨hc, parts.1, ?_, hr⟩
      rw [← hp, String.toList_ofList]
    · rintro ⟨-, reference, h, hr⟩
      obtain rfl := Option.some.inj h
      exact ⟨p.cell, hr, p.path, String.ofList_toList, rfl⟩

lemma Spells.colon_mem_iff {path : String} (h : Spells current.name k.name path text) :
    ':' ∈ text.toList ↔ ':' ∈ path.toList := by
  have hk := k.isName.2.2.1
  cases h <;> simp [hk]

lemma parse_eq_ok_iff_of_path {p : Package} :
    parse text current = .ok p ↔
      ':' ∉ p.path.text.toList ∧ Spells current.name p.cell.name p.path.text text := by
  rw [parse_eq_ok_iff]
  exact and_congr_left fun h => not_congr h.colon_mem_iff

lemma spells_display (p : Package) (current : String) :
    Spells current p.cell.name p.path.text p.display := .full

lemma parse_display {p : Package} (h : parse text current = .ok p) (other : Cell) :
    parse p.display other = .ok p := by
  rw [parse_eq_ok_iff_of_path] at h ⊢
  exact ⟨h.1, p.spells_display other.name⟩

end Package

lemma Label.parse_eq_ok_iff {text : String} {current : Cell} {l : Label} :
    parse text current = .ok l ↔
      ∃ package, text = package ++ ":" ++ l.name.text ∧
        Package.parse package current = .ok l.package := by
  rw [show ":" = String.singleton ':' from rfl, exists_front_iff_cutLast? l.name.no_colon,
    parse]
  cases hd : Text.cutLast? ':' text.toList with
  | none => simp
  | some parts =>
    simp only [bind_eq_ok_iff, mapError_eq_ok_iff, pure_eq_ok_iff, TargetName.parse_eq_ok_iff]
    constructor
    · rintro ⟨package, hp, name, hn, rfl⟩
      refine ⟨parts.1, ?_, hp⟩
      rw [← hn, String.toList_ofList]
    · rintro ⟨front, h, hp⟩
      obtain rfl := Option.some.inj h
      exact ⟨l.package, hp, l.name, String.ofList_toList, rfl⟩

lemma ExtensionFile.parse_eq_ok_iff {text : String} {current : Cell} {f : ExtensionFile} :
    parse text current = .ok f ↔
      ∃ package, text = package ++ ":" ++ f.fileName ∧
        Package.parse package current = .ok f.package := by
  rw [show ":" = String.singleton ':' from rfl,
    exists_front_iff_cutLast? f.isFileName.2.1, parse]
  cases hd : Text.cutLast? ':' text.toList with
  | none => simp
  | some parts =>
    simp only [bind_eq_ok_iff, mapError_eq_ok_iff, ofFileName_eq_ok_iff]
    constructor
    · rintro ⟨package, hp, rfl, hn⟩
      refine ⟨parts.1, ?_, hp⟩
      rw [← hn, String.toList_ofList]
    · rintro ⟨front, h, hp⟩
      obtain rfl := Option.some.inj h
      exact ⟨f.package, hp, rfl, String.ofList_toList⟩

lemma Label.parse_display {text : String} {current : Cell} {l : Label}
    (h : parse text current = .ok l) (other : Cell) : parse l.display other = .ok l := by
  obtain ⟨package, _, hp⟩ := parse_eq_ok_iff.mp h
  exact parse_eq_ok_iff.mpr ⟨l.package.display, rfl, Package.parse_display hp other⟩

lemma ExtensionFile.parse_display {text : String} {current : Cell} {f : ExtensionFile}
    (h : parse text current = .ok f) (other : Cell) : parse f.display other = .ok f := by
  obtain ⟨package, _, hp⟩ := parse_eq_ok_iff.mp h
  exact parse_eq_ok_iff.mpr ⟨f.package.display, rfl, Package.parse_display hp other⟩

/-- The grammar of packages, of labels and of extension files, each with its reader. A displayed
one does not depend on the cell that it is read from. -/
theorem labels_read_by_grammar (current : Cell) (text : String) :
    (∀ cell path, (∃ p, Package.parse text current = .ok p ∧ p.cell.name = cell ∧
        p.path.text = path) ↔
      Cell.IsName cell ∧ PackagePath.IsNormal path ∧ ':' ∉ path.toList ∧
        Package.Spells current.name cell path text) ∧
    (∀ package name, (∃ l, Label.parse text current = .ok l ∧ l.package = package ∧
        l.name.text = name) ↔
      TargetName.IsName name ∧
        ∃ front, text = front ++ ":" ++ name ∧ Package.parse front current = .ok package) ∧
    (∀ package name, (∃ f, ExtensionFile.parse text current = .ok f ∧ f.package = package ∧
        f.fileName = name) ↔
      ExtensionFile.IsFileName name.toList ∧
        ∃ front, text = front ++ ":" ++ name ∧ Package.parse front current = .ok package) ∧
    (∀ p, Package.parse text current = .ok p → ∀ other, Package.parse p.display other = .ok p) ∧
    (∀ l, Label.parse text current = .ok l → ∀ other, Label.parse l.display other = .ok l) ∧
    ∀ f, ExtensionFile.parse text current = .ok f →
      ∀ other, ExtensionFile.parse f.display other = .ok f := by
  refine ⟨?_, ?_, ?_, fun p => Package.parse_display, fun l => Label.parse_display,
    fun f => ExtensionFile.parse_display⟩
  · intro cell path
    constructor
    · rintro ⟨p, hp, rfl, rfl⟩
      obtain ⟨hc, hs⟩ := Package.parse_eq_ok_iff_of_path.mp hp
      exact ⟨p.cell.isName, PackagePath.exists_text_iff.mp ⟨p.path, rfl⟩, hc, hs⟩
    · rintro ⟨hk, hn, hc, hs⟩
      obtain ⟨k, rfl⟩ := Cell.exists_name_iff.mpr hk
      obtain ⟨q, rfl⟩ := PackagePath.exists_text_iff.mpr hn
      exact ⟨⟨k, q⟩, Package.parse_eq_ok_iff_of_path.mpr ⟨hc, hs⟩, rfl, rfl⟩
  · intro package name
    constructor
    · rintro ⟨l, hl, rfl, rfl⟩
      exact ⟨TargetName.exists_text_iff.mp ⟨l.name, rfl⟩, Label.parse_eq_ok_iff.mp hl⟩
    · rintro ⟨hn, hp⟩
      obtain ⟨n, rfl⟩ := TargetName.exists_text_iff.mpr hn
      exact ⟨⟨package, n⟩, Label.parse_eq_ok_iff.mpr hp, rfl, rfl⟩
  · intro package name
    constructor
    · rintro ⟨f, hf, rfl, rfl⟩
      exact ⟨f.isFileName, ExtensionFile.parse_eq_ok_iff.mp hf⟩
    · rintro ⟨hn, hp⟩
      exact ⟨⟨package, name, hn⟩, ExtensionFile.parse_eq_ok_iff.mpr hp, rfl, rfl⟩

theorem labels_read_by_grammar_with_sigil :
    let front := "@//a.b"
    let text := front ++ ":" ++ "x/y.bzl"
    ∃ p, Package.parse front default = .ok p ∧
      (∀ other, Package.parse p.display other = .ok p) ∧
      (∃ l, Label.parse text default = .ok l ∧ l.display = "root//a.b:x/y.bzl" ∧
        ∀ other, Label.parse l.display other = .ok l) ∧
      ∃ f, ExtensionFile.parse text default = .ok f ∧ f.display = "root//a.b:x/y.bzl" ∧
        ∀ other, ExtensionFile.parse f.display other = .ok f := by
  intro front text
  obtain ⟨hpackage, -, -, hreread, -⟩ := labels_read_by_grammar default front
  obtain ⟨-, hlabel, hfile, -, hrelabel, hrefile⟩ := labels_read_by_grammar default text
  obtain ⟨p, hp, hk, hq⟩ := (hpackage "root" "a.b").mpr
    ⟨by decide, by decide +kernel, by decide, .ownSigil rfl⟩
  have hd : p.display = "root//a.b" := by simp [Package.display, hk, hq]
  obtain ⟨l, hl, rfl, hn⟩ := (hlabel p "x/y.bzl").mpr ⟨by decide, front, rfl, hp⟩
  obtain ⟨f, hf, hfp, hfn⟩ := (hfile l.package "x/y.bzl").mpr ⟨by decide, front, rfl, hp⟩
  refine ⟨l.package, hp, hreread _ hp, ⟨l, hl, ?_, hrelabel l hl⟩, f, hf, ?_, hrefile f hf⟩
  · simp [Label.display, hd, hn]
  · simp [ExtensionFile.display, hfp, hd, hfn]

end EdgeAdmission
