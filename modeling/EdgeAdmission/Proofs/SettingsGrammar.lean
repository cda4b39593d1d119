import EdgeAdmission.Proofs.Reading
import EdgeAdmission.Proofs.Recency
import EdgeAdmission.Settings.Basic

namespace EdgeAdmission

open Reading

namespace Text

def dropReturn (line : List Char) : List Char :=
  if line.getLast? = some '\r' then line.dropLast else line

def lines (s : List Char) : List (List Char) :=
  (s.splitOn '\n').dropLast.map dropReturn ++ (s.splitOn '\n').getLast?.toList.filter (· ≠ [])

lemma trim_dropReturn (line : List Char) : trim (dropReturn line) = trim line := by
  unfold dropReturn
  split
  · next h =>
    obtain ⟨front, rfl⟩ := List.getLast?_eq_some_iff.mp h
    rw [List.dropLast_concat, trim_append_right]
    intro c hc
    obtain rfl := List.mem_singleton.mp hc
    rfl
  · rfl

end Text

open Text

namespace Line

def Significant (line : List Char) : Prop :=
  trim line ≠ [] ∧ (trim line).head? ≠ some '#' ∧ (trim line).head? ≠ some ';'

def IsHeader (line : List Char) (name : String) : Prop :=
  ∃ inner, trim line = '[' :: inner ++ [']'] ∧ trim inner = name.toList ∧ name ≠ ""

def IsAssignment (line : List Char) (property value : String) : Prop :=
  Significant line ∧ (trim line).head? ≠ some '[' ∧
    ∃ front back, trim line = front ++ '=' :: back ∧ '=' ∉ front ∧
      trim front = property.toList ∧ property ≠ "" ∧ trim back = value.toList

inductive Malformed (line : List Char) : LineFault → Prop
  | header (hb : (trim line).head? = some '[') (h : ∀ name, ¬ IsHeader line name) :
      Malformed line (.badSectionMarker (.ofList (trim line)))
  | noEquals (hs : Significant line) (hb : (trim line).head? ≠ some '[') (h : '=' ∉ trim line) :
      Malformed line (.invalidLine (.ofList (trim line)))
  | blankKey {front back : List Char} (hs : Significant line) (hb : (trim line).head? ≠ some '[')
      (h : trim line = front ++ '=' :: back) (hn : '=' ∉ front) (hk : trim front = []) :
      Malformed line (.invalidLine (.ofList (trim line)))

inductive Says (line : List Char) : Except LineFault Line → Prop
  | insignificant (h : ¬ Significant line) : Says line (.ok .insignificant)
  | header {name : String} (h : IsHeader line name) : Says line (.ok (.header name))
  | assignment {property value : String} (h : IsAssignment line property value) :
      Says line (.ok (.assignment property value))
  | malformed {fault : LineFault} (h : Malformed line fault) : Says line (.error fault)

variable {line : List Char} {name property value : String} {fault : LineFault}

lemma ofTrimmed_insignificant {s : List Char}
    (h : s = [] ∨ s.head? = some '#' ∨ s.head? = some ';') : ofTrimmed s = .ok .insignificant := by
  rcases h with rfl | h | h
  · rfl
  · obtain ⟨rest, rfl⟩ := List.head?_eq_some_iff.mp h
    rfl
  · obtain ⟨rest, rfl⟩ := List.head?_eq_some_iff.mp h
    rfl

lemma ofTrimmed_bracket (rest : List Char) :
    ofTrimmed ('[' :: rest) =
      match headerName? rest with
      | some name => .ok (.header (.ofList name))
      | none => .error (.badSectionMarker (.ofList ('[' :: rest))) := rfl

lemma read_of_significant (h : Significant line) (hb : (trim line).head? ≠ some '[') :
    read line =
      match cut? '=' (trim line) with
      | none => .error (.invalidLine (.ofList (trim line)))
      | some (key, value) =>
        if trim key = [] then .error (.invalidLine (.ofList (trim line)))
        else .ok (.assignment (.ofList (trim key)) (.ofList (trim value))) := by
  obtain ⟨hn, hc, hs⟩ := h
  unfold read ofTrimmed
  split
  · exact absurd ‹_› hn
  · next ht => exact absurd (by rw [ht]; rfl) hc
  · next ht => exact absurd (by rw [ht]; rfl) hs
  · next ht => exact absurd (by rw [ht]; rfl) hb
  · rfl

lemma significant_of_head? (h : (trim line).head? = some '[') : Significant line := by
  refine ⟨?_, ?_, ?_⟩
  · intro ht
    simp [ht] at h
  · simp [h]
  · simp [h]

lemma Malformed.significant (h : Malformed line fault) : Significant line := by
  cases h with
  | header hb => exact significant_of_head? hb
  | noEquals hs => exact hs
  | blankKey hs => exact hs

lemma Says.read_eq {r : Except LineFault Line} (h : Says line r) : read line = r := by
  cases h with
  | insignificant h =>
    apply ofTrimmed_insignificant
    by_contra hc
    push Not at hc
    exact h hc
  | header h =>
    obtain ⟨inner, ht, hi, hn⟩ := h
    have hh : headerName? (inner ++ [']']) = some (trim inner) := by
      apply headerName?_eq_some_iff.mpr
      exact ⟨inner, rfl, rfl, by simpa [hi] using hn⟩
    rw [read, ht, List.cons_append, ofTrimmed_bracket, hh, hi]
    simp
  | assignment h =>
    obtain ⟨hs, hb, front, back, ht, hf, hp, hn, hv⟩ := h
    have hc : cut? '=' (trim line) = some (front, back) := cut?_eq_some_iff.mpr ⟨ht, hf⟩
    rw [read_of_significant hs hb, hc]
    simp [hp, hn, hv]
  | malformed h =>
    cases h with
    | header hb h =>
      obtain ⟨rest, ht⟩ := List.head?_eq_some_iff.mp hb
      have hh : headerName? rest = none := by
        cases hr : headerName? rest with
        | none => rfl
        | some name =>
          obtain ⟨inner, rfl, hi, hn⟩ := headerName?_eq_some_iff.mp hr
          exact absurd ⟨inner, ht, by simpa using hi, by simpa using hn⟩ (h (.ofList name))
      rw [read, ht, ofTrimmed_bracket, hh]
    | noEquals hs hb h =>
      have hc : cut? '=' (trim line) = none := cut?_eq_none_iff.mpr h
      rw [read_of_significant hs hb, hc]
    | blankKey hs hb h hn hk =>
      have hc := cut?_eq_some_iff.mpr ⟨h, hn⟩
      rw [read_of_significant hs hb, hc]
      exact if_pos hk

lemma exists_says (line : List Char) : ∃ r, Says line r := by
  by_cases hs : Significant line
  swap
  · exact ⟨_, .insignificant hs⟩
  by_cases hb : (trim line).head? = some '['
  · by_cases hh : ∃ name, IsHeader line name
    · obtain ⟨name, h⟩ := hh
      exact ⟨_, .header h⟩
    · exact ⟨_, .malformed (.header hb (not_exists.mp hh))⟩
  cases hc : cut? '=' (trim line) with
  | none => exact ⟨_, .malformed (.noEquals hs hb (cut?_eq_none_iff.mp hc))⟩
  | some parts =>
    obtain ⟨front, back⟩ := parts
    obtain ⟨ht, hf⟩ := cut?_eq_some_iff.mp hc
    by_cases hk : trim front = []
    · exact ⟨_, .malformed (.blankKey hs hb ht hf hk)⟩
    · have ha : IsAssignment line (.ofList (trim front)) (.ofList (trim back)) :=
        ⟨hs, hb, front, back, ht, hf, by simp, by simpa using hk, by simp⟩
      exact ⟨_, .assignment ha⟩

lemma says_iff {r : Except LineFault Line} : Says line r ↔ read line = r := by
  refine ⟨Says.read_eq, ?_⟩
  rintro rfl
  obtain ⟨r, h⟩ := exists_says line
  rwa [h.read_eq]

lemma isHeader_iff : IsHeader line name ↔ read line = .ok (.header name) := by
  rw [← says_iff]
  exact ⟨.header, fun | .header h => h⟩

lemma isAssignment_iff :
    IsAssignment line property value ↔ read line = .ok (.assignment property value) := by
  rw [← says_iff]
  exact ⟨.assignment, fun | .assignment h => h⟩

lemma malformed_iff : Malformed line fault ↔ read line = .error fault := by
  rw [← says_iff]
  exact ⟨.malformed, fun | .malformed h => h⟩

lemma not_significant_iff : ¬ Significant line ↔ read line = .ok .insignificant := by
  rw [← says_iff]
  exact ⟨.insignificant, fun | .insignificant h => h⟩

end Line

namespace Settings

def InSection (before : List (List Char)) (name : String) : Prop :=
  ∃ header, SinceLast (fun line => ∃ other, Line.IsHeader line other) before header ∧
    Line.IsHeader header name

def nextSection (current : Option String) (line : List Char) : Option String :=
  match Line.read line with
  | .ok (.header name) => some name
  | _ => current

def sectionAfter (current : Option String) (lines : List (List Char)) : Option String :=
  lines.foldl nextSection current

variable {current : Option String} {n : Nat} {line : List Char} {before : List (List Char)}
  {name property value : String} {fault : LineFault}

lemma nextSection_of_header (h : Line.IsHeader line name) : nextSection current line = some name := by
  rw [nextSection, Line.isHeader_iff.mp h]

lemma nextSection_of_not_header (h : ∀ name, ¬ Line.IsHeader line name) :
    nextSection current line = current := by
  unfold nextSection
  split
  · next name hr => exact absurd (Line.isHeader_iff.mpr hr) (h name)
  · rfl

lemma sectionAfter_concat :
    sectionAfter current (before ++ [line]) = nextSection (sectionAfter current before) line := by
  simp [sectionAfter]

lemma sectionAfter_none_iff :
    sectionAfter none before = none ↔ ∀ line ∈ before, ∀ name, ¬ Line.IsHeader line name := by
  induction before using List.reverseRecOn with
  | nil => simp [sectionAfter]
  | append_singleton before line ih =>
    rw [sectionAfter_concat, List.forall_mem_append, List.forall_mem_singleton]
    by_cases h : ∃ name, Line.IsHeader line name
    · obtain ⟨name, h⟩ := h
      rw [nextSection_of_header h]
      simp only [reduceCtorEq, false_iff, not_and, not_forall, not_not]
      exact fun _ => ⟨name, h⟩
    · rw [nextSection_of_not_header (not_exists.mp h), ih]
      exact ⟨fun hb => ⟨hb, not_exists.mp h⟩, And.left⟩

lemma nextSection_eq_some_iff :
    nextSection current line = some name ↔
      Line.IsHeader line name ∨ current = some name ∧ ¬ ∃ other, Line.IsHeader line other := by
  by_cases h : ∃ other, Line.IsHeader line other
  · obtain ⟨other, h⟩ := h
    rw [nextSection_of_header h, Line.isHeader_iff, Line.isHeader_iff.mp h]
    simp [Line.isHeader_iff.mp h, Line.isHeader_iff]
  · have hn := not_exists.mp h
    rw [nextSection_of_not_header hn, or_iff_right (hn name), and_iff_left h]

lemma sectionAfter_eq_some_iff : sectionAfter none before = some name ↔ InSection before name :=
  foldl_iff_sinceLast (· = some name) (fun _ _ => nextSection_eq_some_iff)
    (Option.some_ne_none name).symm

lemma assignmentsOf_insignificant (h : ¬ Line.Significant line) (lines : List (List Char)) :
    assignmentsOf current n (line :: lines) = assignmentsOf current (n + 1) lines := by
  rw [assignmentsOf, Line.not_significant_iff.mp h]

lemma assignmentsOf_header (h : Line.IsHeader line name) (lines : List (List Char)) :
    assignmentsOf current n (line :: lines) = assignmentsOf (some name) (n + 1) lines := by
  rw [assignmentsOf, Line.isHeader_iff.mp h]

lemma assignmentsOf_assignment (h : Line.IsAssignment line property value)
    (lines : List (List Char)) :
    assignmentsOf (some name) n (line :: lines) =
      (assignmentsOf (some name) (n + 1) lines).map (⟨⟨name, property⟩, value, n⟩ :: ·) := by
  rw [assignmentsOf, Line.isAssignment_iff.mp h]

lemma assignmentsOf_outside (h : Line.IsAssignment line property value)
    (lines : List (List Char)) :
    assignmentsOf none n (line :: lines) = .error (n, .keyOutsideSection (.ofList (trim line))) := by
  rw [assignmentsOf, Line.isAssignment_iff.mp h]

lemma assignmentsOf_malformed (h : Line.Malformed line fault) (lines : List (List Char)) :
    assignmentsOf current n (line :: lines) = .error (n, fault) := by
  rw [assignmentsOf, Line.malformed_iff.mp h]

lemma assignmentsOf_cons_cases {lines : List (List Char)} {as : List Setting}
    (h : assignmentsOf current n (line :: lines) = .ok as) :
    (¬ Line.Significant line ∧ assignmentsOf current (n + 1) lines = .ok as) ∨
      (∃ name, Line.IsHeader line name ∧ assignmentsOf (some name) (n + 1) lines = .ok as) ∨
      ∃ name property value bs, current = some name ∧ Line.IsAssignment line property value ∧
        assignmentsOf current (n + 1) lines = .ok bs ∧ as = ⟨⟨name, property⟩, value, n⟩ :: bs := by
  obtain ⟨r, hr⟩ := Line.exists_says line
  cases hr with
  | insignificant hl =>
    rw [assignmentsOf_insignificant hl] at h
    exact .inl ⟨hl, h⟩
  | header hl =>
    rw [assignmentsOf_header hl] at h
    exact .inr (.inl ⟨_, hl, h⟩)
  | malformed hl =>
    rw [assignmentsOf_malformed hl] at h
    cases h
  | assignment hl =>
    cases current with
    | none =>
      rw [assignmentsOf_outside hl] at h
      cases h
    | some name =>
      rw [assignmentsOf_assignment hl] at h
      obtain ⟨bs, hb, rfl⟩ := map_eq_ok_iff.mp h
      exact .inr (.inr ⟨name, _, _, bs, rfl, hl, hb, rfl⟩)

lemma assignmentsOf_cons (current : Option String) (n : Nat) (line : List Char)
    (lines : List (List Char)) :
    assignmentsOf current n (line :: lines) =
      (assignmentsOf current n [line]).bind fun as =>
        (assignmentsOf (nextSection current line) (n + 1) lines).map (as ++ ·) := by
  have hid : ∀ x : Except (Nat × LineFault) (List Setting), x = x.map ([] ++ ·) :=
    fun x => (congrFun Except.map_id x).symm
  cases hr : Line.read line with
  | error fault => simp only [assignmentsOf, hr, Except.bind]
  | ok form =>
    cases form with
    | insignificant =>
      simp only [assignmentsOf, nextSection, hr]
      exact hid _
    | header name =>
      simp only [assignmentsOf, nextSection, hr]
      exact hid _
    | assignment property value =>
      cases current with
      | none => simp only [assignmentsOf, hr, Except.bind]
      | some name => simp only [assignmentsOf, nextSection, hr, Except.bind, Except.map,
          List.singleton_append]

lemma assignmentsOf_append (current : Option String) (n : Nat) (front rest : List (List Char)) :
    assignmentsOf current n (front ++ rest) =
      (assignmentsOf current n front).bind fun as =>
        (assignmentsOf (sectionAfter current front) (n + front.length) rest).map (as ++ ·) := by
  induction front generalizing current n with
  | nil => exact (congrFun Except.map_id _).symm
  | cons line front ih =>
    have hs : sectionAfter current (line :: front) =
        sectionAfter (nextSection current line) front := rfl
    have hn : n + (line :: front).length = n + 1 + front.length := by
      rw [List.length_cons]
      omega
    rw [List.cons_append, assignmentsOf_cons, assignmentsOf_cons current n line front, ih, hs, hn]
    -- A fault ends the reading wherever it is met.
    cases assignmentsOf current n [line] with
    | error e => rfl
    | ok as =>
      cases assignmentsOf (nextSection current line) (n + 1) front with
      | error e => rfl
      | ok bs =>
        cases assignmentsOf (sectionAfter (nextSection current line) front) (n + 1 + front.length)
          rest with
        | error e => rfl
        | ok cs => simp [Except.bind, Except.map]

lemma assignmentsOf_concat_nil (current : Option String) (n : Nat) (lines : List (List Char)) :
    assignmentsOf current n (lines ++ [[]]) = assignmentsOf current n lines := by
  rw [assignmentsOf_append]
  cases assignmentsOf current n lines with
  | error e => rfl
  | ok as =>
    rw [Except.bind, assignmentsOf_insignificant fun h => h.1 rfl]
    simp [assignmentsOf, Except.map]

lemma assignmentsOf_congr {lines lines' : List (List Char)} (h : lines.map trim = lines'.map trim)
    (current : Option String) (n : Nat) :
    assignmentsOf current n lines = assignmentsOf current n lines' := by
  induction lines generalizing lines' current n with
  | nil => rw [List.map_eq_nil_iff.mp h.symm]
  | cons line lines ih =>
    obtain ⟨line', lines', rfl, hl, hls⟩ := List.map_eq_cons_iff.mp h.symm
    have hr : Line.read line = Line.read line' := by rw [Line.read, Line.read, hl]
    simp only [assignmentsOf, hr, hl, ih hls.symm]

lemma assignmentsOf_lines (current : Option String) (n : Nat) (s : List Char) :
    assignmentsOf current n (s.splitOn '\n') = assignmentsOf current n (Text.lines s) := by
  have hne : s.splitOn '\n' ≠ [] := List.splitOn_ne_nil _ _
  have hs := List.dropLast_append_getLast hne
  rw [Text.lines, List.getLast?_eq_some_getLast hne]
  generalize (s.splitOn '\n').dropLast = front, (s.splitOn '\n').getLast hne = last at hs
  rw [← hs]
  by_cases hl : last = []
  · subst hl
    rw [assignmentsOf_concat_nil]
    apply assignmentsOf_congr
    simp [Function.comp_def, trim_dropReturn]
  · apply assignmentsOf_congr
    simp [Function.comp_def, trim_dropReturn, hl]

variable {text path : String}

lemma parse_eq_ok_iff {settings : Settings} :
    parse text path = .ok settings ↔
      settings.path = path ∧
        assignmentsOf none 1 (Text.lines text.toList) = .ok settings.assignments := by
  rw [parse, assignmentsOf_lines]
  obtain ⟨p, as⟩ := settings
  cases assignmentsOf none 1 (Text.lines text.toList) with
  | error e => simp
  | ok as => simp [eq_comm]

lemma parse_eq_error_iff {e : SettingsError} :
    parse text path = .error e ↔
      e.path = path ∧ assignmentsOf none 1 (Text.lines text.toList) = .error (e.line, e.fault) := by
  rw [parse, assignmentsOf_lines]
  obtain ⟨p, line, fault⟩ := e
  cases assignmentsOf none 1 (Text.lines text.toList) with
  | error e => simp [eq_comm, Prod.ext_iff]
  | ok as => simp

end Settings

end EdgeAdmission
