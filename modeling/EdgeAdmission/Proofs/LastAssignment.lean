import EdgeAdmission.Proofs.SettingsGrammar

namespace EdgeAdmission.Settings

open Text Reading

def StandsAt (lines : List (List Char)) (i : Nat) (P : List (List Char) → List Char → Prop) : Prop :=
  ∃ line, lines[i]? = some line ∧ P (lines.take i) line

def Assigns (key : Setting.Key) (value : String) (before : List (List Char)) (line : List Char) :
    Prop :=
  Line.IsAssignment line key.property value ∧ InSection before key.sectionName

inductive Offends : LineFault → List (List Char) → List Char → Prop
  | malformed {fault : LineFault} {before : List (List Char)} {line : List Char}
      (h : Line.Malformed line fault) : Offends fault before line
  | outside {before : List (List Char)} {line : List Char} {property value : String}
      (h : Line.IsAssignment line property value)
      (hb : ∀ other ∈ before, ∀ name, ¬ Line.IsHeader other name) :
      Offends (.keyOutsideSection (.ofList (trim line))) before line

def WinsAt (lines : List (List Char)) (i : Nat) (key : Setting.Key) (value : String) : Prop :=
  StandsAt lines i (Assigns key value) ∧
    ∀ j, i < j → ∀ other, ¬ StandsAt lines j (Assigns key other)

variable {lines before : List (List Char)} {line : List Char} {i n : Nat} {key : Setting.Key}
  {value other path text : String} {fault : LineFault}
  {P : List (List Char) → List Char → Prop}

lemma lt_of_standsAt (h : StandsAt lines i P) : i < lines.length := by
  obtain ⟨line, hl, -⟩ := h
  exact (List.getElem?_eq_some_iff.mp hl).1

lemma standsAt_concat :
    StandsAt (lines ++ [line]) i P ↔ StandsAt lines i P ∨ i = lines.length ∧ P lines line := by
  rcases lt_trichotomy i lines.length with h | rfl | h
  · have ht : (lines ++ [line]).take i = lines.take i := List.take_append_of_le_length h.le
    simp [StandsAt, ht, List.getElem?_append_left h, h.ne]
  · simp [StandsAt]
  · have hn : ¬ StandsAt lines i P := fun hs => (lt_of_standsAt hs).not_gt h
    have hc : ¬ StandsAt (lines ++ [line]) i P := by
      intro hs
      have hi := lt_of_standsAt hs
      rw [List.length_append, List.length_singleton] at hi
      omega
    simp [hn, hc, h.ne']

lemma assigns_iff :
    Assigns key value before line ↔
      assignmentsOf (sectionAfter none before) n [line] = .ok [⟨key, value, n⟩] := by
  obtain ⟨section', property'⟩ := key
  rw [Assigns, ← sectionAfter_eq_some_iff, Line.isAssignment_iff]
  cases hr : Line.read line with
  | error fault => simp [assignmentsOf, hr]
  | ok form =>
    cases form with
    | insignificant => simp [assignmentsOf, hr]
    | header name => simp [assignmentsOf, hr]
    | assignment property raw =>
      cases sectionAfter none before with
      | none => simp [assignmentsOf, hr]
      | some name => simp [assignmentsOf, hr, Except.map, and_comm, and_left_comm, and_assoc]

lemma offends_iff :
    Offends fault before line ↔
      assignmentsOf (sectionAfter none before) n [line] = .error (n, fault) := by
  constructor
  · rintro (h | ⟨h, hb⟩)
    · exact assignmentsOf_malformed h []
    · rw [sectionAfter_none_iff.mpr hb]
      exact assignmentsOf_outside h []
  · intro h
    cases hr : Line.read line with
    | error fault' =>
      have hm := Line.malformed_iff.mpr hr
      rw [assignmentsOf_malformed hm] at h
      cases h
      exact .malformed hm
    | ok form =>
      cases form with
      | insignificant => simp [assignmentsOf, hr] at h
      | header name => simp [assignmentsOf, hr] at h
      | assignment property raw =>
        have ha := Line.isAssignment_iff.mpr hr
        cases hs : sectionAfter none before with
        | none =>
          rw [hs, assignmentsOf_outside ha] at h
          cases h
          exact .outside ha (sectionAfter_none_iff.mp hs)
        | some name =>
          rw [hs, assignmentsOf_assignment ha] at h
          cases h

lemma Assigns.unique {key' : Setting.Key} (h : Assigns key value before line)
    (h' : Assigns key' other before line) : key' = key ∧ other = value := by
  rw [assigns_iff (n := 0)] at h h'
  rw [h] at h'
  cases h'
  exact ⟨rfl, rfl⟩

lemma Offends.unique {fault' : LineFault} (h : Offends fault before line)
    (h' : Offends fault' before line) : fault' = fault := by
  rw [offends_iff (n := 0)] at h h'
  rw [h] at h'
  cases h'
  rfl

inductive Adds (before : List (List Char)) (line : List Char) (n : Nat) :
    Except (Nat × LineFault) (List Setting) → Prop
  | nothing (ha : ∀ key value, ¬ Assigns key value before line)
      (ho : ∀ fault, ¬ Offends fault before line) : Adds before line n (.ok [])
  | setting {key : Setting.Key} {value : String} (ha : Assigns key value before line)
      (ho : ∀ fault, ¬ Offends fault before line) : Adds before line n (.ok [⟨key, value, n⟩])
  | fault {fault : LineFault} (ho : Offends fault before line) :
      Adds before line n (.error (n, fault))

lemma adds_assignmentsOf (before : List (List Char)) (line : List Char) (n : Nat) :
    Adds before line n (assignmentsOf (sectionAfter none before) n [line]) := by
  have ho : ∀ {as}, assignmentsOf (sectionAfter none before) n [line] = .ok as →
      ∀ fault, ¬ Offends fault before line := by
    intro as h fault hf
    rw [offends_iff (n := n), h] at hf
    cases hf
  have hn : assignmentsOf (sectionAfter none before) n [line] = .ok [] →
      Adds before line n (assignmentsOf (sectionAfter none before) n [line]) := by
    intro h
    rw [h]
    refine .nothing (fun key value ha => ?_) (ho h)
    rw [assigns_iff (n := n), h] at ha
    cases ha
  obtain ⟨r, h⟩ := Line.exists_says line
  cases h with
  | insignificant h => exact hn (assignmentsOf_insignificant h [])
  | header h => exact hn (assignmentsOf_header h [])
  | malformed h =>
    rw [assignmentsOf_malformed h]
    exact .fault (.malformed h)
  | @assignment property value h =>
    cases hs : sectionAfter none before with
    | none =>
      rw [assignmentsOf_outside h]
      exact .fault (.outside h (sectionAfter_none_iff.mp hs))
    | some name =>
      have ha : Assigns ⟨name, property⟩ value before line := ⟨h, sectionAfter_eq_some_iff.mp hs⟩
      have hr := assigns_iff (n := n).mp ha
      rw [← hs, hr]
      exact .setting ha (ho hr)

def Records (lines : List (List Char)) (as : List Setting) : Prop :=
  ∀ path key setting, find? ⟨path, as⟩ key = some setting ↔
    setting.key = key ∧ ∃ i, setting.line = i + 1 ∧ WinsAt lines i key setting.value

inductive Outcome (lines : List (List Char)) : Except (Nat × LineFault) (List Setting) → Prop
  | read {as : List Setting} (ho : ∀ i fault, ¬ StandsAt lines i (Offends fault))
      (hr : Records lines as) : Outcome lines (.ok as)
  | refused {i : Nat} {fault : LineFault} (ho : StandsAt lines i (Offends fault))
      (hf : ∀ j, j < i → ∀ fault, ¬ StandsAt lines j (Offends fault)) :
      Outcome lines (.error (i + 1, fault))

lemma winsAt_concat_of_not (h : ∀ other, ¬ Assigns key other lines line) :
    WinsAt (lines ++ [line]) i key value ↔ WinsAt lines i key value := by
  simp only [WinsAt, standsAt_concat, h, and_false, or_false]

lemma winsAt_concat_of_assigns (h : Assigns key value lines line) :
    WinsAt (lines ++ [line]) i key other ↔ i = lines.length ∧ other = value := by
  constructor
  · rintro ⟨hs, hl⟩
    rcases standsAt_concat.mp hs with hs | ⟨hi, ha⟩
    · -- The line just read would come later.
      exact absurd (standsAt_concat.mpr (.inr ⟨rfl, h⟩)) (hl _ (lt_of_standsAt hs) value)
    · exact ⟨hi, (h.unique ha).2⟩
  · rintro ⟨rfl, rfl⟩
    refine ⟨standsAt_concat.mpr (.inr ⟨rfl, h⟩), fun j hj other hs => ?_⟩
    have hlt := lt_of_standsAt hs
    rw [List.length_append, List.length_singleton] at hlt
    omega

lemma exists_winsAt (h : StandsAt lines i (Assigns key value)) :
    ∃ j other, WinsAt lines j key other := by
  induction lines using List.reverseRecOn generalizing i value with
  | nil => exact absurd (lt_of_standsAt h) (Nat.not_lt_zero i)
  | append_singleton lines line ih =>
    by_cases hn : ∃ other, Assigns key other lines line
    · obtain ⟨other, ha⟩ := hn
      exact ⟨lines.length, other, (winsAt_concat_of_assigns ha).mpr ⟨rfl, rfl⟩⟩
    · rcases standsAt_concat.mp h with h | ⟨-, ha⟩
      · obtain ⟨j, other, hw⟩ := ih h
        exact ⟨j, other, (winsAt_concat_of_not (not_exists.mp hn)).mpr hw⟩
      · exact absurd ⟨value, ha⟩ hn

lemma find?_concat (as : List Setting) (setting : Setting) :
    find? ⟨path, as ++ [setting]⟩ key =
      if setting.key = key then some setting else find? ⟨path, as⟩ key := by
  rw [find?, List.reverse_append, List.reverse_singleton, List.singleton_append, List.find?_cons]
  by_cases h : setting.key = key <;> simp [h, find?]

lemma records_concat_of_not {as : List Setting} (h : Records lines as)
    (ha : ∀ key value, ¬ Assigns key value lines line) : Records (lines ++ [line]) as := by
  intro path key setting
  simp only [winsAt_concat_of_not (ha key), h path key setting]

lemma records_concat_of_assigns {as : List Setting} (h : Records lines as)
    (ha : Assigns key value lines line) :
    Records (lines ++ [line]) (as ++ [⟨key, value, 1 + lines.length⟩]) := by
  intro path key' setting
  rw [find?_concat]
  split
  · next hk =>
    obtain rfl : key = key' := hk
    obtain ⟨key', value', n⟩ := setting
    simp only [winsAt_concat_of_assigns ha, Option.some.injEq, Setting.mk.injEq]
    constructor
    · rintro ⟨rfl, rfl, rfl⟩
      exact ⟨rfl, lines.length, Nat.add_comm _ _, rfl, rfl⟩
    · rintro ⟨rfl, i, rfl, rfl, rfl⟩
      exact ⟨rfl, rfl, Nat.add_comm _ _⟩
  · next hk =>
    have hn : ∀ other, ¬ Assigns key' other lines line := fun other h => hk (ha.unique h).1.symm
    simp only [winsAt_concat_of_not hn, h path key' setting]

lemma not_offends_concat (ho : ∀ i fault, ¬ StandsAt lines i (Offends fault))
    (hl : ∀ fault, ¬ Offends fault lines line) (i : Nat) (fault : LineFault) :
    ¬ StandsAt (lines ++ [line]) i (Offends fault) := by
  intro hs
  rcases standsAt_concat.mp hs with hs | ⟨-, hf⟩
  · exact ho i fault hs
  · exact hl fault hf

lemma not_offends_before_concat (hf : ∀ j, j < i → ∀ fault, ¬ StandsAt lines j (Offends fault))
    (hi : i ≤ lines.length) :
    ∀ j, j < i → ∀ fault, ¬ StandsAt (lines ++ [line]) j (Offends fault) := by
  intro j hj fault hs
  rcases standsAt_concat.mp hs with hs | ⟨rfl, -⟩
  · exact hf j hj fault hs
  · exact hj.not_ge hi

lemma outcome_concat {r : Except (Nat × LineFault) (List Setting)} (h : Outcome lines r) :
    Outcome (lines ++ [line]) (r.bind fun as =>
      (assignmentsOf (sectionAfter none lines) (1 + lines.length) [line]).map (as ++ ·)) := by
  cases h with
  | refused ho hf =>
    have hi := lt_of_standsAt ho
    exact .refused (standsAt_concat.mpr (.inl ho)) (not_offends_before_concat hf hi.le)
  | @read as ho hr =>
    have hstep := adds_assignmentsOf lines line (1 + lines.length)
    generalize assignmentsOf (sectionAfter none lines) (1 + lines.length) [line] = r at hstep
    cases hstep with
    | nothing ha hl =>
      rw [Except.bind, Except.map, List.append_nil]
      exact .read (not_offends_concat ho hl) (records_concat_of_not hr ha)
    | setting ha hl => exact .read (not_offends_concat ho hl) (records_concat_of_assigns hr ha)
    | fault hf =>
      rw [Except.bind, Except.map, Nat.add_comm]
      exact .refused (standsAt_concat.mpr (.inr ⟨rfl, hf⟩))
        (not_offends_before_concat (fun j _ => ho j) le_rfl)

lemma outcome_assignmentsOf (lines : List (List Char)) :
    Outcome lines (assignmentsOf none 1 lines) := by
  induction lines using List.reverseRecOn with
  | nil =>
    have hn : ∀ {i P}, ¬ StandsAt [] i P := fun h => absurd (lt_of_standsAt h) (Nat.not_lt_zero _)
    refine .read (fun i fault => hn) fun path key setting => ?_
    simp [find?, WinsAt, hn]
  | append_singleton lines line ih =>
    rw [assignmentsOf_append]
    exact outcome_concat ih

lemma not_offends_iff :
    (∀ fault, ¬ Offends fault before line) ↔
      (Line.Significant line → (∃ name, Line.IsHeader line name) ∨
        (∃ property value, Line.IsAssignment line property value) ∧
          ∃ header ∈ before, ∃ name, Line.IsHeader header name) := by
  constructor
  · intro ho hs
    obtain ⟨r, h⟩ := Line.exists_says line
    cases h with
    | insignificant h => exact absurd hs h
    | header h => exact .inl ⟨_, h⟩
    | malformed h => exact absurd (.malformed h) (ho _)
    | assignment h =>
      refine .inr ⟨⟨_, _, h⟩, ?_⟩
      by_contra hb
      push Not at hb
      exact ho _ (.outside h hb)
  · rintro h fault (hm | ⟨ha, hb⟩)
    · have hr := Line.malformed_iff.mp hm
      rcases h hm.significant with ⟨name, hh⟩ | ⟨⟨property, value, ha⟩, -⟩
      · cases hr.symm.trans (Line.isHeader_iff.mp hh)
      · cases hr.symm.trans (Line.isAssignment_iff.mp ha)
    · rcases h ha.1 with ⟨name, hh⟩ | ⟨-, header, hm, name, hh⟩
      · cases (Line.isAssignment_iff.mp ha).symm.trans (Line.isHeader_iff.mp hh)
      · exact hb header hm name hh

lemma exists_parse_iff :
    (∃ settings, parse text path = .ok settings) ↔
      ∀ i fault, ¬ StandsAt (Text.lines text.toList) i (Offends fault) := by
  have h := outcome_assignmentsOf (Text.lines text.toList)
  constructor
  · rintro ⟨settings, hs⟩
    rw [(parse_eq_ok_iff.mp hs).2] at h
    cases h with
    | read ho _ => exact ho
  · intro ho
    cases hr : assignmentsOf none 1 (Text.lines text.toList) with
    | ok as => exact ⟨⟨path, as⟩, parse_eq_ok_iff.mpr ⟨rfl, hr⟩⟩
    | error e =>
      rw [hr] at h
      cases h with
      | refused h _ => exact absurd h (ho _ _)

lemma find?_of_parse {settings : Settings} {setting : Setting} (h : parse text path = .ok settings) :
    settings.find? key = some setting ↔
      setting.key = key ∧
        ∃ i, setting.line = i + 1 ∧ WinsAt (Text.lines text.toList) i key setting.value := by
  have ho := outcome_assignmentsOf (Text.lines text.toList)
  rw [(parse_eq_ok_iff.mp h).2] at ho
  cases ho with
  | read _ hw => exact hw settings.path key setting

lemma get?_of_parse {settings : Settings} (h : parse text path = .ok settings) :
    settings.get? key = some value ↔ ∃ i, WinsAt (Text.lines text.toList) i key value := by
  rw [get?, Option.map_eq_some_iff]
  constructor
  · rintro ⟨setting, hs, rfl⟩
    obtain ⟨-, i, -, hw⟩ := (find?_of_parse h).mp hs
    exact ⟨i, hw⟩
  · rintro ⟨i, hw⟩
    exact ⟨⟨key, value, i + 1⟩, (find?_of_parse h).mpr ⟨rfl, i, rfl, hw⟩, rfl⟩

lemma get?_eq_none_of_parse {settings : Settings} (h : parse text path = .ok settings) :
    settings.get? key = none ↔
      ∀ i value, ¬ StandsAt (Text.lines text.toList) i (Assigns key value) := by
  simp only [Option.eq_none_iff_forall_ne_some, ne_eq, get?_of_parse h]
  constructor
  · intro hn i value hs
    obtain ⟨j, other, hw⟩ := exists_winsAt hs
    exact hn other ⟨j, hw⟩
  · rintro hn value ⟨i, hw⟩
    exact hn i value hw.1

lemma find?_of_fault {α : Type} {settings : Settings} {read : Reader α} {e : SettingError}
    (h : settings.value? read key = .error e) :
    e.path = settings.path ∧ settings.find? key = some e.setting := by
  unfold value? at h
  split at h
  · cases h
  · next hs =>
    split at h
    · cases h
    · cases h
      exact ⟨rfl, hs⟩

lemma parse_eq_error_iff_first {e : SettingsError} :
    parse text path = .error e ↔
      e.path = path ∧ ∃ i, e.line = i + 1 ∧
        StandsAt (Text.lines text.toList) i (Offends e.fault) ∧
          ∀ j, j < i → ∀ fault, ¬ StandsAt (Text.lines text.toList) j (Offends fault) := by
  have h := outcome_assignmentsOf (Text.lines text.toList)
  rw [parse_eq_error_iff]
  refine and_congr_right fun _ => ?_
  obtain ⟨-, n, fault⟩ := e
  constructor
  · intro hr
    rw [hr] at h
    cases h with
    | refused ho hf => exact ⟨_, rfl, ho, hf⟩
  · rintro ⟨i, hi, ho, hf⟩
    obtain rfl : n = i + 1 := hi
    generalize assignmentsOf none 1 (Text.lines text.toList) = r at h
    cases h with
    | read hn _ => exact absurd ho (hn _ _)
    | @refused j fault' ho' hf' =>
      -- There is only one first line that offends.
      have hij : j = i := by
        rcases lt_trichotomy j i with hlt | he | hlt
        · exact absurd ho' (hf j hlt fault')
        · exact he
        · exact absurd ho (hf' i hlt fault)
      subst hij
      obtain ⟨line, hl, hl'⟩ := ho
      obtain ⟨line', hm, hm'⟩ := ho'
      obtain rfl : line = line' := Option.some.inj (hl.symm.trans hm)
      rw [hl'.unique hm']

/-- Reading succeeds exactly if every line that means something is a header, or an assignment behind
some header. To each key the last assignment counts, and a fault of its value names its line. Else
the first line that offends is named. -/
theorem last_assignment_wins (text path : String) :
    let lines := Text.lines text.toList
    ((∃ settings, parse text path = .ok settings) ↔
      ∀ i line, lines[i]? = some line → Line.Significant line →
        (∃ name, Line.IsHeader line name) ∨
          (∃ property value, Line.IsAssignment line property value) ∧
            ∃ header ∈ lines.take i, ∃ name, Line.IsHeader header name) ∧
    (∀ settings, parse text path = .ok settings → ∀ key,
      (∀ value, settings.get? key = some value ↔ ∃ i, WinsAt lines i key value) ∧
      (settings.get? key = none ↔ ∀ i value, ¬ StandsAt lines i (Assigns key value)) ∧
      ∀ (α : Type) (read : Reader α) e, settings.value? read key = .error e →
        e.path = path ∧ e.setting.key = key ∧
          ∃ i, e.setting.line = i + 1 ∧ WinsAt lines i key e.setting.value) ∧
    ∀ e, parse text path = .error e ↔
      e.path = path ∧ ∃ i, e.line = i + 1 ∧ StandsAt lines i (Offends e.fault) ∧
        ∀ j, j < i → ∀ fault, ¬ StandsAt lines j (Offends fault) := by
  intro lines
  refine ⟨?_, ?_, fun e => parse_eq_error_iff_first⟩
  · simp only [exists_parse_iff, ← not_offends_iff]
    constructor
    · intro ho i line hl fault hf
      exact ho i fault ⟨line, hl, hf⟩
    · rintro ho i fault ⟨line, hl, hf⟩
      exact ho i line hl fault hf
  · intro settings h key
    refine ⟨fun value => get?_of_parse h, get?_eq_none_of_parse h, fun α read e he => ?_⟩
    obtain ⟨hp, hf⟩ := find?_of_fault he
    exact ⟨hp.trans (parse_eq_ok_iff.mp h).1, (find?_of_parse h).mp hf⟩

theorem last_assignment_wins_in_reopened_section :
    let text := "[a]\r\nk = 1\n# k = 2\n[b]\nk = 3\n\n[ a ]\r\n\tk = x = y\n[b]"
    let settings : Settings := ⟨".buckconfig",
      [⟨⟨"a", "k"⟩, "1", 2⟩, ⟨⟨"b", "k"⟩, "3", 5⟩, ⟨⟨"a", "k"⟩, "x = y", 8⟩]⟩
    let fault : SettingError := ⟨".buckconfig", ⟨⟨"a", "k"⟩, "x = y", 8⟩, .notTruth⟩
    parse text ".buckconfig" = .ok settings ∧ settings.get? ⟨"a", "k"⟩ = some "x = y" ∧
      settings.value? .truth ⟨"a", "k"⟩ = .error fault ∧
      WinsAt (Text.lines text.toList) 7 ⟨"a", "k"⟩ "x = y" ∧
      ∀ i value, ¬ StandsAt (Text.lines text.toList) i (Assigns ⟨"b", "x"⟩ value) := by
  intro text settings fault
  have hp : parse text ".buckconfig" = .ok settings := by decide +kernel
  have hf : settings.value? .truth ⟨"a", "k"⟩ = .error fault := by decide +kernel
  obtain ⟨-, hread, -⟩ := last_assignment_wins text ".buckconfig"
  obtain ⟨-, -, hfault⟩ := hread settings hp ⟨"a", "k"⟩
  obtain ⟨-, hnone, -⟩ := hread settings hp ⟨"b", "x"⟩
  obtain ⟨-, -, i, hi, hw⟩ := hfault Bool .truth fault hf
  obtain rfl : 7 = i := Nat.succ_injective hi
  exact ⟨hp, rfl, hf, hw, hnone.mp rfl⟩

end EdgeAdmission.Settings
