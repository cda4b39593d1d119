import EdgeAdmission.Proofs.SettingsGrammar

/-! Settings files read one behind the other, and files that differ in their layout only. -/

namespace EdgeAdmission

open Text Reading

def Setting.moveDown (k : Nat) (setting : Setting) : Setting :=
  { setting with line := setting.line + k }

def Setting.SameValue (s t : Setting) : Prop := s.key = t.key ∧ s.value = t.value

def SettingError.onLine (n : Nat) (e : SettingError) : SettingError :=
  { e with setting := { e.setting with line := n } }

namespace Settings

section Overlay

variable {current : Option String} {n : Nat} {lines : List (List Char)} {as : List Setting}

lemma assignmentsOf_moveDown (k : Nat) (h : assignmentsOf current n lines = .ok as) :
    assignmentsOf current (n + k) lines = .ok (as.map (·.moveDown k)) := by
  induction lines generalizing current n as with
  | nil =>
    cases h
    rfl
  | cons line lines ih =>
    have hn : n + k + 1 = n + 1 + k := by omega
    obtain ⟨hl, h⟩ | ⟨name, hl, h⟩ | ⟨name, property, value, bs, rfl, hl, hb, rfl⟩ :=
      assignmentsOf_cons_cases h
    · rw [assignmentsOf_insignificant hl, hn, ih h]
    · rw [assignmentsOf_header hl, hn, ih h]
    · rw [assignmentsOf_assignment hl, hn, ih hb]
      rfl

lemma assignmentsOf_of_none (h : assignmentsOf none n lines = .ok as) (current : Option String) :
    assignmentsOf current n lines = .ok as := by
  induction lines generalizing n as with
  | nil => exact h
  | cons line lines ih =>
    obtain ⟨hl, h⟩ | ⟨name, hl, h⟩ | ⟨name, property, value, bs, hc, -⟩ := assignmentsOf_cons_cases h
    · rw [assignmentsOf_insignificant hl]
      exact ih h
    · rw [assignmentsOf_header hl]
      exact h
    · cases hc

lemma length_splitOn (c : Char) (s : List Char) : (s.splitOn c).length = s.count c + 1 := by
  induction s with
  | nil => rfl
  | cons d s ih =>
    rw [List.splitOn_cons_eq_if_modifyHead, List.count_cons]
    split <;> simp [ih]

lemma parse_overlay {base overlay p q : String} {b o : Settings} (hb : parse base p = .ok b)
    (ho : parse overlay q = .ok o) (path : String) :
    parse (base ++ "\n" ++ overlay) path =
      .ok ⟨path, b.assignments ++ o.assignments.map (·.moveDown (base.toList.count '\n' + 1))⟩ := by
  obtain ⟨-, hb⟩ := parse_eq_ok_iff.mp hb
  obtain ⟨-, ho⟩ := parse_eq_ok_iff.mp ho
  rw [← assignmentsOf_lines] at hb ho
  have ht : (base ++ "\n" ++ overlay).toList.splitOn '\n' =
      base.toList.splitOn '\n' ++ overlay.toList.splitOn '\n' := by
    rw [String.toList_append, String.toList_append, List.append_assoc]
    exact List.splitOn_append_cons_self _ _
  rw [parse_eq_ok_iff, ← assignmentsOf_lines, ht, assignmentsOf_append, hb, length_splitOn]
  refine ⟨rfl, ?_⟩
  have hm := assignmentsOf_moveDown (base.toList.count '\n' + 1)
    (assignmentsOf_of_none ho (sectionAfter none (base.toList.splitOn '\n')))
  rw [Except.bind, hm]
  rfl

end Overlay

def Pads (core line : List Char) : Prop :=
  ∃ a b, line = a ++ core ++ b ∧ (∀ c ∈ a, isBlank c = true) ∧ ∀ c ∈ b, isBlank c = true

lemma pads_append (a core b : List Char) (ha : a.all isBlank = true) (hb : b.all isBlank = true) :
    Pads core (a ++ core ++ b) :=
  ⟨a, b, rfl, List.all_eq_true.mp ha, List.all_eq_true.mp hb⟩

lemma pads_self (core : List Char) : Pads core core :=
  ⟨[], [], by simp, by simp, by simp⟩

inductive DifferInLayout : List (List Char) → List (List Char) → Prop
  | nil : DifferInLayout [] []
  | line {core line line' : List Char} {lines lines' : List (List Char)} (hc : Pads core line)
      (hc' : Pads core line') (h : DifferInLayout lines lines') :
      DifferInLayout (line :: lines) (line' :: lines')
  | more {line : List Char} {lines lines' : List (List Char)} (hl : ¬ Line.Significant line)
      (h : DifferInLayout lines lines') : DifferInLayout lines (line :: lines')
  | fewer {line : List Char} {lines lines' : List (List Char)} (hl : ¬ Line.Significant line)
      (h : DifferInLayout lines lines') : DifferInLayout (line :: lines) lines'

section Layout

variable {lines lines' : List (List Char)} {as bs : List Setting} {key : Setting.Key}
  {settings settings' : Settings}

lemma trim_of_pads {core line : List Char} (h : Pads core line) : trim line = trim core := by
  obtain ⟨a, b, rfl, ha, hb⟩ := h
  rw [trim_append_right hb, trim_append_left ha]

lemma assignmentsOf_layout {current : Option String} {n : Nat} (h : DifferInLayout lines lines')
    (ha : assignmentsOf current n lines = .ok as) (m : Nat) :
    ∃ bs, assignmentsOf current m lines' = .ok bs ∧ List.Forall₂ Setting.SameValue as bs := by
  induction h generalizing current n m as with
  | nil =>
    cases ha
    exact ⟨[], rfl, .nil⟩
  | more hl _ ih =>
    rw [assignmentsOf_insignificant hl]
    exact ih ha (m + 1)
  | fewer hl _ ih =>
    rw [assignmentsOf_insignificant hl] at ha
    exact ih ha m
  | @line core line line' lines lines' hp hp' _ ih =>
    have ht : (line' :: lines').map trim = (line :: lines').map trim := by
      rw [List.map_cons, List.map_cons, trim_of_pads hp', trim_of_pads hp]
    rw [assignmentsOf_congr ht]
    obtain ⟨hl, ha⟩ | ⟨name, hl, ha⟩ | ⟨name, property, value, cs, rfl, hl, hc, rfl⟩ :=
      assignmentsOf_cons_cases ha
    · rw [assignmentsOf_insignificant hl]
      exact ih ha (m + 1)
    · rw [assignmentsOf_header hl]
      exact ih ha (m + 1)
    · rw [assignmentsOf_assignment hl]
      obtain ⟨bs, hb, hab⟩ := ih hc (m + 1)
      exact ⟨_, map_eq_ok_iff.mpr ⟨bs, hb, rfl⟩, .cons ⟨rfl, rfl⟩ hab⟩

lemma find?_sameValue (h : List.Forall₂ Setting.SameValue settings.assignments settings'.assignments)
    (key : Setting.Key) : Option.Rel Setting.SameValue (settings.find? key) (settings'.find? key) := by
  rw [find?, find?]
  replace h := List.forall₂_reverse_iff.mpr h
  generalize settings.assignments.reverse = as, settings'.assignments.reverse = bs at h
  induction h with
  | nil => exact .none
  | @cons s t as bs hst _ ih =>
    rw [List.find?_cons, List.find?_cons, ← hst.1]
    by_cases hk : s.key = key
    · simpa [hk] using Option.Rel.some hst
    · simpa [hk] using ih

lemma get?_sameValue (h : List.Forall₂ Setting.SameValue settings.assignments settings'.assignments) :
    settings'.get? key = settings.get? key := by
  have hf := find?_sameValue h key
  rw [get?, get?]
  generalize settings.find? key = s, settings'.find? key = t at hf
  cases hf with
  | none => rfl
  | some hst => exact congrArg some hst.2.symm

lemma value?_sameValue (hp : settings'.path = settings.path)
    (h : List.Forall₂ Setting.SameValue settings.assignments settings'.assignments) :
    ∃ n, ∀ (α : Type) (read : Reader α),
      settings'.value? read key = (settings.value? read key).mapError (·.onLine n) := by
  have hf := find?_sameValue h key
  simp only [value?]
  generalize settings.find? key = s, settings'.find? key = t at hf
  cases hf with
  | none => exact ⟨0, fun α read => rfl⟩
  | @some s t hst =>
    refine ⟨t.line, fun α read => ?_⟩
    obtain ⟨key, value, n⟩ := s
    obtain ⟨key', value', m⟩ := t
    obtain ⟨rfl, rfl⟩ : key = key' ∧ value = value' := hst
    cases hr : Reader.lenient read value with
    | ok v => simp [hr, Except.mapError]
    | error fault => simp [hr, Except.mapError, SettingError.onLine, hp]

lemma get?_append (settings overlay : Settings) :
    get? ⟨settings.path, settings.assignments ++ overlay.assignments⟩ key =
      (overlay.get? key).or (settings.get? key) := by
  rw [get?, find?_append, Option.map_or]
  rfl

lemma get?_moveDown (k : Nat) (p q : String) :
    get? ⟨p, as.map (·.moveDown k)⟩ key = get? ⟨q, as⟩ key := by
  apply get?_sameValue
  rw [List.forall₂_map_right_iff, List.forall₂_same]
  exact fun s _ => ⟨rfl, rfl⟩

end Layout

theorem overlays_override_key_by_key :
    (∀ (base overlay p q path : String) (b o : Settings),
      parse base p = .ok b → parse overlay q = .ok o →
      ∃ m, parse (base ++ "\n" ++ overlay) path = .ok m ∧
        (∀ key, m.get? key = (o.get? key).or (b.get? key)) ∧
        m.assignments =
          b.assignments ++ o.assignments.map (·.moveDown (base.toList.count '\n' + 1))) ∧
    ∀ (text text' path : String) (settings : Settings),
      parse text path = .ok settings →
      DifferInLayout (Text.lines text.toList) (Text.lines text'.toList) →
      ∃ settings', parse text' path = .ok settings' ∧
        (∀ key, settings'.get? key = settings.get? key ∧ settings'.list? key = settings.list? key) ∧
        ∀ key, ∃ n, ∀ (α : Type) (read : Reader α),
          settings'.value? read key = (settings.value? read key).mapError (·.onLine n) := by
  constructor
  · intro base overlay p q path b o hb ho
    refine ⟨_, parse_overlay hb ho path, fun key => ?_, rfl⟩
    let moved : List Setting := o.assignments.map (·.moveDown (base.toList.count '\n' + 1))
    calc get? ⟨path, b.assignments ++ moved⟩ key
        = (get? ⟨path, moved⟩ key).or (get? ⟨path, b.assignments⟩ key) :=
          get?_append ⟨path, _⟩ ⟨path, _⟩
      _ = (o.get? key).or (b.get? key) := by
        rw [get?_moveDown (base.toList.count '\n' + 1) path o.path]
        rfl
  · intro text text' path settings h hd
    obtain ⟨hp, ha⟩ := parse_eq_ok_iff.mp h
    obtain ⟨bs, hb, hab⟩ := assignmentsOf_layout hd ha 1
    have hget : ∀ key, get? ⟨path, bs⟩ key = settings.get? key := fun key => get?_sameValue hab
    refine ⟨⟨path, bs⟩, parse_eq_ok_iff.mpr ⟨rfl, hb⟩, fun key => ⟨hget key, ?_⟩, fun key => ?_⟩
    · rw [list?, hget, list?]
    · exact value?_sameValue hp.symm hab

theorem overlays_override_in_other_layout :
    let base := "[a]\nx = 1\r\n[b]\ny = 2"
    let overlay := "# over\n[a]\nx = 3\n"
    let loose := "; top\n\t[a] \n\n x = 1\r\n[b]\ny = 2\u00a0\n# end"
    let b : Settings := ⟨"base", [⟨⟨"a", "x"⟩, "1", 2⟩, ⟨⟨"b", "y"⟩, "2", 4⟩]⟩
    let o : Settings := ⟨"over", [⟨⟨"a", "x"⟩, "3", 3⟩]⟩
    parse base "base" = .ok b ∧ parse overlay "over" = .ok o ∧
      DifferInLayout (Text.lines base.toList) (Text.lines loose.toList) ∧
      (∃ m, parse (base ++ "\n" ++ overlay) "both" = .ok m ∧
        m.get? ⟨"a", "x"⟩ = some "3" ∧ m.get? ⟨"b", "y"⟩ = some "2" ∧
        m.assignments = [⟨⟨"a", "x"⟩, "1", 2⟩, ⟨⟨"b", "y"⟩, "2", 4⟩, ⟨⟨"a", "x"⟩, "3", 7⟩]) ∧
      ∃ settings, parse loose "base" = .ok settings ∧ settings.get? ⟨"b", "y"⟩ = some "2" ∧
        ∃ n, settings.value? .truth ⟨"b", "y"⟩ =
          .error ⟨"base", ⟨⟨"b", "y"⟩, "2", n⟩, .notTruth⟩ := by
  intro base overlay loose b o
  have hb : parse base "base" = .ok b := by decide +kernel
  have ho : parse overlay "over" = .ok o := by decide +kernel
  have hlines : Text.lines base.toList =
      ["[a]".toList, "x = 1".toList, "[b]".toList, "y = 2".toList] := by decide +kernel
  have hloose : Text.lines loose.toList = ["; top".toList, "\t[a] ".toList, "".toList,
      " x = 1".toList, "[b]".toList, "y = 2\u00a0".toList, "# end".toList] := by decide +kernel
  have hd : DifferInLayout (Text.lines base.toList) (Text.lines loose.toList) := by
    rw [hlines, hloose]
    refine .more (fun h => h.2.2 rfl) (.line (pads_self _) (pads_append ['\t'] _ [' '] rfl rfl) ?_)
    refine .more (fun h => h.1 rfl) (.line (pads_self _) (pads_append [' '] _ [] rfl rfl) ?_)
    refine .line (pads_self _) (pads_self _)
      (.line (pads_self _) (pads_append [] _ ['\u00a0'] rfl rfl) ?_)
    exact .more (fun h => h.2.1 rfl) .nil
  obtain ⟨hoverlay, hlayout⟩ := overlays_override_key_by_key
  obtain ⟨m, hm, hget, has⟩ := hoverlay base overlay "base" "over" "both" b o hb ho
  obtain ⟨settings, hs, hsame, hvalue⟩ := hlayout base loose "base" b hb hd
  obtain ⟨n, hv⟩ := hvalue ⟨"b", "y"⟩
  have hval : b.value? .truth ⟨"b", "y"⟩ =
      .error ⟨"base", ⟨⟨"b", "y"⟩, "2", 4⟩, .notTruth⟩ := by decide +kernel
  have hcount : base.toList.count '\n' + 1 = 4 := by decide +kernel
  refine ⟨hb, ho, hd, ⟨m, hm, hget ⟨"a", "x"⟩, hget ⟨"b", "y"⟩, ?_⟩,
    settings, hs, (hsame ⟨"b", "y"⟩).1, n, ?_⟩
  · rw [has, hcount]
    rfl
  · rw [hv, hval]
    rfl

end Settings

end EdgeAdmission
