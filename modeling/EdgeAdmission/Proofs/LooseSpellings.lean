import EdgeAdmission.Proofs.LastAssignment
import EdgeAdmission.Proofs.Reading

namespace EdgeAdmission

open Reading

namespace Reader

def looseSpellings : Bool → List String
  | true => ["true", "yes", "1"]
  | false => ["false", "no", "0"]

def strictSpelling : Bool → String
  | true => "true"
  | false => "false"

variable {α : Type} {read : Reader α} {s t : String} {b : Bool} {lowest highest : Nat}

lemma strictTruth?_eq_some_iff :
    strictTruth? s = some t ↔ ∃ b, s.toLower ∈ looseSpellings b ∧ strictSpelling b = t := by
  unfold strictTruth?
  split <;> simp_all [looseSpellings, strictSpelling]

lemma strictTruth?_eq_none_iff : strictTruth? s = none ↔ ∀ b, s.toLower ∉ looseSpellings b := by
  unfold strictTruth?
  split <;> simp_all [looseSpellings]

lemma looseSpellings_unique {c : Bool} (h : s.toLower ∈ looseSpellings b)
    (h' : s.toLower ∈ looseSpellings c) : b = c := by
  cases b <;> cases c <;> grind [looseSpellings]

lemma truth_strictSpelling (b : Bool) : truth (strictSpelling b) = .ok b := by
  cases b <;> rfl

lemma strictSpelling_toLower_mem (b : Bool) : (strictSpelling b).toLower ∈ looseSpellings b := by
  cases b <;> decide +kernel

lemma truth_cases (s : String) :
    (∃ b, s = strictSpelling b) ∨ truth s = .error .notTruth := by
  unfold truth
  split
  · exact .inl ⟨true, rfl⟩
  · exact .inl ⟨false, rfl⟩
  · exact .inr rfl

lemma lenient_of_refuses (h : ∀ b v, read (strictSpelling b) ≠ .ok v) (s : String) :
    lenient read s = read s := by
  unfold lenient
  cases read s with
  | ok v => rfl
  | error e =>
    dsimp only
    split
    · next t ht =>
      obtain ⟨b, -, rfl⟩ := strictTruth?_eq_some_iff.mp ht
      cases hb : read (strictSpelling b) with
      | ok v => exact absurd hb (h b v)
      | error e' => rfl
    · rfl

lemma lenient_truth_of_mem (h : s.toLower ∈ looseSpellings b) : lenient truth s = .ok b := by
  unfold lenient
  rcases truth_cases s with ⟨c, rfl⟩ | hs
  · rw [truth_strictSpelling, looseSpellings_unique h (strictSpelling_toLower_mem c)]
  · rw [hs, strictTruth?_eq_some_iff.mpr ⟨b, h, rfl⟩]
    dsimp only
    rw [truth_strictSpelling]
    rfl

lemma truth_of_not_mem (h : ∀ b, s.toLower ∉ looseSpellings b) : truth s = .error .notTruth := by
  rcases truth_cases s with ⟨b, rfl⟩ | hs
  · exact absurd (strictSpelling_toLower_mem b) (h b)
  · exact hs

lemma lenient_truth_of_not_mem (h : ∀ b, s.toLower ∉ looseSpellings b) :
    lenient truth s = .error .notTruth := by
  unfold lenient
  rw [truth_of_not_mem h, strictTruth?_eq_none_iff.mpr h]

lemma lenient_truth_eq_ok_iff : lenient truth s = .ok b ↔ s.toLower ∈ looseSpellings b := by
  constructor
  · intro h
    by_contra hn
    by_cases hs : ∃ c, s.toLower ∈ looseSpellings c
    · obtain ⟨c, hc⟩ := hs
      rw [lenient_truth_of_mem hc] at h
      cases h
      exact hn hc
    · rw [lenient_truth_of_not_mem (not_exists.mp hs)] at h
      cases h
  · exact lenient_truth_of_mem

lemma lenient_text (s : String) : lenient text s = .ok s := rfl

lemma lenient_natural (limit : Nat) (s : String) :
    lenient (natural limit) s = natural limit s := by
  apply lenient_of_refuses
  rintro (_ | _) v h
  · cases h
  · cases h

lemma lenient_integer (lowest highest : Nat) (s : String) :
    lenient (integer lowest highest) s = integer lowest highest s := by
  apply lenient_of_refuses
  rintro (_ | _) v h
  · cases h
  · cases h

lemma integer_mem_range {i : Int} (h : integer lowest highest s = .ok i) :
    -(lowest : Int) ≤ i ∧ i ≤ highest := by
  have hupper : ∀ {ds}, (decimal highest .tooLarge 0 ds).map Int.ofNat = .ok i →
      -(lowest : Int) ≤ i ∧ i ≤ highest := by
    intro ds hd
    obtain ⟨n, hn, rfl⟩ := map_eq_ok_iff.mp hd
    have hle := decimal_le (Nat.zero_le highest) hn
    simp only [Int.ofNat_eq_natCast]
    omega
  unfold integer at h
  split at h
  · cases h
  · cases h
  · cases h
  · exact hupper h
  · obtain ⟨n, hn, rfl⟩ := map_eq_ok_iff.mp h
    have hle := decimal_le (Nat.zero_le lowest) hn
    simp only [Int.ofNat_eq_natCast]
    omega
  · exact hupper h

end Reader

namespace Settings

variable {α : Type} {settings : Settings} {read : Reader α} {key : Setting.Key} {setting : Setting}
  {e : SettingError}

lemma value?_of_find? (h : settings.find? key = some setting) :
    settings.value? read key =
      ((read.lenient setting.value).map some).mapError (SettingError.mk settings.path setting) := by
  unfold value?
  rw [h]
  dsimp only
  cases read.lenient setting.value <;> rfl

lemma value?_eq_none_iff : settings.value? read key = .ok none ↔ settings.get? key = none := by
  cases h : settings.find? key with
  | none => simp [value?, get?, h]
  | some setting =>
    rw [value?_of_find? h, mapError_eq_ok_iff, map_eq_ok_iff]
    simp [get?, h]

section Stored

variable (h : settings.find? key = some setting)

include h

lemma value?_eq_some_iff {v : α} :
    settings.value? read key = .ok (some v) ↔ read.lenient setting.value = .ok v := by
  rw [value?_of_find? h, mapError_eq_ok_iff, map_eq_ok_iff]
  simp

lemma value?_eq_error_iff :
    settings.value? read key = .error e ↔
      ∃ fault, read.lenient setting.value = .error fault ∧ ⟨settings.path, setting, fault⟩ = e := by
  simp only [value?_of_find? h, mapError_eq_error_iff, map_eq_error_iff]

end Stored

open Reader in
/-- A truth value may be written in six ways, in any case, and only where a truth value is asked for. A
number or a text is what its own reader makes of the raw value, and so is every fault. A fault names
the key, the raw value, and the file and line of the assignment that counts. -/
theorem loose_spellings_are_truth_values (settings : Settings) (key : Setting.Key) :
    (∀ (α : Type) (read : Reader α),
      settings.value? read key = .ok none ↔ settings.get? key = none) ∧
    (∀ setting, settings.find? key = some setting →
      let raw := setting.value
      let refused := SettingError.mk settings.path setting
      (∀ b, settings.value? .truth key = .ok (some b) ↔ raw.toLower ∈ looseSpellings b) ∧
      ((∀ b, raw.toLower ∉ looseSpellings b) →
        truth raw = .error .notTruth ∧ settings.value? .truth key = .error (refused .notTruth)) ∧
      (∀ limit,
        (∀ n, settings.value? (.natural limit) key = .ok (some n) ↔
          natural limit raw = .ok n ∧ n ≤ limit) ∧
        ∀ e, settings.value? (.natural limit) key = .error e ↔
          ∃ fault, natural limit raw = .error fault ∧ refused fault = e) ∧
      (∀ lowest highest,
        (∀ i, settings.value? (.integer lowest highest) key = .ok (some i) ↔
          integer lowest highest raw = .ok i ∧ -(lowest : Int) ≤ i ∧ i ≤ highest) ∧
        ∀ e, settings.value? (.integer lowest highest) key = .error e ↔
          ∃ fault, integer lowest highest raw = .error fault ∧ refused fault = e) ∧
      settings.value? .text key = .ok (some raw)) ∧
    ∀ (α : Type) (read : Reader α) e, settings.value? read key = .error e →
      settings.find? key = some e.setting ∧
      e.message = "Reading buckconfig at " ++ settings.path ++ ":" ++ e.setting.line.repr ++
        ": Invalid value `" ++ e.setting.value ++ "` for `" ++ key.display ++ "`: " ++
          e.fault.message ∧
      ∀ text path, parse text path = .ok settings → settings.path = path ∧
        ∃ i, e.setting.line = i + 1 ∧ WinsAt (Text.lines text.toList) i key e.setting.value := by
  refine ⟨fun α read => value?_eq_none_iff, ?_, ?_⟩
  · intro setting h raw refused
    refine ⟨fun b => ?_, fun hn => ⟨truth_of_not_mem hn, ?_⟩, fun limit => ⟨fun n => ?_, fun e => ?_⟩,
      fun lowest highest => ⟨fun i => ?_, fun e => ?_⟩, ?_⟩
    · rw [value?_eq_some_iff h, lenient_truth_eq_ok_iff]
    · rw [value?_eq_error_iff h]
      exact ⟨_, lenient_truth_of_not_mem hn, rfl⟩
    · rw [value?_eq_some_iff h, lenient_natural]
      exact (and_iff_left_of_imp natural_le).symm
    · rw [value?_eq_error_iff h, lenient_natural]
    · rw [value?_eq_some_iff h, lenient_integer]
      exact (and_iff_left_of_imp integer_mem_range).symm
    · rw [value?_eq_error_iff h, lenient_integer]
    · exact (value?_eq_some_iff h).mpr (lenient_text raw)
  · intro α read e he
    obtain ⟨hp, hf⟩ := find?_of_fault he
    refine ⟨hf, ?_, ?_⟩
    · unfold SettingError.message
      rw [hp, find?_key hf]
    · intro text path h
      exact ⟨(parse_eq_ok_iff.mp h).1, ((find?_of_parse h).mp hf).2⟩

theorem loose_spellings_are_truth_values_beside_numbers :
    let text := "[s]\nk = no\nk = YES\nn = 1"
    let word : Setting := ⟨⟨"s", "k"⟩, "YES", 3⟩
    let one : Setting := ⟨⟨"s", "n"⟩, "1", 4⟩
    let settings : Settings := ⟨".buckconfig", [⟨⟨"s", "k"⟩, "no", 2⟩, word, one]⟩
    let fault : SettingError := ⟨".buckconfig", word, .invalidDigit⟩
    parse text ".buckconfig" = .ok settings ∧
    (settings.find? word.key = some word ∧ settings.value? .truth word.key = .ok (some true) ∧
      settings.value? (.natural 255) word.key = .error fault ∧
      fault.message = "Reading buckconfig at .buckconfig:3: Invalid value `YES` for `s.k`: " ++
        "invalid digit found in string" ∧
      WinsAt (Text.lines text.toList) 2 word.key "YES") ∧
    (settings.find? one.key = some one ∧ settings.value? .truth one.key = .ok (some true) ∧
      settings.value? (.integer 128 127) one.key = .ok (some 1) ∧
      settings.value? .text one.key = .ok (some "1")) := by
  intro text word one settings fault
  have hp : parse text ".buckconfig" = .ok settings := by decide +kernel
  have hw : settings.find? word.key = some word := by decide +kernel
  have ho : settings.find? one.key = some one := by decide +kernel
  obtain ⟨-, hword, hfault⟩ := loose_spellings_are_truth_values settings word.key
  obtain ⟨-, hone, -⟩ := loose_spellings_are_truth_values settings one.key
  obtain ⟨hyes, -, hnatural, -, -⟩ := hword word hw
  obtain ⟨htrue, -, -, hinteger, htext⟩ := hone one ho
  have hf : settings.value? (.natural 255) word.key = .error fault :=
    ((hnatural 255).2 fault).mpr ⟨.invalidDigit, by decide +kernel, rfl⟩
  obtain ⟨-, hm, hline⟩ := hfault ℕ (.natural 255) fault hf
  obtain ⟨-, i, hi, hwins⟩ := hline text ".buckconfig" hp
  obtain rfl : 2 = i := Nat.succ_injective hi
  refine ⟨hp, ⟨hw, (hyes true).mpr (by decide +kernel), hf, ?_, hwins⟩,
    ho, (htrue true).mpr (by decide +kernel), ?_, htext⟩
  · rw [hm]
    decide +kernel
  · exact ((hinteger 128 127).1 1).mpr ⟨by decide +kernel, by decide, by decide⟩

end Settings

end EdgeAdmission
