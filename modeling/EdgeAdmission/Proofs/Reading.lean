import EdgeAdmission.Text.Cut
import Mathlib.Tactic

namespace EdgeAdmission.Reading

variable {ε ε' α β : Type} {x : Except ε α} {a : α} {b : β}

lemma bind_eq_ok_iff {f : α → Except ε β} :
    (x >>= f) = .ok b ↔ ∃ a, x = .ok a ∧ f a = .ok b := by
  cases x <;> simp [bind, Except.bind]

lemma map_eq_ok_iff {f : α → β} : x.map f = .ok b ↔ ∃ a, x = .ok a ∧ f a = b := by
  cases x <;> simp [Except.map]

lemma mapError_eq_ok_iff {f : ε → ε'} : x.mapError f = .ok a ↔ x = .ok a := by
  cases x <;> simp [Except.mapError]

lemma map_eq_error_iff {f : α → β} {e : ε} : x.map f = .error e ↔ x = .error e := by
  cases x <;> simp [Except.map]

lemma mapError_eq_error_iff {f : ε → ε'} {e : ε'} :
    x.mapError f = .error e ↔ ∃ e', x = .error e' ∧ f e' = e := by
  cases x <;> simp [Except.mapError]

lemma pure_eq_ok_iff {a' : α} : (pure a : Except ε α) = .ok a' ↔ a = a' := by
  simp [pure, Except.pure]

lemma mapM_eq_ok_iff {f : α → Except ε β} {as : List α} {bs : List β} :
    as.mapM f = .ok bs ↔ List.Forall₂ (fun a b => f a = .ok b) as bs := by
  induction as generalizing bs with
  | nil => rw [List.mapM_nil, pure_eq_ok_iff, List.forall₂_nil_left_iff, eq_comm]
  | cons a as ih =>
    simp only [List.mapM_cons, bind_eq_ok_iff, pure_eq_ok_iff, ih, List.forall₂_cons_left_iff]
    constructor
    · rintro ⟨b, hb, bs, hbs, rfl⟩
      exact ⟨b, bs, hb, hbs, rfl⟩
    · rintro ⟨b, bs, hb, hbs, rfl⟩
      exact ⟨b, hb, bs, hbs, rfl⟩

lemma exists_front_iff_cutLast? {text name : String} {c : Char} (hn : c ∉ name.toList)
    {P : String → Prop} :
    (∃ front, text = front ++ .singleton c ++ name ∧ P front) ↔
      ∃ front, Text.cutLast? c text.toList = some (front, name.toList) ∧ P (.ofList front) := by
  simp only [Text.cutLast?_eq_some_iff, hn, not_false_eq_true, and_true]
  constructor
  · rintro ⟨front, rfl, h⟩
    exact ⟨front.toList, by simp, by simpa using h⟩
  · rintro ⟨front, ht, h⟩
    exact ⟨.ofList front, by simp [← String.toList_inj, ht], h⟩

end EdgeAdmission.Reading
