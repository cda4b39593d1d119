/-! Cutting a text at a separator: at its first occurrence, at its last, or where it first stands
twice in a row. Each cut is pinned down by the equation that glues the parts together again. -/

namespace EdgeAdmission.Text

variable {c : Char} {s a b : List Char}

def cut? (c : Char) : List Char → Option (List Char × List Char)
  | [] => none
  | x :: s => if x = c then some ([], s) else (cut? c s).map fun (a, b) => (x :: a, b)

def cutLast? (c : Char) : List Char → Option (List Char × List Char)
  | [] => none
  | x :: s =>
    match cutLast? c s with
    | some (a, b) => some (x :: a, b)
    | none => if x = c then some ([], s) else none

def cutDouble? (c : Char) : List Char → Option (List Char × List Char)
  | [] => none
  | x :: s =>
    if x = c ∧ s.head? = some c then some ([], s.tail)
    else (cutDouble? c s).map fun (a, b) => (x :: a, b)

theorem cut?_eq_some_iff : cut? c s = some (a, b) ↔ s = a ++ c :: b ∧ c ∉ a := by
  induction s generalizing a with
  | nil => simp [cut?]
  | cons x s ih => cases a <;> grind [cut?, Option.map_eq_some_iff]

theorem cut?_eq_none_iff : cut? c s = none ↔ c ∉ s := by
  induction s with
  | nil => simp [cut?]
  | cons x s ih => grind [cut?, Option.map_eq_none_iff]

theorem cutLast?_eq_none_iff : cutLast? c s = none ↔ c ∉ s := by
  induction s with
  | nil => simp [cutLast?]
  | cons x s ih => grind [cutLast?]

theorem cutLast?_eq_some_iff : cutLast? c s = some (a, b) ↔ s = a ++ c :: b ∧ c ∉ b := by
  induction s generalizing a with
  | nil => simp [cutLast?]
  | cons x s ih => cases a <;> grind [cutLast?, cutLast?_eq_none_iff]

theorem eq_of_cutDouble? (h : cutDouble? c s = some (a, b)) : s = a ++ c :: c :: b := by
  induction s generalizing a with
  | nil => simp [cutDouble?] at h
  | cons x s ih => cases s <;> grind [cutDouble?, Option.map_eq_some_iff]

theorem cutDouble?_append (h : c ∉ a) : cutDouble? c (a ++ c :: c :: b) = some (a, b) := by
  induction a with
  | nil => simp [cutDouble?]
  | cons x a ih => grind [cutDouble?, Option.map_eq_some_iff]

end EdgeAdmission.Text
