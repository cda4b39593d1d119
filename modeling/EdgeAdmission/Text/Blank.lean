namespace EdgeAdmission.Text

/-- The code points with the property `White_Space`, as inclusive ranges in ascending order. -/
def blankRanges : List (Nat × Nat) :=
  [(0x09, 0x0D), (0x20, 0x20), (0x85, 0x85), (0xA0, 0xA0), (0x1680, 0x1680), (0x2000, 0x200A),
    (0x2028, 0x2029), (0x202F, 0x202F), (0x205F, 0x205F), (0x3000, 0x3000)]

def isBlank (c : Char) : Bool :=
  blankRanges.any fun (first, last) => first ≤ c.toNat && c.toNat ≤ last

def trimStart (s : List Char) : List Char := s.dropWhile isBlank

def trimEnd (s : List Char) : List Char := (trimStart s.reverse).reverse

def trim (s : List Char) : List Char := trimEnd (trimStart s)

@[simp] theorem trim_nil : trim [] = [] := rfl

theorem trimStart_append {a s : List Char} (h : ∀ c ∈ a, isBlank c = true) :
    trimStart (a ++ s) = trimStart s := by
  induction a with
  | nil => rfl
  | cons c a ih => simp_all [trimStart]

theorem trimEnd_append {a s : List Char} (h : ∀ c ∈ a, isBlank c = true) :
    trimEnd (s ++ a) = trimEnd s := by
  simp only [trimEnd, List.reverse_append]
  rw [trimStart_append (by simpa using h)]

theorem trimStart_eq_nil_iff {s : List Char} : trimStart s = [] ↔ ∀ c ∈ s, isBlank c = true := by
  induction s with
  | nil => simp [trimStart]
  | cons c s ih => by_cases h : isBlank c <;> simp_all [trimStart]

theorem trimEnd_eq_nil_iff {s : List Char} : trimEnd s = [] ↔ ∀ c ∈ s, isBlank c = true := by
  simp [trimEnd, trimStart_eq_nil_iff]

theorem trim_eq_nil_iff {s : List Char} : trim s = [] ↔ ∀ c ∈ s, isBlank c = true := by
  induction s with
  | nil => simp
  | cons c s ih =>
    by_cases h : isBlank c
    · simpa [trim, trimStart, h] using ih
    · simp [trim, trimStart, h, trimEnd_eq_nil_iff]

theorem trim_append_left {a : List Char} (h : ∀ c ∈ a, isBlank c = true) (s : List Char) :
    trim (a ++ s) = trim s := by
  rw [trim, trimStart_append h, trim]

theorem trim_append_right {a : List Char} (h : ∀ c ∈ a, isBlank c = true) (s : List Char) :
    trim (s ++ a) = trim s := by
  induction s with
  | nil => simpa [trim_eq_nil_iff] using h
  | cons c s ih =>
    by_cases hc : isBlank c
    · simpa [trim, trimStart, hc] using ih
    · have ht : trimStart (c :: s) = c :: s := by simp [trimStart, hc]
      have hta : trimStart (c :: s ++ a) = c :: s ++ a := by simp [trimStart, hc]
      rw [trim, hta, trimEnd_append h, trim, ht]

theorem trimStart_append_cons {a b : List Char} {c : Char} (hc : isBlank c = false) :
    trimStart (a ++ c :: b) = trimStart a ++ c :: b := by
  induction a with
  | nil => simp [trimStart, hc]
  | cons d a ih => by_cases hd : isBlank d <;> simp_all [trimStart]

theorem trimEnd_append_cons {a b : List Char} {c : Char} (hc : isBlank c = false) :
    trimEnd (a ++ c :: b) = a ++ c :: trimEnd b := by
  have hr : (a ++ c :: b).reverse = b.reverse ++ c :: a.reverse := by simp
  rw [trimEnd, hr, trimStart_append_cons hc, trimEnd]
  simp

theorem trim_append_cons {a b : List Char} {c : Char} (hc : isBlank c = false) :
    trim (a ++ c :: b) = trimStart a ++ c :: trimEnd b := by
  rw [trim, trimStart_append_cons hc, trimEnd_append_cons hc]

theorem exists_eq_append_trimStart (s : List Char) :
    ∃ a, s = a ++ trimStart s ∧ ∀ c ∈ a, isBlank c = true :=
  ⟨s.takeWhile isBlank, List.takeWhile_append_dropWhile.symm,
    List.all_eq_true.mp List.all_takeWhile⟩

theorem exists_eq_trimEnd_append (s : List Char) :
    ∃ b, s = trimEnd s ++ b ∧ ∀ c ∈ b, isBlank c = true := by
  obtain ⟨a, hs, ha⟩ := exists_eq_append_trimStart s.reverse
  refine ⟨a.reverse, ?_, fun c hc => ha c (List.mem_reverse.mp hc)⟩
  rw [trimEnd, ← List.reverse_append, ← hs, List.reverse_reverse]

theorem trim_trimStart (s : List Char) : trim (trimStart s) = trim s := by
  obtain ⟨a, hs, ha⟩ := exists_eq_append_trimStart s
  calc trim (trimStart s) = trim (a ++ trimStart s) := (trim_append_left ha _).symm
    _ = trim s := by rw [← hs]

theorem trim_trimEnd (s : List Char) : trim (trimEnd s) = trim s := by
  obtain ⟨b, hs, hb⟩ := exists_eq_trimEnd_append s
  calc trim (trimEnd s) = trim (trimEnd s ++ b) := (trim_append_right hb _).symm
    _ = trim s := by rw [← hs]

end EdgeAdmission.Text
