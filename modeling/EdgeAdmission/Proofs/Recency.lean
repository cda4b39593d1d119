import Mathlib.Tactic

namespace EdgeAdmission

variable {α σ : Type} {R P : α → Prop} {as : List α} {a b : α}

def SinceLast (R : α → Prop) (as : List α) (a : α) : Prop :=
  ∃ front rest, as = front ++ a :: rest ∧ ∀ b ∈ rest, ¬ R b

lemma not_sinceLast_nil : ¬ SinceLast R [] a := by
  rintro ⟨front, rest, h, -⟩
  simp at h

lemma sinceLast_concat : SinceLast R (as ++ [b]) a ↔ a = b ∨ SinceLast R as a ∧ ¬ R b := by
  constructor
  · rintro ⟨front, rest, h, hr⟩
    cases rest using List.reverseRecOn with
    | nil =>
      obtain rfl : b = a := List.singleton_injective (List.append_inj_right' h rfl)
      exact .inl rfl
    | append_singleton rest c =>
      rw [← List.cons_append, ← List.append_assoc] at h
      obtain ⟨rfl, hb⟩ := List.append_inj' h rfl
      obtain rfl : b = c := List.singleton_injective hb
      rw [List.forall_mem_append] at hr
      exact .inr ⟨⟨front, rest, rfl, hr.1⟩, hr.2 b List.mem_cons_self⟩
  · rintro (rfl | ⟨⟨front, rest, rfl, hr⟩, hb⟩)
    · exact ⟨as, [], rfl, by simp⟩
    · refine ⟨front, rest ++ [b], by simp, ?_⟩
      rw [List.forall_mem_append]
      exact ⟨hr, by simpa using hb⟩

lemma exists_sinceLast_concat :
    (∃ a, SinceLast R (as ++ [b]) a ∧ P a) ↔ P b ∨ (∃ a, SinceLast R as a ∧ P a) ∧ ¬ R b := by
  constructor
  · rintro ⟨a, ha, hp⟩
    rcases sinceLast_concat.mp ha with rfl | ⟨ha, hb⟩
    · exact .inl hp
    · exact .inr ⟨⟨a, ha, hp⟩, hb⟩
  · rintro (hp | ⟨⟨a, ha, hp⟩, hb⟩)
    · exact ⟨b, sinceLast_concat.mpr (.inl rfl), hp⟩
    · exact ⟨a, sinceLast_concat.mpr (.inr ⟨ha, hb⟩), hp⟩

lemma foldl_iff_sinceLast (Q : σ → Prop) {step : σ → α → σ} {s : σ}
    (hstep : ∀ s a, Q (step s a) ↔ P a ∨ Q s ∧ ¬ R a) (hs : ¬ Q s) :
    Q (as.foldl step s) ↔ ∃ a, SinceLast R as a ∧ P a := by
  induction as using List.reverseRecOn with
  | nil => simp [hs, not_sinceLast_nil]
  | append_singleton as b ih =>
    rw [List.foldl_concat, hstep, ih, exists_sinceLast_concat]

end EdgeAdmission
