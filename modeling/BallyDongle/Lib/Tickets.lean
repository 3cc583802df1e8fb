import Mathlib.Logic.Function.Basic

/-!
# Tickets for slots

A slot is free or has one valid ticket; a party has none or the ticket of one slot.
Acquiring a free slot gives it a ticket, releasing takes it back. As long as only
the party that has it releases a slot, every valid ticket has exactly one holder.
-/

namespace Tickets

universe u v w

variable {ι : Type u} {κ : Type v} {γ : Type w}

/-- Whoever has a ticket has the valid one of its slot, nobody else has one of that
slot, and no valid ticket is lost. -/
structure Held (holder : ι → Option (κ × γ)) (valid : κ → Option γ) : Prop where
  current : ∀ {i k g}, holder i = some (k, g) → valid k = some g
  alone : ∀ {i j k g g'}, holder i = some (k, g) → holder j = some (k, g') → i = j
  kept : ∀ {k g}, valid k = some g → ∃ i, holder i = some (k, g)

variable [DecidableEq ι] [DecidableEq κ] {holder : ι → Option (κ × γ)} {valid : κ → Option γ}
  {i : ι} {k : κ} {g : γ}

theorem Held.acquire (h : Held holder valid) (hi : holder i = none) (hk : valid k = none) :
    Held (Function.update holder i (some (k, g))) (Function.update valid k (some g)) := by
  have hfree : ∀ {j g'}, holder j ≠ some (k, g') := by
    intro j g' hj
    rw [h.current hj] at hk
    cases hk
  refine ⟨fun {j l g'} hj => ?_, fun {j j' l g₁ g₂} hj hj' => ?_, fun {l g'} hl => ?_⟩
  · rw [Function.update_apply] at hj
    split at hj
    · cases hj
      exact Function.update_self ..
    · have hne : l ≠ k := fun heq => hfree (heq ▸ hj)
      rw [Function.update_of_ne hne]
      exact h.current hj
  · rw [Function.update_apply] at hj hj'
    split at hj <;> split at hj'
    · rename_i hji hji'
      rw [hji, hji']
    · cases hj
      exact absurd hj' hfree
    · cases hj'
      exact absurd hj hfree
    · exact h.alone hj hj'
  · by_cases hlk : l = k
    · subst hlk
      rw [Function.update_self] at hl
      cases hl
      exact ⟨i, Function.update_self ..⟩
    · rw [Function.update_of_ne hlk] at hl
      obtain ⟨j, hj⟩ := h.kept hl
      refine ⟨j, ?_⟩
      rw [Function.update_of_ne, hj]
      rintro rfl
      rw [hi] at hj
      cases hj

theorem Held.release (h : Held holder valid) (hi : holder i = some (k, g)) :
    Held (Function.update holder i none) (Function.update valid k none) := by
  have hother : ∀ {j l g'}, Function.update holder i none j = some (l, g') →
      holder j = some (l, g') ∧ l ≠ k := by
    intro j l g' hj
    rw [Function.update_apply] at hj
    split at hj
    · cases hj
    · rename_i hne
      refine ⟨hj, ?_⟩
      rintro rfl
      exact hne (h.alone hj hi)
  refine ⟨fun {j l g'} hj => ?_, fun {j j' l g₁ g₂} hj hj' => ?_, fun {l g'} hl => ?_⟩
  · obtain ⟨hj', hne⟩ := hother hj
    rw [Function.update_of_ne hne]
    exact h.current hj'
  · exact h.alone (hother hj).1 (hother hj').1
  · by_cases hlk : l = k
    · subst hlk
      rw [Function.update_self] at hl
      cases hl
    · rw [Function.update_of_ne hlk] at hl
      obtain ⟨j, hj⟩ := h.kept hl
      refine ⟨j, ?_⟩
      rw [Function.update_of_ne, hj]
      rintro rfl
      rw [hi] at hj
      cases hj
      exact hlk rfl

end Tickets
