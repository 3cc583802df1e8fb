import Mathlib.Data.List.Basic
import Mathlib.Tactic.Common

/-!
# Writing blocks through a port that takes part of them

A writer holds the block in progress and a cursor into it. `stage` puts a new
block in the writer and `accept` moves the cursor by what the port took.
`Writes` ties the octets already sent to the blocks staged so far: what was
sent, followed by the rest of the block in progress, is their concatenation.
-/

structure BlockStream (α : Type) where
  sent : List α := []
  block : List α := []
  offset : Nat := 0

namespace BlockStream

variable {α : Type}

/-- There is a block in progress. -/
def Pending (w : BlockStream α) : Prop := w.offset < w.block.length

/-- The part of the block in progress that is still to be sent. -/
def rest (w : BlockStream α) : List α := w.block.drop w.offset

/-- Start a block. -/
def stage (w : BlockStream α) (b : List α) : BlockStream α := { w with block := b, offset := 0 }

/-- The port took `n` of the octets offered to it. -/
def accept (w : BlockStream α) (n : Nat) : BlockStream α :=
  { w with sent := w.sent ++ w.rest.take n, offset := w.offset + min n w.rest.length }

/-- Forget a finished block. -/
def clear (w : BlockStream α) : BlockStream α := { w with block := [], offset := 0 }

/-- `blocks` were staged in order, and all but `w.rest` of them was sent. -/
structure Writes (w : BlockStream α) (blocks : List (List α)) : Prop where
  sent : w.sent ++ w.rest = blocks.flatten
  last : w.Pending → blocks.getLast? = some w.block

variable {w : BlockStream α} {blocks : List (List α)} {b : List α} {n : Nat}

theorem rest_eq_nil : w.rest = [] ↔ ¬ w.Pending := by
  rw [rest, List.drop_eq_nil_iff, Pending, Nat.not_lt]

theorem Writes.stage (h : w.Writes blocks) (hidle : ¬ w.Pending) :
    (w.stage b).Writes (blocks ++ [b]) := by
  have hsent := h.sent
  rw [rest_eq_nil.2 hidle, List.append_nil] at hsent
  refine ⟨?_, fun _ => by simp [BlockStream.stage]⟩
  rw [List.flatten_append, ← hsent]
  simp [BlockStream.stage, rest]

theorem rest_accept : (w.accept n).rest = w.rest.drop n := by
  simp only [accept, rest, List.length_drop, List.drop_drop]
  rcases Nat.le_total n (w.block.length - w.offset) with h | h
  · rw [Nat.min_eq_left h]
  · rw [Nat.min_eq_right h, List.drop_of_length_le (by omega), List.drop_of_length_le (by omega)]

theorem Writes.accept (h : w.Writes blocks) : (w.accept n).Writes blocks := by
  refine ⟨?_, fun hp => h.last ?_⟩
  · rw [rest_accept]
    change w.sent ++ w.rest.take n ++ w.rest.drop n = _
    rw [List.append_assoc, List.take_append_drop, h.sent]
  · simp only [Pending, BlockStream.accept] at hp ⊢
    omega

theorem Writes.clear (h : w.Writes blocks) (hidle : ¬ w.Pending) : w.clear.Writes blocks := by
  refine ⟨?_, fun hp => absurd hp (by simp [Pending, BlockStream.clear])⟩
  have hsent := h.sent
  rw [rest_eq_nil.2 hidle] at hsent
  exact hsent

/-- What was sent: every block but the last whole, then a proper prefix of the
last one while it is in progress. -/
theorem Writes.decompose (h : w.Writes blocks) :
    (¬ w.Pending ∧ w.sent = blocks.flatten) ∨
      (w.Pending ∧ ∃ done, blocks = done ++ [w.block] ∧
        w.sent = done.flatten ++ w.block.take w.offset) := by
  by_cases hp : w.Pending
  · refine .inr ⟨hp, ?_⟩
    obtain ⟨done, hdone⟩ := List.getLast?_eq_some_iff.1 (h.last hp)
    refine ⟨done, hdone, ?_⟩
    have hsent := h.sent
    rw [hdone, List.flatten_append, List.flatten_singleton] at hsent
    rw [← List.append_cancel_right_eq _ w.rest, hsent, List.append_assoc, rest,
      List.take_append_drop]
  · refine .inl ⟨hp, ?_⟩
    have hsent := h.sent
    rwa [rest_eq_nil.2 hp, List.append_nil] at hsent

end BlockStream
