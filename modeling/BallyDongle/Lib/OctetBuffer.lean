import Mathlib.Data.List.Basic

/-!
# Buffers

A buffer is a list, and its length never changes. `store` copies a run of items to it; a run
that reaches beyond the end gives `none`. A `Cursor` appends to a buffer and refuses what its
capacity has no room for.
-/

namespace OctetBuffer

variable {α : Type}

def store (buffer : List α) (offset : Nat) (data : List α) : Option (List α) :=
  if offset + data.length ≤ buffer.length then
    some (buffer.take offset ++ data ++ buffer.drop (offset + data.length))
  else none

variable {buffer data : List α} {offset size : Nat}

theorem store_eq (h : offset + data.length ≤ buffer.length) :
    store buffer offset data =
      some (buffer.take offset ++ data ++ buffer.drop (offset + data.length)) :=
  if_pos h

theorem length_stored (h : offset + data.length ≤ buffer.length) :
    (buffer.take offset ++ data ++ buffer.drop (offset + data.length)).length = buffer.length := by
  simp only [List.length_append, List.length_take, List.length_drop]
  omega

/-! ## Cursors -/

/-- `pos` items of `out` are written, and `capacity` of it may be. -/
structure Cursor (α : Type) where
  out : List α
  capacity : Nat
  pos : Nat := 0

namespace Cursor

def written (c : Cursor α) : List α := c.out.take c.pos

/-- Append, if there is room. -/
def put (c : Cursor α) (data : List α) : Option (Cursor α × Bool) :=
  if c.pos + data.length > c.capacity then some (c, false)
  else
    (store c.out c.pos data).map fun out => ({ c with out, pos := c.pos + data.length }, true)

/-- Overwrite, wherever the cursor is. -/
def patch (c : Cursor α) (offset : Nat) (data : List α) : Option (Cursor α) :=
  (store c.out offset data).map fun out => { c with out }

/-- The second write only if the first was taken. -/
def andThen (first : Option (Cursor α × Bool)) (next : Cursor α → Option (Cursor α × Bool)) :
    Option (Cursor α × Bool) :=
  first.bind fun (c, ok) => if ok then next c else some (c, false)

/-- The cursor keeps within a buffer of `size` items. -/
structure Within (size : Nat) (c : Cursor α) : Prop where
  length : c.out.length = size
  capacity : c.capacity ≤ size
  pos : c.pos ≤ c.capacity

variable {c : Cursor α}

theorem Within.length_written (h : c.Within size) : c.written.length = c.pos := by
  have hlength := h.length
  have hcapacity := h.capacity
  have hpos := h.pos
  rw [written, List.length_take]
  omega

/-- What has room is appended. -/
theorem Within.put (h : c.Within size) (hroom : c.pos + data.length ≤ c.capacity) :
    ∃ c' : Cursor α, c.put data = some (c', true) ∧ c'.Within size ∧ c'.capacity = c.capacity ∧
      c'.written = c.written ++ data := by
  have hlength := h.length
  have hcapacity := h.capacity
  have hin : c.pos + data.length ≤ c.out.length := by omega
  have htake : (c.out.take c.pos ++ data).length = c.pos + data.length := by
    rw [List.length_append, List.length_take]
    omega
  have hput : c.put data = (some (c.out.take c.pos ++ data ++ c.out.drop (c.pos + data.length))).map
      fun out => ({ c with out, pos := c.pos + data.length }, true) := by
    rw [Cursor.put, if_neg (by omega), store_eq hin]
  exact ⟨_, hput, ⟨(length_stored hin).trans h.length, h.capacity, hroom⟩, rfl,
    List.take_left' htake⟩

theorem put_full (hfull : c.capacity < c.pos + data.length) : c.put data = some (c, false) :=
  if_pos hfull

/-- What was written is overwritten. -/
theorem Within.patch (h : c.Within size) (hin : offset + data.length ≤ c.pos) :
    ∃ c' : Cursor α, c.patch offset data = some c' ∧ c'.Within size ∧ c'.pos = c.pos ∧
      c'.written = c.written.take offset ++ data ++ c.written.drop (offset + data.length) := by
  have hlength := h.length
  have hcapacity := h.capacity
  have hpos := h.pos
  have hout : offset + data.length ≤ c.out.length := by omega
  have hpatch : c.patch offset data = (some (c.out.take offset ++ data ++
      c.out.drop (offset + data.length))).map fun out => { c with out } := by
    rw [Cursor.patch, store_eq hout]
  refine ⟨_, hpatch, ⟨(length_stored hout).trans h.length, h.capacity, h.pos⟩, rfl, ?_⟩
  · have hhead : (c.out.take offset ++ data).length = offset + data.length := by
      rw [List.length_append, List.length_take]
      omega
    show List.take c.pos (c.out.take offset ++ data ++ c.out.drop (offset + data.length)) = _
    rw [List.take_append, List.take_of_length_le (by omega), hhead, written, List.take_take,
      Nat.min_eq_left (by omega), List.drop_take]

end Cursor

end OctetBuffer
