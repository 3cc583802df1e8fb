import Mathlib.Data.List.Basic

/-!
# First-in first-out queues of bounded depth

The depth is a field of the queue. `send` refuses on a full queue and `receive`
takes the oldest item. `offer` is a producer that gives up on a full queue,
`offerEvict` one that makes room by discarding the oldest item: offered a list,
an empty queue ends up with its first `depth` items under the one policy and
its last `depth` items under the other.
-/

structure BoundedQueue (α : Type) (depth : Nat) where
  items : List α
  length_le : items.length ≤ depth

namespace BoundedQueue

variable {α : Type} {depth : Nat}

def empty : BoundedQueue α depth := ⟨[], Nat.zero_le _⟩

@[ext]
theorem ext {q q' : BoundedQueue α depth} (h : q.items = q'.items) : q = q' := by
  obtain ⟨items, hle⟩ := q
  obtain ⟨items', hle'⟩ := q'
  cases h
  rfl

/-- Append an item, unless the queue is full. -/
def send (q : BoundedQueue α depth) (a : α) : Option (BoundedQueue α depth) :=
  if h : q.items.length < depth then some ⟨q.items ++ [a], by simpa [Nat.succ_le_iff] using h⟩ else none

/-- Take the oldest item. -/
def receive (q : BoundedQueue α depth) : Option (α × BoundedQueue α depth) :=
  match h : q.items with
  | [] => none
  | a :: rest => some (a, ⟨rest, by have := q.length_le; rw [h] at this; exact Nat.le_of_lt this⟩)

/-- Discard the oldest item. -/
def discard (q : BoundedQueue α depth) : BoundedQueue α depth :=
  ⟨q.items.tail, by have := q.length_le; rw [List.length_tail]; omega⟩

variable {q q' : BoundedQueue α depth} {a : α}

theorem send_eq_some (h : q.send a = some q') : q'.items = q.items ++ [a] := by
  unfold send at h
  split at h
  · cases h; rfl
  · cases h

theorem send_eq_none : q.send a = none ↔ q.items.length = depth := by
  have := q.length_le
  unfold send
  split
  · simp only [reduceCtorEq, false_iff]; omega
  · simp only [true_iff]; omega

theorem receive_eq_none : q.receive = none ↔ q.items = [] := by
  unfold receive
  split <;> simp_all

theorem receive_eq_some (h : q.receive = some (a, q')) : q.items = a :: q'.items := by
  unfold receive at h
  split at h
  · cases h
  · rename_i hq
    cases h
    exact hq

@[simp] theorem items_discard : q.discard.items = q.items.tail := rfl

theorem receive_of_ne_nil (h : q.items ≠ []) : ∃ a, q.receive = some (a, q.discard) := by
  cases hreceive : q.receive with
  | none => exact absurd (receive_eq_none.1 hreceive) h
  | some taken =>
    have hrest : taken.2 = q.discard := by
      ext1
      rw [items_discard, receive_eq_some hreceive, List.tail_cons]
    exact ⟨taken.1, by rw [← hrest]⟩

/-- Discarding makes room. -/
theorem send_discard (hd : 0 < depth) : q.discard.send a ≠ none := by
  intro h
  have hle := q.length_le
  rw [send_eq_none, items_discard, List.length_tail] at h
  omega

/-! ## Producers -/

/-- Send, giving up on a full queue. -/
def offer (q : BoundedQueue α depth) (a : α) : BoundedQueue α depth := (q.send a).getD q

/-- Send, discarding the oldest item of a full queue first. -/
def offerEvict (q : BoundedQueue α depth) (a : α) : BoundedQueue α depth :=
  (q.send a).getD (q.discard.offer a)

theorem items_offer : (q.offer a).items = (q.items ++ [a]).take depth := by
  have hle := q.length_le
  unfold offer
  cases hs : q.send a with
  | none =>
    rw [send_eq_none] at hs
    rw [Option.getD_none, List.take_append_of_le_length (by omega), List.take_of_length_le hle]
  | some q' =>
    have hroom : q.items.length < depth := by
      refine Nat.lt_of_le_of_ne hle fun h => ?_
      rw [send_eq_none.2 h] at hs
      cases hs
    rw [Option.getD_some, send_eq_some hs, List.take_of_length_le (by simpa [Nat.succ_le_iff] using hroom)]

theorem items_offerEvict (hd : 0 < depth) :
    (q.offerEvict a).items = (q.items ++ [a]).drop (q.items.length + 1 - depth) := by
  have hle := q.length_le
  unfold offerEvict
  cases hs : q.send a with
  | none =>
    rw [send_eq_none] at hs
    have hne : q.items ≠ [] := List.ne_nil_of_length_pos (by omega)
    rw [Option.getD_none, items_offer, items_discard, List.take_of_length_le (by simp; omega),
      show q.items.length + 1 - depth = 1 by omega, List.drop_one, List.tail_append_of_ne_nil hne]
  | some q' =>
    have hroom : q.items.length < depth := by
      refine Nat.lt_of_le_of_ne hle fun h => ?_
      rw [send_eq_none.2 h] at hs
      cases hs
    rw [Option.getD_some, send_eq_some hs, show q.items.length + 1 - depth = 0 by omega,
      List.drop_zero]

/-- A list offered item by item: what fits is kept, the rest is given up. -/
theorem items_foldl_offer (l : List α) :
    (l.foldl offer q).items = (q.items ++ l).take depth := by
  induction l generalizing q with
  | nil => rw [List.foldl_nil, List.append_nil, List.take_of_length_le q.length_le]
  | cons a l ih =>
    have happ : q.items ++ a :: l = (q.items ++ [a]) ++ l := by simp
    rw [List.foldl_cons, ih, items_offer, happ, List.take_append, @List.take_append _ _ l,
      List.take_take, Nat.min_self, List.length_take]
    congr 2
    omega

/-- A list offered item by item: the newest items are kept. -/
theorem items_foldl_offerEvict (hd : 0 < depth) (l : List α) :
    (l.foldl offerEvict q).items = (q.items ++ l).drop (q.items.length + l.length - depth) := by
  have hle := q.length_le
  induction l generalizing q with
  | nil =>
    rw [List.foldl_nil, List.append_nil, List.length_nil,
      show q.items.length + 0 - depth = 0 by omega, List.drop_zero]
  | cons a l ih =>
    rw [List.foldl_cons, ih (q.offerEvict a).length_le, items_offerEvict hd, List.length_drop,
      List.length_append, List.length_singleton, List.length_cons]
    have happ : q.items ++ a :: l = (q.items ++ [a]) ++ l := by simp
    rw [happ, ← List.drop_append_of_le_length (by simp), List.drop_drop]
    congr 1
    omega

end BoundedQueue
