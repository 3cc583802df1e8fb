import Mathlib.Data.List.Infix

/-!
# Round robin over a ring that grows

A cursor goes round the positions `0 .. m - 1`. The ring may grow between two turns,
never shrink. `wait n c i` bounds the turns before position `i` has its own while the ring
is of at most `n`: each turn that is not `i`'s takes one off, growth takes none.
-/

namespace RoundRobin

variable {m n c i : Nat}

def next (m c : Nat) : Nat := (c + 1) % m

def wait (n c i : Nat) : Nat := if c ≤ i then i - c else n - c + i

theorem next_lt (hm : 0 < m) : next m c < m := Nat.mod_lt _ hm

theorem next_of_lt (h : c + 1 < m) : next m c = c + 1 := Nat.mod_eq_of_lt h

theorem next_last (h : c + 1 = m) : next m c = 0 := by
  rw [next, h, Nat.mod_self]

theorem wait_lt (hi : i < n) : wait n c i < n := by
  unfold wait
  split <;> omega

theorem wait_next (hmn : m ≤ n) (hc : c < m) (hi : i < m) (hne : c ≠ i) :
    wait n (next m c) i < wait n c i := by
  unfold wait
  rcases Nat.lt_or_ge (c + 1) m with hlt | hge
  · rw [next_of_lt hlt]
    split <;> split <;> omega
  · rw [next_last (by omega : c + 1 = m)]
    split <;> split <;> omega

end RoundRobin
