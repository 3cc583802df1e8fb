import Mathlib.Data.List.Basic
import Mathlib.Data.List.Count

/-!
# Listing a sorted list by position

A reader lists a strictly sorted list one position at a time, by number, while
the list may change between two positions. It stays in step as long as each
change leaves as many elements up to the last one listed (`Listing.change`):
then what it lists strictly increases, and an element that was there all along
is listed (`Awaited`).
-/

namespace SortedListing

variable {α : Type} [LT α] {l l' listed : List α} {a x s : α} {k : Nat}

/-- `s` was listed already, or is there and will be. -/
def Awaited (s : α) (l listed : List α) : Prop :=
  s ∈ listed ∨ s ∈ l ∧ ∀ last ∈ listed.getLast?, last < s

theorem Awaited.start (h : s ∈ l) : Awaited s l [] := .inr ⟨h, nofun⟩

theorem Awaited.change (h : Awaited s l listed) (hs : s ∈ l') : Awaited s l' listed :=
  h.imp_right fun ⟨_, hlast⟩ => ⟨hs, hlast⟩

variable [LE α] [DecidableLE α]

/-- `listed` was listed, and the next position of `l` goes on behind it. -/
structure Listing (l listed : List α) : Prop where
  sorted : listed.Pairwise (· < ·)
  behind : ∀ last ∈ listed.getLast?, l.countP (· ≤ last) = listed.length

theorem Listing.nil (l : List α) : Listing l [] where
  sorted := .nil
  behind := nofun

/-- A change that leaves as many up to the last one listed. -/
theorem Listing.change (h : Listing l listed)
    (hcount : ∀ last ∈ listed.getLast?, l'.countP (· ≤ last) = l.countP (· ≤ last)) :
    Listing l' listed where
  sorted := h.sorted
  behind last hlast := (hcount last hlast).trans (h.behind last hlast)

variable [Std.IsLinearOrder α] [Std.LawfulOrderLT α]

/-- The elements up to `a` are the first of a sorted list. -/
theorem lt_countP_iff (hl : l.Pairwise (· < ·)) (hx : l[k]? = some x) :
    k < l.countP (· ≤ a) ↔ x ≤ a := by
  induction l generalizing k with
  | nil => cases hx
  | cons b l ih =>
    obtain ⟨hb, hl⟩ := List.pairwise_cons.1 hl
    by_cases hba : b ≤ a
    · rw [List.countP_cons_of_pos (by simpa using hba)]
      cases k with
      | zero =>
        cases hx
        exact iff_of_true (Nat.succ_pos _) hba
      | succ k => rw [Nat.add_lt_add_iff_right, ih hl hx]
    · -- past `a`, and so is all that follows
      have hnone : ∀ y ∈ b :: l, ¬y ≤ a := by
        intro y hy hya
        rcases List.mem_cons.1 hy with rfl | hy
        · exact hba hya
        · exact hba (Std.le_trans (Std.le_of_lt (hb y hy)) hya)
      have hzero : (b :: l).countP (· ≤ a) = 0 :=
        List.countP_eq_zero.2 fun y hy => by simpa using hnone y hy
      rw [hzero]
      exact iff_of_false (Nat.not_lt_zero k) (hnone x (List.mem_of_getElem? hx))

theorem countP_getElem (hl : l.Pairwise (· < ·)) (hx : l[k]? = some x) :
    l.countP (· ≤ x) = k + 1 := by
  induction l generalizing k with
  | nil => cases hx
  | cons b l ih =>
    obtain ⟨hb, hl⟩ := List.pairwise_cons.1 hl
    cases k with
    | zero =>
      cases hx
      have hzero : l.countP (· ≤ x) = 0 :=
        List.countP_eq_zero.2 fun y hy => by simpa [Std.not_le] using hb y hy
      rw [List.countP_cons_of_pos (by simp [Std.le_refl]), hzero]
    | succ k =>
      have hbx : b ≤ x := Std.le_of_lt (hb x (List.mem_of_getElem? hx))
      rw [List.countP_cons_of_pos (by simpa using hbx), ih hl hx]

omit [DecidableLE α] in
theorem le_getLast (hsorted : listed.Pairwise (· < ·)) {y last : α} (hy : y ∈ listed)
    (hlast : last ∈ listed.getLast?) : y ≤ last := by
  obtain ⟨front, rfl⟩ := List.getLast?_eq_some_iff.1 hlast
  rcases List.mem_append.1 hy with hy | hy
  · exact Std.le_of_lt ((List.pairwise_append.1 hsorted).2.2 y hy last (List.mem_singleton.2 rfl))
  · rw [List.mem_singleton.1 hy]
    exact Std.le_refl last

/-- An element of `l` past the last one listed stands at a position still to come. -/
theorem Listing.le_position (h : Listing l listed) (hl : l.Pairwise (· < ·))
    (hs : l[k]? = some s) (hlast : ∀ last ∈ listed.getLast?, last < s) : listed.length ≤ k := by
  cases hend : listed.getLast? with
  | none =>
    rw [List.getLast?_eq_none_iff.1 hend]
    exact Nat.zero_le k
  | some last =>
    rw [← h.behind last hend, ← Nat.not_lt, lt_countP_iff hl hs, Std.not_le]
    exact hlast last hend

/-- The next position is behind all that was listed. -/
theorem Listing.lt_next (h : Listing l listed) (hl : l.Pairwise (· < ·))
    (hx : l[listed.length]? = some x) {y : α} (hy : y ∈ listed) : y < x := by
  obtain ⟨last, hlast⟩ := Option.ne_none_iff_exists'.1
    (mt List.getLast?_eq_none_iff.1 (List.ne_nil_of_mem hy))
  have hnext : ¬x ≤ last := by
    rw [← lt_countP_iff hl hx, h.behind last hlast]
    exact Nat.lt_irrefl _
  exact Std.lt_of_le_of_lt (le_getLast h.sorted hy hlast) (Std.not_le.1 hnext)

theorem Listing.next (h : Listing l listed) (hl : l.Pairwise (· < ·))
    (hx : l[listed.length]? = some x) : Listing l (listed ++ [x]) where
  sorted := by
    refine List.pairwise_append.2 ⟨h.sorted, List.pairwise_singleton _ _, fun y hy z hz => ?_⟩
    rw [List.mem_singleton.1 hz]
    exact h.lt_next hl hx hy
  behind := by
    intro last hlast
    rw [List.getLast?_append, List.getLast?_singleton, Option.some_or] at hlast
    cases hlast
    rw [countP_getElem hl hx, List.length_append, List.length_singleton]

theorem Awaited.next (h : Awaited s l listed) (hlisting : Listing l listed)
    (hl : l.Pairwise (· < ·)) (hx : l[listed.length]? = some x) : Awaited s l (listed ++ [x]) := by
  rcases h with h | ⟨hs, hlast⟩
  · exact .inl (List.mem_append_left _ h)
  · obtain ⟨k, hk⟩ := List.mem_iff_getElem?.1 hs
    have hge := hlisting.le_position hl hk hlast
    rcases Nat.eq_or_lt_of_le hge with rfl | hlt
    · rw [hx] at hk
      cases hk
      exact .inl (List.mem_append_right _ (List.mem_singleton.2 rfl))
    · refine .inr ⟨hs, fun last hlast => ?_⟩
      rw [List.getLast?_append, List.getLast?_singleton, Option.some_or] at hlast
      cases hlast
      rw [← Std.not_le, ← lt_countP_iff hl hk, countP_getElem hl hx]
      omega

/-- With every position listed nothing is awaited any more. -/
theorem Awaited.done (h : Awaited s l listed) (hlisting : Listing l listed)
    (hl : l.Pairwise (· < ·)) (hlen : l.length ≤ listed.length) : s ∈ listed := by
  rcases h with h | ⟨hs, hlast⟩
  · exact h
  · obtain ⟨k, hk⟩ := List.mem_iff_getElem?.1 hs
    have hge := hlisting.le_position hl hk hlast
    have hlt := (List.getElem?_eq_some_iff.1 hk).1
    omega

end SortedListing
