import Mathlib.Data.Nat.Periodic

/-!
# Picking from a cyclic schedule

A schedule names the class that owns each slot and repeats after `period` slots.
A decision takes the first available class at or after the cursor and leaves the
cursor behind its slot, or finds none and leaves the cursor where it is. A class
that is available at every pick is picked at each of its slots the cursor passes,
so in `period` picks at least as often as it owns slots, wherever the cursor
started (`Decisions.fair`).
-/

namespace CyclicSchedule

variable {α : Type} {slot : Nat → α} {period : Nat}

/-- From cursor `c` the first available class is `a`; the cursor ends behind it. -/
def Picks (slot : Nat → α) (period : Nat) (available : α → Bool) (c : Nat) (a : α) (c' : Nat) :
    Prop :=
  ∃ skipped, c' ≡ c + skipped + 1 [MOD period] ∧ slot (c + skipped) = a ∧ available a = true ∧
    ∀ k < skipped, available (slot (c + k)) = false

theorem slot_congr (hp : Function.Periodic slot period) {c c' : Nat} (h : c' ≡ c [MOD period])
    (k : Nat) : slot (c' + k) = slot (c + k) := by
  rw [← hp.map_mod_nat (c' + k), ← hp.map_mod_nat (c + k), h.add_right k]

theorem Picks.here {available : α → Bool} {c c' : Nat} (h : available (slot c) = true)
    (hc : c' ≡ c + 1 [MOD period]) : Picks slot period available c (slot c) c' :=
  ⟨0, hc, rfl, h, nofun⟩

theorem Picks.available {available : α → Bool} {c c' : Nat} {a : α}
    (h : Picks slot period available c a c') : available a = true := by
  obtain ⟨-, -, -, h, -⟩ := h
  exact h

/-- A cursor counts modulo the period. -/
theorem Picks.congr (hp : Function.Periodic slot period) {available : α → Bool} {c₁ c c' : Nat}
    {a : α} (h : Picks slot period available c₁ a c') (hc : c₁ ≡ c [MOD period]) :
    Picks slot period available c a c' := by
  obtain ⟨skipped, hc', hslot, havail, hskip⟩ := h
  refine ⟨skipped, hc'.trans ((hc.add_right skipped).add_right 1), ?_, havail, fun k hk => ?_⟩
  · rw [← hslot, slot_congr hp hc]
  · rw [← slot_congr hp hc]
    exact hskip k hk

/-- An unavailable slot is skipped. -/
theorem Picks.skip {available : α → Bool} {c c' : Nat} {a : α}
    (h : Picks slot period available (c + 1) a c') (hnot : available (slot c) = false) :
    Picks slot period available c a c' := by
  obtain ⟨skipped, hc', hslot, havail, hskip⟩ := h
  rw [Nat.add_assoc c 1 skipped, Nat.add_comm 1 skipped] at hc' hslot
  refine ⟨skipped + 1, hc', hslot, havail, fun k hk => ?_⟩
  cases k with
  | zero => exact hnot
  | succ k =>
    rw [Nat.add_comm k 1, ← Nat.add_assoc]
    exact hskip k (Nat.lt_of_succ_lt_succ hk)

/-- A decision, and what it was made on. -/
structure Decision (α : Type) where
  available : α → Bool
  picked : Option α

/-- Decisions in a row from a cursor. -/
inductive Decisions (slot : Nat → α) (period : Nat) : Nat → List (Decision α) → Prop
  | nil (c) : Decisions slot period c []
  | pick {available c a c' ds} (h : Picks slot period available c a c')
      (rest : Decisions slot period c' ds) : Decisions slot period c (⟨available, some a⟩ :: ds)
  | idle {available c c' ds} (hnone : ∀ a, available a = false) (stays : c' ≡ c [MOD period])
      (rest : Decisions slot period c' ds) : Decisions slot period c (⟨available, none⟩ :: ds)

/-- A window of decisions is a row of its own. -/
theorem Decisions.window {c : Nat} {ds window : List (Decision α)}
    (h : Decisions slot period c ds) (hwindow : window <:+: ds) :
    ∃ c', Decisions slot period c' window := by
  obtain ⟨before, after, rfl⟩ := hwindow
  induction before generalizing c with
  | nil =>
    refine ⟨c, ?_⟩
    rw [List.nil_append] at h
    induction window generalizing c with
    | nil => exact .nil c
    | cons d window ih =>
      cases h with
      | pick hpick rest => exact .pick hpick (ih rest)
      | idle hnone hstays rest => exact .idle hnone hstays (ih rest)
  | cons d before ih =>
    cases h with
    | pick _ rest => exact ih rest
    | idle _ _ rest => exact ih rest

/-! ## Slots of a class -/

variable [DecidableEq α]

/-- How many of the `passed` slots from `c` on are the class's. -/
def owned (slot : Nat → α) (p : α) (c passed : Nat) : Nat :=
  Nat.count (fun k => slot (c + k) = p) passed

theorem owned_add (p : α) (c passed rest : Nat) :
    owned slot p c (passed + rest) = owned slot p c passed + owned slot p (c + passed) rest := by
  simp only [owned, Nat.count_add, Nat.add_assoc]

theorem owned_mono (p : α) (c : Nat) {passed passed' : Nat} (h : passed ≤ passed') :
    owned slot p c passed ≤ owned slot p c passed' := Nat.count_monotone _ h

theorem owned_congr (hp : Function.Periodic slot period) (p : α) {c c' : Nat}
    (h : c' ≡ c [MOD period]) (passed : Nat) : owned slot p c' passed = owned slot p c passed := by
  simp only [owned, slot_congr hp h]

/-- A whole period has the class's weight, whatever slot it starts at. -/
theorem owned_period (hp : Function.Periodic slot period) (p : α) (c : Nat) :
    owned slot p c period = owned slot p 0 period := by
  induction c with
  | zero => rfl
  | succ c ih =>
    have hfirst := @owned_add _ slot _ p c 1 period
    have hlast := @owned_add _ slot _ p c period 1
    have hsame : owned slot p (c + period) 1 = owned slot p c 1 :=
      owned_congr hp p (by simp [Nat.ModEq]) 1
    rw [Nat.add_comm 1 period] at hfirst
    omega

/-! ## Fairness -/

def Decision.made (d : Decision α) : Bool := d.picked.isSome

def Decision.picks (p : α) (d : Decision α) : Bool := d.picked = some p

/-- The cursor does not jump over a slot of an available class. -/
theorem Picks.owned {available : α → Bool} {c c' : Nat} {a p : α}
    (h : Picks slot period available c a c') (hp : available p = true) :
    ∃ skipped, c' ≡ c + skipped + 1 [MOD period] ∧
      owned slot p c (skipped + 1) = if a = p then 1 else 0 := by
  obtain ⟨skipped, hc, rfl, -, hskip⟩ := h
  refine ⟨skipped, hc, ?_⟩
  have hnone : CyclicSchedule.owned slot p c skipped = 0 := by
    rw [CyclicSchedule.owned, Nat.count_iff_forall_not]
    intro k hk heq
    rw [← heq, hskip k hk] at hp
    cases hp
  rw [owned_add, hnone, Nat.zero_add]
  simp [CyclicSchedule.owned, Nat.count_succ]

/-- The picks of a class count its slots passed. -/
theorem Decisions.passed (hp : Function.Periodic slot period) {p : α} {c : Nat}
    {ds : List (Decision α)} (h : Decisions slot period c ds)
    (havail : ∀ d ∈ ds, d.made = true → d.available p = true) :
    ∃ passed, ds.countP Decision.made ≤ passed ∧
      owned slot p c passed = ds.countP (Decision.picks p) := by
  induction h with
  | nil c => exact ⟨0, Nat.le_refl 0, rfl⟩
  | pick hpick rest ih =>
    obtain ⟨passed, hmade, hpassed⟩ := ih fun d hd => havail d (List.mem_cons_of_mem _ hd)
    obtain ⟨skipped, hc, howned⟩ := hpick.owned (havail _ List.mem_cons_self rfl)
    refine ⟨skipped + 1 + passed, ?_, ?_⟩
    · rw [List.countP_cons_of_pos rfl]
      omega
    · rw [owned_add, howned, ← Nat.add_assoc, ← owned_congr hp p hc, hpassed, List.countP_cons]
      simp [Decision.picks, Nat.add_comm]
  | idle hnone stays rest ih =>
    obtain ⟨passed, hmade, hpassed⟩ := ih fun d hd => havail d (List.mem_cons_of_mem _ hd)
    refine ⟨passed, ?_, ?_⟩
    · rwa [List.countP_cons_of_neg (by simp [Decision.made])]
    · rw [← owned_congr hp p stays, hpassed, List.countP_cons_of_neg (by simp [Decision.picks])]

/-- In a period's worth of picks a class that is available throughout gets its share. -/
theorem Decisions.fair (hp : Function.Periodic slot period) {p : α} {c : Nat}
    {ds : List (Decision α)} (h : Decisions slot period c ds)
    (hmade : period ≤ ds.countP Decision.made)
    (havail : ∀ d ∈ ds, d.made = true → d.available p = true) :
    owned slot p 0 period ≤ ds.countP (Decision.picks p) := by
  obtain ⟨passed, hle, hpassed⟩ := h.passed hp havail
  rw [← hpassed, ← owned_period hp p c]
  exact owned_mono p c (hmade.trans hle)

end CyclicSchedule
