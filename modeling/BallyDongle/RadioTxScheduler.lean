import BallyDongle.Lib.CyclicSchedule

/-!
# The radio's transmit scheduler

`RadioTxScheduler.cpp` decides which of the three transmit queues owns the next
send: it walks a pattern of seven slots from its cursor to the first class with
work. Over any seven sends a class that always has work gets its weight.
-/

namespace BallyDongle.RadioTxScheduler

open CyclicSchedule

inductive Priority
  | critical | control | data
  deriving DecidableEq, Repr

def kScheduleLength : Nat := 7

structure Selection where
  found : Bool
  priority : Priority
  nextCursor : Nat
  deriving DecidableEq, Repr

def pattern : Vector Priority kScheduleLength :=
  #v[.critical, .critical, .control, .critical, .control, .critical, .data]

/-- The slot a cursor stands at. -/
def slot (cursor : Nat) : Priority := pattern.get ⟨cursor % kScheduleLength, Nat.mod_lt _ (by decide)⟩

def chooseLoop (available : Priority → Bool) : (attempts cursor : Nat) → Selection
  | 0, cursor => { found := false, priority := .critical, nextCursor := cursor }
  | attempts + 1, cursor =>
    let candidate := slot cursor
    let cursor := (cursor + 1) % kScheduleLength
    if available candidate then { found := true, priority := candidate, nextCursor := cursor }
    else chooseLoop available attempts cursor

def choose (available : Priority → Bool) (cursor : Nat) : Selection :=
  chooseLoop available kScheduleLength (cursor % kScheduleLength)

/-- What a class is due in seven sends. -/
def weight : Priority → Nat
  | .critical => 4
  | .control => 2
  | .data => 1

/-! ## One decision -/

theorem slot_mod (cursor : Nat) : slot (cursor % kScheduleLength) = slot cursor := by
  simp only [slot, Nat.mod_mod]

theorem slot_periodic : Function.Periodic slot kScheduleLength := by
  intro cursor
  rw [← slot_mod, Nat.add_mod_right, slot_mod]

variable {available : Priority → Bool}

theorem chooseLoop_found {attempts cursor : Nat}
    (h : (chooseLoop available attempts cursor).found = true) :
    Picks slot kScheduleLength available cursor (chooseLoop available attempts cursor).priority
      (chooseLoop available attempts cursor).nextCursor := by
  induction attempts generalizing cursor with
  | zero => cases h
  | succ attempts ih =>
    rw [chooseLoop] at h ⊢
    split
    · rename_i havail
      exact .here havail (Nat.mod_modEq _ _)
    · rename_i hnot
      rw [if_neg hnot] at h
      exact ((ih h).congr slot_periodic (Nat.mod_modEq _ _)).skip (by simpa using hnot)

/-- A loop that finds nothing has seen every slot it walked over. -/
theorem chooseLoop_none {attempts cursor : Nat}
    (h : (chooseLoop available attempts cursor).found = false) :
    (chooseLoop available attempts cursor).nextCursor ≡ cursor + attempts [MOD kScheduleLength] ∧
      ∀ k < attempts, available (slot (cursor + k)) = false := by
  induction attempts generalizing cursor with
  | zero => exact ⟨.rfl, nofun⟩
  | succ attempts ih =>
    rw [chooseLoop] at h ⊢
    split
    · rename_i havail
      rw [if_pos havail] at h
      cases h
    · rename_i hnot
      rw [if_neg hnot] at h
      obtain ⟨hnext, hnone⟩ := ih h
      have hc : (cursor + 1) % kScheduleLength ≡ cursor + 1 [MOD kScheduleLength] :=
        Nat.mod_modEq _ _
      refine ⟨?_, fun k hk => ?_⟩
      · rw [Nat.add_comm attempts 1, ← Nat.add_assoc]
        exact hnext.trans (hc.add_right attempts)
      · cases k with
        | zero => simpa using hnot
        | succ k =>
          rw [Nat.add_comm k 1, ← Nat.add_assoc, ← slot_congr slot_periodic hc]
          exact hnone k (Nat.lt_of_succ_lt_succ hk)

/-- Every class has a slot within seven of any cursor. -/
theorem exists_slot (p : Priority) (cursor : Nat) :
    ∃ k < kScheduleLength, slot (cursor + k) = p := by
  have hall : ∀ c < kScheduleLength, ∃ k < kScheduleLength, slot (c + k) = p := by
    cases p <;> decide
  obtain ⟨k, hk, hslot⟩ := hall (cursor % kScheduleLength) (Nat.mod_lt _ (by decide))
  refine ⟨k, hk, ?_⟩
  rw [← hslot]
  exact (slot_congr slot_periodic (Nat.mod_modEq _ _) k).symm

theorem choose_none {cursor : Nat} (h : (choose available cursor).found = false) :
    (choose available cursor).nextCursor ≡ cursor [MOD kScheduleLength] ∧
      ∀ p, available p = false := by
  obtain ⟨hnext, hnone⟩ := chooseLoop_none h
  refine ⟨hnext.trans ?_, fun p => ?_⟩
  · simp [Nat.ModEq]
  · obtain ⟨k, hk, rfl⟩ := exists_slot p (cursor % kScheduleLength)
    exact hnone k hk

theorem choose_found {cursor : Nat} (h : (choose available cursor).found = true) :
    Picks slot kScheduleLength available cursor (choose available cursor).priority
      (choose available cursor).nextCursor :=
  (chooseLoop_found h).congr slot_periodic (Nat.mod_modEq cursor kScheduleLength)

/-! ## Decisions in a row -/

/-- The class a selection names, when it found one. -/
def Selection.picked (s : Selection) : Option Priority := if s.found then some s.priority else none

/-- The decisions on these availabilities, the cursor passed from one to the next. -/
def decisions : (cursor : Nat) → List (Priority → Bool) → List (Decision Priority)
  | _, [] => []
  | cursor, available :: rest =>
    { available, picked := (choose available cursor).picked } ::
      decisions (choose available cursor).nextCursor rest

theorem decisions_cyclic (cursor : Nat) (availables : List (Priority → Bool)) :
    Decisions slot kScheduleLength cursor (decisions cursor availables) := by
  induction availables generalizing cursor with
  | nil => exact .nil cursor
  | cons available rest ih =>
    rw [decisions, Selection.picked]
    split
    · rename_i hfound
      exact .pick (choose_found hfound) (ih _)
    · rename_i hnot
      obtain ⟨hnext, hnone⟩ := choose_none (by simpa using hnot)
      exact .idle hnone hnext (ih _)

/-- A class is found when one has work, and it has; and in any seven sends in a row
during which a class always has work it gets its weight. A window of an unending
sequence is one of a finite part of it. -/
theorem weighted_fair :
    (∀ available cursor,
      ((choose available cursor).found = true ↔ ∃ p, available p = true) ∧
      ((choose available cursor).found = true →
        available (choose available cursor).priority = true)) ∧
    ∀ cursor availables window p, window <:+: decisions cursor availables →
      window.countP Decision.made = kScheduleLength →
      (∀ d ∈ window, d.made = true → d.available p = true) →
      weight p ≤ window.countP (Decision.picks p) := by
  refine ⟨fun available cursor => ⟨⟨fun h => ?_, fun ⟨p, hp⟩ => ?_⟩, fun h => ?_⟩, ?_⟩
  · exact ⟨_, (choose_found h).available⟩
  · by_contra hnot
    have hnone := (choose_none (by simpa using hnot)).2 p
    exact absurd (hp.symm.trans hnone) (by decide)
  · exact (choose_found h).available
  · intro cursor availables window p hwindow hmade havail
    obtain ⟨c, hc⟩ := (decisions_cyclic cursor availables).window hwindow
    have hweight : owned slot p 0 kScheduleLength = weight p := by cases p <;> decide
    rw [← hweight]
    exact hc.fair slot_periodic hmade.ge havail

theorem weighted_fair_busy :
    4 ≤ (decisions 3 (List.replicate 7 fun _ => true)).countP (Decision.picks .critical) :=
  weighted_fair.2 3 (List.replicate 7 fun _ => true) _ .critical (List.infix_refl _) (by decide)
    (by decide)

end BallyDongle.RadioTxScheduler
