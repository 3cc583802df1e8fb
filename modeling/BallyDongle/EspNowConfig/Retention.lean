import BallyDongle.Lib.SlotTable
import BallyDongle.ProtocolRouter

/-!
# Retained fragments

`EspNowConfig.cpp` keeps the raw fragments of a candidate message until the
reassembled payload is tried under key L. A slot belongs to the identity of the
message; what the table holds of one is its `lookup`.
-/

namespace BallyDongle.EspNowConfig

open Btp ProtocolRouter

def kPendingRelaySlots : Nat := kSlotCount
def kPendingRelayMaxFragments : Nat :=
  (kMaxPayloadSize + kEspNowMaxPayloadSize - 1) / kEspNowMaxPayloadSize

/-- `frames` stands for the arrays `present`, `sizes` and `frames`. -/
structure PendingRelay where
  active : Bool := false
  identity : Identity := ⟨0, 0, 0⟩
  fragmentCount : UInt8 := 0
  lastArrivalMs : UInt32 := 0
  frames : Nat → Option Bytes := fun _ => none

abbrev PendingRelays := Fin kPendingRelaySlots → PendingRelay

/-- `samePendingIdentity` compares this. -/
def PendingRelay.key (pending : PendingRelay) : Option Identity :=
  if pending.active then some pending.identity else none

def clearPendingRelay (g : PendingRelays) (header : Header) : PendingRelays :=
  match SlotTable.find PendingRelay.key header.identity g with
  | none => g
  | some i => Function.update g i {}

def expired (nowMs : UInt32) (pending : PendingRelay) : Bool :=
  pending.active && kReassemblyTimeoutMs ≤ (nowMs - pending.lastArrivalMs).toNat

def expirePendingRelays (g : PendingRelays) (nowMs : UInt32) : PendingRelays :=
  fun i => if expired nowMs (g i) then {} else g i

/-- A slot with one fragment more. -/
def PendingRelay.store (pending : PendingRelay) (index : UInt8) (data : Bytes) (nowMs : UInt32) :
    PendingRelay :=
  { pending with
    frames := Function.update pending.frames index.toNat (some data), lastArrivalMs := nowMs }

/-- Keep the exact datagram of a fragment; `false` makes the caller drop it. -/
def retainPendingRelay (g : PendingRelays) (header : Header) (data : Bytes) (nowMs : UInt32) :
    PendingRelays × Bool :=
  if header.flags.fragmented = false then (g, true)
  else if kEspNowMaxFrameSize < data.length ∨ header.fragmentCount = 0 ∨
      kPendingRelayMaxFragments < header.fragmentCount.toNat ∨
      header.fragmentCount ≤ header.fragmentIndex then (g, false)
  else
    let g := expirePendingRelays g nowMs
    -- the slot of the message, else the first free one
    match (SlotTable.find PendingRelay.key header.identity g).or
        (SlotTable.free PendingRelay.key g) with
    | none => (g, false)
    | some i =>
      if (g i).active = false then
        let slot := { g i with
          active := true, identity := header.identity, fragmentCount := header.fragmentCount }
        (Function.update g i (slot.store header.fragmentIndex data nowMs), true)
      else if (g i).fragmentCount ≠ header.fragmentCount then (Function.update g i {}, false)
      else (Function.update g i ((g i).store header.fragmentIndex data nowMs), true)

/-! ## The table -/

/-- One slot for an identity, and nothing left in a free slot. -/
structure Tidy (g : PendingRelays) : Prop where
  distinct : SlotTable.Distinct PendingRelay.key g
  free : ∀ i, (g i).active = false → (g i).frames = fun _ => none

/-- What is retained of a message. -/
def retained (g : PendingRelays) (id : Identity) : Option PendingRelay :=
  SlotTable.lookup PendingRelay.key id g

variable {g : PendingRelays} {id : Identity} {header : Header} {data : Bytes} {nowMs : UInt32}

@[simp] theorem key_empty : PendingRelay.key {} = none := rfl

@[simp] theorem key_store (pending : PendingRelay) (index : UInt8) :
    (pending.store index data nowMs).key = pending.key := rfl

theorem store_frames (pending : PendingRelay) (index : UInt8) (other : Nat) :
    (pending.store index data nowMs).frames other =
      if other = index.toNat then some data else pending.frames other :=
  Function.update_apply ..

theorem key_eq_some {pending : PendingRelay} :
    pending.key = some id ↔ pending.active = true ∧ pending.identity = id := by
  unfold PendingRelay.key
  split <;> simp_all

theorem key_eq_none {pending : PendingRelay} : pending.key = none ↔ pending.active = false := by
  unfold PendingRelay.key
  split <;> simp_all

theorem init_tidy : Tidy fun _ => {} where
  distinct := fun _ _ _ h => nomatch h
  free := fun _ _ => rfl

/-- Writing a slot that is not another message's. -/
theorem Tidy.update (h : Tidy g) {i : Fin kPendingRelaySlots} {slot : PendingRelay}
    (hd : SlotTable.Distinct PendingRelay.key (Function.update g i slot))
    (hf : slot.active = false → slot.frames = fun _ => none) : Tidy (Function.update g i slot) := by
  refine ⟨hd, fun j hj => ?_⟩
  rcases eq_or_ne j i with rfl | hne
  · rw [Function.update_self] at hj ⊢; exact hf hj
  · rw [Function.update_of_ne hne] at hj ⊢; exact h.free j hj

/-! ## Clearing -/

theorem clearPendingRelay_tidy (h : Tidy g) (header : Header) :
    Tidy (clearPendingRelay g header) := by
  unfold clearPendingRelay
  split
  · exact h
  · exact h.update (h.distinct.update_free rfl) fun _ => rfl

/-- A message whose slot is emptied has none. -/
theorem Tidy.retained_reset (h : Tidy g) {i : Fin kPendingRelaySlots}
    (hkey : (g i).key = some id) : retained (Function.update g i {}) id = none := by
  refine SlotTable.lookup_eq_none.2 fun j hj => ?_
  rcases eq_or_ne j i with rfl | hne
  · rw [Function.update_self] at hj; cases hj
  · rw [Function.update_of_ne hne] at hj
    exact hne (h.distinct hj hkey)

/-- The message is forgotten, and no other. -/
theorem retained_clear (h : Tidy g) (header : Header) (id : Identity) :
    retained (clearPendingRelay g header) id =
      if header.identity = id then none else retained g id := by
  unfold clearPendingRelay
  cases hfind : SlotTable.find PendingRelay.key header.identity g with
  | none =>
    dsimp only
    by_cases he : header.identity = id
    · rw [if_pos he, ← he]
      exact SlotTable.lookup_eq_none.2 (SlotTable.find_eq_none.1 hfind)
    · rw [if_neg he]
  | some i =>
    have hkey := SlotTable.find_key hfind
    have hd : SlotTable.Distinct PendingRelay.key (Function.update g i {}) :=
      h.distinct.update_free rfl
    dsimp only
    by_cases he : header.identity = id
    · rw [if_pos he, ← he]
      exact h.retained_reset hkey
    · rw [if_neg he]
      refine h.distinct.lookup_update_of_ne hd ?_ (by simp)
      rw [hkey]
      exact fun e => he (Option.some.inj e)

theorem expirePendingRelays_tidy (h : Tidy g) (nowMs : UInt32) :
    Tidy (expirePendingRelays g nowMs) := by
  constructor
  · refine h.distinct.map (f := fun _ slot => if expired nowMs slot then {} else slot) fun i => ?_
    split
    · exact .inl rfl
    · exact .inr rfl
  · intro i
    unfold expirePendingRelays
    split
    · exact fun _ => rfl
    · exact h.free i

/-- Only what timed out is forgotten. -/
theorem retained_expire (h : Tidy g) (nowMs : UInt32) (id : Identity) :
    retained (expirePendingRelays g nowMs) id =
      (retained g id).filter fun slot => !expired nowMs slot := by
  have hf : ∀ slot : PendingRelay, (if expired nowMs slot then {} else slot) = slot ∨
      (if expired nowMs slot then {} else slot).key = none := by
    intro slot
    split
    · exact .inr rfl
    · exact .inl rfl
  refine (h.distinct.lookup_map hf).trans ?_
  unfold retained
  cases hl : SlotTable.lookup PendingRelay.key id g with
  | none => rfl
  | some slot =>
    obtain ⟨i, -, hk⟩ := h.distinct.lookup_eq_some.1 hl
    cases he : expired nowMs slot <;> simp [he, hk, Option.filter]

/-! ## Retaining -/

theorem retain_whole (hf : header.flags.fragmented = false) :
    retainPendingRelay g header data nowMs = (g, true) := by
  rw [retainPendingRelay, if_pos hf]

/-- A fragment the table has room for. -/
structure Storable (header : Header) (data : Bytes) : Prop where
  size : data.length ≤ kEspNowMaxFrameSize
  count : header.fragmentCount.toNat ≤ kPendingRelayMaxFragments
  index : header.fragmentIndex < header.fragmentCount

/-- What retaining a fragment does: it is refused at once, or the slots that timed
out are freed and it is refused, clears the slot of its message, opens one or
joins it. -/
theorem retain_cases (g : PendingRelays) (header : Header) (data : Bytes) (nowMs : UInt32) :
    (header.flags.fragmented = false ∧ retainPendingRelay g header data nowMs = (g, true)) ∨
    (¬ Storable header data ∧ retainPendingRelay g header data nowMs = (g, false)) ∨
    let live := expirePendingRelays g nowMs
    (retained live header.identity = none ∧
      retainPendingRelay g header data nowMs = (live, false)) ∨
    (∃ i slot, live i = slot ∧ slot.key = none ∧ retained live header.identity = none ∧
      retainPendingRelay g header data nowMs =
        (Function.update live i (PendingRelay.store { slot with
          active := true, identity := header.identity, fragmentCount := header.fragmentCount }
          header.fragmentIndex data nowMs), true)) ∨
    ∃ i slot, live i = slot ∧ slot.key = some header.identity ∧
      (slot.fragmentCount ≠ header.fragmentCount ∧
          retainPendingRelay g header data nowMs = (Function.update live i {}, false) ∨
        slot.fragmentCount = header.fragmentCount ∧
          retainPendingRelay g header data nowMs =
            (Function.update live i (slot.store header.fragmentIndex data nowMs), true)) := by
  unfold retainPendingRelay
  split
  · rename_i hf
    exact .inl ⟨hf, rfl⟩
  split
  · rename_i hbad
    refine .inr (.inl ⟨fun hs => ?_, rfl⟩)
    rcases hbad with hlen | hzero | hcount | hindex
    · exact absurd hs.size (Nat.not_le.2 hlen)
    · exact absurd (hzero ▸ hs.index) (by simp)
    · exact absurd hs.count (Nat.not_le.2 hcount)
    · exact absurd hs.index (UInt8.not_lt.2 hindex)
  refine .inr (.inr ?_)
  generalize expirePendingRelays g nowMs = live
  dsimp only
  cases hfind : SlotTable.find PendingRelay.key header.identity live with
  | some i =>
    have hkey := SlotTable.find_key hfind
    have hactive : ((live i).active = false) = False := by simp [(key_eq_some.1 hkey).1]
    refine .inr (.inr ⟨i, _, rfl, hkey, ?_⟩)
    rw [Option.some_or]
    dsimp only
    rw [if_neg (by rw [hactive]; exact not_false)]
    by_cases hc : (live i).fragmentCount = header.fragmentCount
    · exact .inr ⟨hc, if_neg (not_not.2 hc)⟩
    · exact .inl ⟨hc, if_pos hc⟩
  | none =>
    have hnone : retained live header.identity = none :=
      SlotTable.lookup_eq_none.2 (SlotTable.find_eq_none.1 hfind)
    rw [Option.none_or]
    cases hfree : SlotTable.free PendingRelay.key live with
    | none => exact .inl ⟨hnone, rfl⟩
    | some i =>
      have hkey := SlotTable.free_key hfree
      refine .inr (.inl ⟨i, _, rfl, hkey, hnone, ?_⟩)
      dsimp only
      rw [if_pos (key_eq_none.1 hkey)]

/-- Opening a slot for a message that has none. -/
theorem Tidy.distinct_open (h : Tidy g) {i : Fin kPendingRelaySlots} {slot : PendingRelay}
    (hnone : retained g id = none) (hs : slot.key = some id) :
    SlotTable.Distinct PendingRelay.key (Function.update g i slot) :=
  h.distinct.update_new (SlotTable.lookup_eq_none.1 hnone) hs

theorem retain_tidy (h : Tidy g) (header : Header) (data : Bytes) (nowMs : UInt32) :
    Tidy (retainPendingRelay g header data nowMs).1 := by
  have hlive := expirePendingRelays_tidy h nowMs
  obtain ⟨-, e⟩ | ⟨-, e⟩ | ⟨-, e⟩ | ⟨i, slot, -, -, hnone, e⟩ | ⟨i, slot, hi, hkey, ⟨-, e⟩ | ⟨-, e⟩⟩ :=
    retain_cases g header data nowMs <;> rw [e]
  · exact h
  · exact h
  · exact hlive
  · exact hlive.update (hlive.distinct_open hnone (key_eq_some.2 ⟨rfl, rfl⟩))
      fun hf => nomatch hf
  · exact hlive.update (hlive.distinct.update_free rfl) fun _ => rfl
  · refine hlive.update (hlive.distinct.update_same ?_) fun hf => ?_
    · rw [hi, key_store]
    · rw [PendingRelay.store, (key_eq_some.1 hkey).1] at hf
      cases hf

/-- Retaining touches another message only to expire it. -/
theorem retained_retain_of_ne (h : Tidy g) (hne : header.identity ≠ id) :
    retained (retainPendingRelay g header data nowMs).1 id = retained g id ∨
      retained (retainPendingRelay g header data nowMs).1 id =
        retained (expirePendingRelays g nowMs) id := by
  have hlive := expirePendingRelays_tidy h nowMs
  have htidy := retain_tidy h header data nowMs
  have hother : some header.identity ≠ some id := fun e => hne (Option.some.inj e)
  obtain ⟨-, e⟩ | ⟨-, e⟩ | ⟨-, e⟩ | ⟨i, slot, hi, hkey, hnone, e⟩ |
    ⟨i, slot, hi, hkey, ⟨-, e⟩ | ⟨-, e⟩⟩ := retain_cases g header data nowMs <;> rw [e] at htidy ⊢
  · exact .inl rfl
  · exact .inl rfl
  · exact .inr rfl
  · refine .inr (hlive.distinct.lookup_update_of_ne htidy.distinct ?_ hother)
    rw [hi, hkey]
    exact nofun
  · refine .inr (hlive.distinct.lookup_update_of_ne htidy.distinct ?_ nofun)
    rw [hi, hkey]
    exact hother
  · refine .inr (hlive.distinct.lookup_update_of_ne htidy.distinct ?_ ?_)
    · rw [hi, hkey]
      exact hother
    · rw [key_store, hkey]
      exact hother

/-- A fragment retained joins the slot of its message, or opens one. -/
theorem retained_retain_true (h : Tidy g) (hf : header.flags.fragmented = true)
    (hr : (retainPendingRelay g header data nowMs).2 = true) :
    ∃ before : PendingRelay, before.fragmentCount = header.fragmentCount ∧
      (retained (expirePendingRelays g nowMs) header.identity = some before ∨
        retained (expirePendingRelays g nowMs) header.identity = none ∧
          before.frames = fun _ => none) ∧
      retained (retainPendingRelay g header data nowMs).1 header.identity =
        some (before.store header.fragmentIndex data nowMs) := by
  have hlive := expirePendingRelays_tidy h nowMs
  have htidy := retain_tidy h header data nowMs
  obtain ⟨hw, -⟩ | ⟨-, e⟩ | ⟨-, e⟩ | ⟨i, slot, hi, hkey, hnone, e⟩ |
    ⟨i, slot, hi, hkey, ⟨-, e⟩ | ⟨hc, e⟩⟩ := retain_cases g header data nowMs
  · rw [hf] at hw; cases hw
  · rw [e] at hr; cases hr
  · rw [e] at hr; cases hr
  · rw [e] at htidy ⊢
    refine ⟨{ slot with
      active := true, identity := header.identity, fragmentCount := header.fragmentCount },
      rfl, .inr ⟨hnone, ?_⟩, htidy.distinct.lookup_update (key_eq_some.2 ⟨rfl, rfl⟩)⟩
    exact hi ▸ hlive.free i (key_eq_none.1 (hi ▸ hkey))
  · rw [e] at hr; cases hr
  · rw [e] at htidy ⊢
    exact ⟨slot, hc, .inl (hlive.distinct.lookup_eq_some.2 ⟨i, hi, hkey⟩),
      htidy.distinct.lookup_update hkey⟩

/-- A fragment of a message that has its slot is not refused. -/
theorem retain_joins (h : Tidy g) (hs : Storable header data) {slot : PendingRelay}
    (hslot : retained (expirePendingRelays g nowMs) header.identity = some slot)
    (hc : slot.fragmentCount = header.fragmentCount) :
    (retainPendingRelay g header data nowMs).2 = true := by
  have hlive := expirePendingRelays_tidy h nowMs
  obtain ⟨-, e⟩ | ⟨hbad, -⟩ | ⟨hnone, -⟩ | ⟨i, slot', hi, hkey, hnone, -⟩ |
    ⟨i, slot', hi, hkey, ⟨hc', -⟩ | ⟨-, e⟩⟩ := retain_cases g header data nowMs
  · rw [e]
  · exact absurd hs hbad
  · rw [hnone] at hslot; cases hslot
  · rw [hnone] at hslot; cases hslot
  · have hfound := hlive.distinct.lookup_eq_some.2 ⟨i, hi, hkey⟩
    rw [retained, hfound] at hslot
    cases hslot
    exact absurd hc hc'
  · rw [e]

/-- A fragment refused leaves its message as it was, or without a slot: it had none
any more, or one of another fragment count. -/
theorem retained_retain_false (h : Tidy g)
    (hr : (retainPendingRelay g header data nowMs).2 = false) :
    retained (retainPendingRelay g header data nowMs).1 header.identity =
        retained g header.identity ∨
      retained (retainPendingRelay g header data nowMs).1 header.identity = none ∧
        ∀ slot, retained (expirePendingRelays g nowMs) header.identity = some slot →
          slot.fragmentCount ≠ header.fragmentCount := by
  have hlive := expirePendingRelays_tidy h nowMs
  obtain ⟨-, e⟩ | ⟨-, e⟩ | ⟨hnone, e⟩ | ⟨i, slot, hi, hkey, hnone, e⟩ |
    ⟨i, slot, hi, hkey, ⟨hc, e⟩ | ⟨-, e⟩⟩ := retain_cases g header data nowMs
  · rw [e] at hr; cases hr
  · rw [e]; exact .inl rfl
  · rw [e]
    refine .inr ⟨hnone, fun slot hs => ?_⟩
    rw [hnone] at hs
    cases hs
  · rw [e] at hr; cases hr
  · rw [e]
    refine .inr ⟨hlive.retained_reset (hi ▸ hkey), fun slot' hs => ?_⟩
    have hfound := hlive.distinct.lookup_eq_some.2 ⟨i, hi, hkey⟩
    rw [retained, hfound] at hs
    cases hs
    exact hc
  · rw [e] at hr; cases hr

end BallyDongle.EspNowConfig
