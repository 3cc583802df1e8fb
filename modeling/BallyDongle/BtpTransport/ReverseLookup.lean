import BallyDongle.BtpTransport.PeerTable
import BallyDongle.Lib.Run

/-!
# Reverse lookup

The table is keyed by MAC and searched by source id. Two MACs may hold one id, when a
robot comes back with another radio: the scan finds the lower slot, which is the one
heard from last only if no frame ever lands above another holder of its id
(`run_mostRecent_iff`).
-/

namespace BallyDongle.BtpTransport.ReverseLookup

/-- A call of `rememberAuthenticatedPeer` with valid arguments. -/
structure Call where
  mac : Mac
  sourceId : UInt32
  bootId : UInt32
  nowMs : UInt32 := 0
  rssi : Int8 := -128
  source_ne : sourceId ≠ 0
  boot_ne : bootId ≠ 0

/-- The table, and the calls so far, the newest first. -/
structure State where
  table : PeerTable := .init
  calls : List Call := []

def step (st : State) (call : Call) : State where
  table := rememberAuthenticatedPeer st.table call.mac call.sourceId call.bootId call.nowMs call.rssi
  calls := call :: st.calls

/-- `mac` is in the table, under this id. -/
def Holds (g : PeerTable) (mac : Mac) (sourceId : UInt32) : Prop :=
  ∃ i, (g i).key = some mac ∧ (g i).sourceId = sourceId

instance (g : PeerTable) (mac : Mac) (sourceId : UInt32) : Decidable (Holds g mac sourceId) :=
  inferInstanceAs (Decidable (∃ _, _))

/-- The last call that named the id, of the MACs that still hold it. -/
def lastNamed (st : State) (sourceId : UInt32) : Option Call :=
  st.calls.find? fun call => decide (call.sourceId = sourceId ∧ Holds st.table call.mac sourceId)

/-- Every id is looked up as it was last named. -/
def MostRecent (st : State) : Prop :=
  ∀ sourceId, lookupPeerMacBySourceId st.table sourceId =
    (lastNamed st sourceId).map fun call => (call.mac, call.bootId)

/-- The call lands below every other slot that holds its id. -/
def LandsLowest (st : State) (call : Call) : Prop :=
  ∀ j, j < slotFor st.table call.mac → (st.table j).used = true →
    (st.table j).sourceId ≠ call.sourceId

/-! ## The invariants -/

/-- The last call of each of these MACs. -/
def lastOf (calls : List Call) (macs : List Mac) : Option Call :=
  calls.find? fun call => decide (call.mac ∈ macs)

/-- Each MAC has one slot, which says what its last call said. -/
structure Sound (st : State) : Prop where
  distinct : SlotTable.Distinct PeerIdentity.key st.table
  recorded : ∀ i mac, (st.table i).key = some mac → ∃ call, lastOf st.calls [mac] = some call ∧
    call.sourceId = (st.table i).sourceId ∧ call.bootId = (st.table i).bootId

/-- Of two holders of one id the lower was heard from last. -/
def Ordered (st : State) : Prop :=
  ∀ i j mac mac', i < j → (st.table i).key = some mac → (st.table j).key = some mac' →
    (st.table i).sourceId = (st.table j).sourceId →
      (lastOf st.calls [mac, mac']).map Call.mac = some mac

variable {st : State} {call : Call}

theorem step_table (st : State) (call : Call) :
    (step st call).table = Function.update st.table (slotFor st.table call.mac)
      { st.table (slotFor st.table call.mac) with
        used := true, mac := call.mac, sourceId := call.sourceId, bootId := call.bootId
        lastAuthenticatedMs := call.nowMs, rssi := call.rssi
        linkOk := (findMac st.table call.mac).isSome &&
          (st.table (slotFor st.table call.mac)).linkOk } :=
  rememberAuthenticatedPeer_eq call.source_ne call.boot_ne

/-- The slot of a MAC that has one. -/
theorem slotFor_of_key (hd : SlotTable.Distinct PeerIdentity.key st.table) {mac : Mac}
    {i : Fin kPeerIdentityCapacity} (hi : (st.table i).key = some mac) :
    slotFor st.table mac = i := by
  rw [slotFor]
  cases hfind : findMac st.table mac with
  | none => exact absurd hi (findMac_eq_none.1 hfind i)
  | some j => exact hd (findMac_key hfind) hi

/-- The slots after a call: its own, and those as before. -/
theorem step_slot (st : State) (call : Call) (i : Fin kPeerIdentityCapacity) :
    i = slotFor st.table call.mac ∧ ((step st call).table i).key = some call.mac ∧
        ((step st call).table i).sourceId = call.sourceId ∧
        ((step st call).table i).bootId = call.bootId ∨
      i ≠ slotFor st.table call.mac ∧ (step st call).table i = st.table i := by
  rw [step_table]
  rcases eq_or_ne i (slotFor st.table call.mac) with rfl | hne
  · rw [Function.update_self]
    exact .inl ⟨rfl, rfl, rfl, rfl⟩
  · rw [Function.update_of_ne hne]
    exact .inr ⟨hne, rfl⟩

/-- No other slot is of the MAC that called. -/
theorem other_mac (hs : Sound st) {i : Fin kPeerIdentityCapacity} {mac : Mac}
    (hne : i ≠ slotFor st.table call.mac) (hi : (st.table i).key = some mac) : mac ≠ call.mac := by
  rintro rfl
  exact hne (slotFor_of_key hs.distinct hi).symm

theorem lastOf_cons_self {calls : List Call} {macs : List Mac} (h : call.mac ∈ macs) :
    lastOf (call :: calls) macs = some call :=
  List.find?_cons_of_pos (decide_eq_true h)

theorem lastOf_cons_of_notMem {calls : List Call} {macs : List Mac} (h : call.mac ∉ macs) :
    lastOf (call :: calls) macs = lastOf calls macs :=
  List.find?_cons_of_neg (by simpa using h)

theorem Sound.step (hs : Sound st) (call : Call) : Sound (step st call) where
  distinct := by
    rw [step_table]
    refine hs.distinct.update fun mac hmac j hj => ?_
    cases hmac
    exact (slotFor_of_key hs.distinct hj).symm
  recorded := by
    intro i mac hi
    obtain ⟨-, hkey, hsource, hboot⟩ | ⟨hne, hsame⟩ := step_slot st call i
    · rw [hkey] at hi
      cases hi
      exact ⟨call, lastOf_cons_self (List.mem_singleton.2 rfl), hsource.symm, hboot.symm⟩
    · rw [hsame] at hi ⊢
      obtain ⟨last, hlast, hsaid⟩ := hs.recorded i mac hi
      have hmac := other_mac hs hne hi
      refine ⟨last, ?_, hsaid⟩
      show lastOf (call :: st.calls) [mac] = some last
      rw [lastOf_cons_of_notMem (by simpa using hmac.symm), hlast]

theorem sound_init : Sound {} where
  distinct := by
    intro i j mac hi
    cases hi
  recorded := nofun

theorem Ordered.step (hs : Sound st) (ho : Ordered st) (hlow : LandsLowest st call) :
    Ordered (step st call) := by
  intro i j mac mac' hij hi hj hsource
  show (lastOf (call :: st.calls) [mac, mac']).map Call.mac = some mac
  obtain ⟨rfl, hkey, hsourcei, -⟩ | ⟨hnei, hsamei⟩ := step_slot st call i
  · -- the lower is the one that called
    rw [hkey] at hi
    cases hi
    rw [lastOf_cons_self (List.mem_cons_self ..)]
    rfl
  · rw [hsamei] at hi hsource
    obtain ⟨rfl, hkey, hsourcej, -⟩ | ⟨hnej, hsamej⟩ := step_slot st call j
    · -- the call would have landed above a holder of its id
      rw [hsourcej] at hsource
      exact absurd hsource (hlow i hij (PeerIdentity.key_eq_some.1 hi).1)
    · rw [hsamej] at hj hsource
      have hmac := other_mac hs hnei hi
      have hmac' := other_mac hs hnej hj
      rw [lastOf_cons_of_notMem (by simpa using ⟨hmac.symm, hmac'.symm⟩)]
      exact ho i j mac mac' hij hi hj hsource

/-! ## What the scan finds -/

/-- A call made since the last one of `mac` and before which `mac'` was not heard from
either is not a call of `mac'`. -/
theorem notMem_before {calls before after : List Call} {last : Call} {mac mac' : Mac}
    (hcalls : calls = before ++ last :: after) (hbefore : ∀ c ∈ before, c.mac ≠ mac)
    (horder : (lastOf calls [mac, mac']).map Call.mac = some mac) : ∀ c ∈ before, c.mac ≠ mac' := by
  intro c hc hmac
  have hsome : (lastOf before [mac, mac']).isSome = true := by
    rw [lastOf, List.find?_isSome]
    exact ⟨c, hc, by simp [hmac]⟩
  obtain ⟨first, hfirst⟩ := Option.isSome_iff_exists.1 hsome
  have hall : lastOf calls [mac, mac'] = some first := by
    rw [lastOf] at hfirst
    rw [hcalls, lastOf, List.find?_append, hfirst, Option.some_or]
  rw [hall, Option.map_some, Option.some_inj] at horder
  exact hbefore first (List.mem_of_find?_eq_some hfirst) horder

theorem lastNamed_of_free {sourceId : UInt32}
    (h : ∀ i, ((st.table i).used && (st.table i).sourceId == sourceId) = false) :
    lastNamed st sourceId = none := by
  rw [lastNamed, List.find?_eq_none]
  rintro call - hnames
  obtain ⟨-, i, hkey, hsource⟩ := of_decide_eq_true hnames
  have hi := h i
  rw [(PeerIdentity.key_eq_some.1 hkey).1, hsource, beq_self_eq_true] at hi
  cases hi

/-- The last call of the lowest holder is the last that named the id. -/
theorem lastNamed_of_first (hs : Sound st) (ho : Ordered st) {i : Fin kPeerIdentityCapacity}
    {sourceId : UInt32} (hused : (st.table i).used = true) (hsource : (st.table i).sourceId = sourceId)
    (hfirst : ∀ j, j < i → ((st.table j).used && (st.table j).sourceId == sourceId) = false) :
    (lastNamed st sourceId).map (fun call => (call.mac, call.bootId)) =
      some ((st.table i).mac, (st.table i).bootId) := by
  have hkey : (st.table i).key = some (st.table i).mac := PeerIdentity.key_eq_some.2 ⟨hused, rfl⟩
  obtain ⟨last, hlast, hsaid, hboot⟩ := hs.recorded i _ hkey
  obtain ⟨hmac, before, after, hcalls, hbefore⟩ := List.find?_eq_some_iff_append.1 hlast
  have hmac : last.mac = (st.table i).mac := by simpa using hmac
  have hbefore : ∀ c ∈ before, c.mac ≠ (st.table i).mac := by
    intro c hc
    simpa using hbefore c hc
  have hnamed : lastNamed st sourceId = some last := by
    rw [lastNamed, List.find?_eq_some_iff_append]
    refine ⟨decide_eq_true ⟨hsaid.trans hsource, i, hmac ▸ hkey, hsource⟩, before, after, hcalls, ?_⟩
    intro c hc
    rw [Bool.not_eq_true', decide_eq_false_iff_not]
    rintro ⟨-, j, hj, hsourcej⟩
    rcases lt_trichotomy j i with hlt | rfl | hgt
    · have hfree := hfirst j hlt
      rw [(PeerIdentity.key_eq_some.1 hj).1, hsourcej, beq_self_eq_true] at hfree
      cases hfree
    · exact hbefore c hc (PeerIdentity.key_eq_some.1 hj).2.symm
    · exact notMem_before hcalls hbefore
        (ho i j _ _ hgt hkey hj (hsource.trans hsourcej.symm)) c hc rfl
  rw [hnamed, Option.map_some, hmac, hboot]

theorem mostRecent_of_ordered (hs : Sound st) (ho : Ordered st) : MostRecent st := by
  intro sourceId
  rw [lookupPeerMacBySourceId]
  split
  · -- no valid call names it
    rename_i hzero
    symm
    rw [Option.map_eq_none_iff, lastNamed, List.find?_eq_none]
    rintro call - hnames
    exact call.source_ne ((of_decide_eq_true hnames).1.trans hzero)
  · cases hfind : SlotTable.first (fun p => p.used && p.sourceId == sourceId) st.table with
    | none => rw [lastNamed_of_free (SlotTable.first_eq_none.1 hfind), Option.map_none, Option.map_none]
    | some i =>
      obtain ⟨hi, hfirst⟩ := SlotTable.first_eq_some.1 hfind
      rw [Bool.and_eq_true, beq_iff_eq] at hi
      rw [lastNamed_of_first hs ho hi.1 hi.2 hfirst, Option.map_some]

/-- A call is looked up only if it lands below the other holders of its id. -/
theorem landsLowest_of_mostRecent (hs : Sound st) (h : MostRecent (step st call)) :
    LandsLowest st call := by
  have hnamed : lastNamed (step st call) call.sourceId = some call := by
    refine List.find?_cons_of_pos (decide_eq_true ⟨rfl, slotFor st.table call.mac, ?_⟩)
    obtain ⟨-, hkey, hsource, -⟩ | ⟨hne, -⟩ := step_slot st call (slotFor st.table call.mac)
    · exact ⟨hkey, hsource⟩
    · exact absurd rfl hne
  have hlookup := h call.sourceId
  rw [hnamed, lookupPeerMacBySourceId, if_neg call.source_ne, Option.map_some,
    Option.map_eq_some_iff] at hlookup
  obtain ⟨i, hi, hfound⟩ := hlookup
  obtain ⟨hhere, hfirst⟩ := SlotTable.first_eq_some.1 hi
  rw [Bool.and_eq_true, beq_iff_eq] at hhere
  have hkey : ((step st call).table i).key = some call.mac :=
    PeerIdentity.key_eq_some.2 ⟨hhere.1, (Prod.mk.inj hfound).1⟩
  -- the slot found is the one the call landed in
  obtain ⟨rfl, -⟩ | ⟨hne, hsame⟩ := step_slot st call i
  · intro j hj hused hsource
    obtain ⟨rfl, -⟩ | ⟨-, hsamej⟩ := step_slot st call j
    · exact absurd hj (lt_irrefl _)
    · have hfree := hfirst j hj
      rw [hsamej, hused, hsource, beq_self_eq_true] at hfree
      cases hfree
  · rw [hsame] at hkey
    exact absurd rfl (other_mac hs hne hkey)

/-! ## Runs -/

theorem ordered_init : Ordered {} := nofun

/-- Every id is looked up as it was last named, throughout a run, just when every call
lands below the other slots that hold its id. -/
theorem run_mostRecent_iff (calls : List Call) :
    Run.Throughout step MostRecent {} calls ↔ Run.AllSteps step LandsLowest {} calls := by
  constructor
  · intro h
    refine @Run.AllSteps.of_throughout _ _ _ _ _ _ _ Sound (fun st call hs => hs.step call) ?_ sound_init h
    exact fun st call hs hnext => landsLowest_of_mostRecent hs hnext
  · intro h
    refine (@Run.Throughout.of_allSteps _ _ _ (fun st => Sound st ∧ Ordered st) _ _ _ ?_
      ⟨sound_init, ordered_init⟩ h).imp fun st hst => mostRecent_of_ordered hst.1 hst.2
    exact fun st call hst hlow => ⟨hst.1.step call, hst.2.step hst.1 hlow⟩

/-- A robot heard from under one radio address, then under another. -/
def movedRobot : List Call :=
  [ { mac := Vector.replicate 6 0x0A, sourceId := 5, bootId := 1, source_ne := by decide, boot_ne := by decide },
    { mac := Vector.replicate 6 0x0B, sourceId := 5, bootId := 2, source_ne := by decide, boot_ne := by decide } ]

/-- It is still looked up at the old address. -/
theorem moved_robot_lost : ¬∀ calls, Run.Throughout step MostRecent {} calls := by
  intro h
  have hrecent : MostRecent (movedRobot.foldl step {}) := Run.Throughout.final (h movedRobot)
  have hnew := hrecent 5
  revert hnew
  decide +kernel

end BallyDongle.BtpTransport.ReverseLookup
