import BallyDongle.BtpTransport.PeerTable
import BallyDongle.Lib.Run

/-!
# What a slot keeps of its past

A MAC new to a full table overwrites the first slot. The verdict of the heartbeat is
reset there, the round trip and the pending ping are not, so that the new MAC is shown
with the time of the old one. `run_ownPast` says that every MAC is shown with its own
past as long as the slot overwritten has none.
-/

namespace BallyDongle.BtpTransport.PeerHistory

inductive Op
  | rememberAuthenticatedPeer (mac : Mac) (sourceId bootId nowMs : UInt32) (rssi : Int8)
  | notePeerLinkResult (mac : Mac) (delivered : Bool)
  | notePingSent (mac : Mac) (sequence nowMs : UInt32)
  | notePingReply (mac : Mac) (replyToSequence nowMs : UInt32)
  deriving DecidableEq

/-- The MAC a call is addressed to. -/
def Op.mac : Op → Mac
  | rememberAuthenticatedPeer mac _ _ _ _ => mac
  | notePeerLinkResult mac _ => mac
  | notePingSent mac _ _ => mac
  | notePingReply mac _ _ => mac

def call (g : PeerTable) : Op → PeerTable
  | .rememberAuthenticatedPeer mac sourceId bootId nowMs rssi =>
    BtpTransport.rememberAuthenticatedPeer g mac sourceId bootId nowMs rssi
  | .notePeerLinkResult mac delivered => BtpTransport.notePeerLinkResult g mac delivered
  | .notePingSent mac sequence nowMs => BtpTransport.notePingSent g mac sequence nowMs
  | .notePingReply mac replyToSequence nowMs => BtpTransport.notePingReply g mac replyToSequence nowMs

/-- The call enters its MAC, which is not in the table. -/
def Enters (g : PeerTable) : Op → Prop
  | .rememberAuthenticatedPeer mac sourceId bootId _ _ =>
    sourceId ≠ 0 ∧ bootId ≠ 0 ∧ findMac g mac = none
  | _ => False

instance (g : PeerTable) : (op : Op) → Decidable (Enters g op)
  | .rememberAuthenticatedPeer .. => inferInstanceAs (Decidable (_ ∧ _ ∧ _))
  | .notePeerLinkResult .. => inferInstanceAs (Decidable False)
  | .notePingSent .. => inferInstanceAs (Decidable False)
  | .notePingReply .. => inferInstanceAs (Decidable False)

/-- The table, and for each MAC the calls addressed to it since it was entered, in order. -/
structure State where
  table : PeerTable := .init
  since : Mac → List Op := fun _ => []
  /-- the MAC the last call entered -/
  entered : Option Mac := none

def step (st : State) (op : Op) : State where
  table := call st.table op
  since := Function.update st.since op.mac
    (if Enters st.table op then [] else st.since op.mac ++ [op])
  entered := if Enters st.table op then some op.mac else none

/-- A round trip is the MAC's own: from a ping sent to it to the reply to that ping. -/
def OwnRtt (since : List Op) (mac : Mac) (rttMs : UInt32) : Prop :=
  rttMs = 0 ∨ ∃ sequence sentMs repliedMs,
    [Op.notePingSent mac sequence sentMs, Op.notePingReply mac sequence repliedMs].Sublist since ∧
      rttMs = repliedMs - sentMs

/-- A MAC just entered is shown without a past, and no MAC is ever shown with the round
trip of another. -/
structure OwnPast (st : State) : Prop where
  fresh : ∀ mac, st.entered = some mac → ∃ p ∈ enumeratePeers st.table kPeerIdentityCapacity,
    p.mac = mac ∧ p.linkOk = false ∧ p.rttMs = 0
  own : ∀ maxOut, ∀ p ∈ enumeratePeers st.table maxOut, OwnRtt (st.since p.mac) p.mac p.rttMs

/-- The call overwrites no slot, or one without a round trip and without a ping pending. -/
def CleanEntry (st : State) (op : Op) : Prop :=
  Enters st.table op → (∀ i, (st.table i).used = true) →
    (st.table ⟨0, kPeerIdentityCapacity_pos⟩).rttMs = 0 ∧ (st.table ⟨0, kPeerIdentityCapacity_pos⟩).pingPending = false

instance (st : State) (op : Op) : Decidable (CleanEntry st op) :=
  inferInstanceAs (Decidable (_ → _ → _ ∧ _))

/-! ## The invariant -/

/-- A slot owes its round trip and its pending ping to calls for its MAC. -/
structure Owes (since : List Op) (p : PeerIdentity) : Prop where
  rtt : OwnRtt since p.mac p.rttMs
  ping : p.pingPending = true → Op.notePingSent p.mac p.pingSequence p.pingSentMs ∈ since

/-- Used slots owe what they show; the others have nothing to show. -/
structure Kept (st : State) : Prop where
  used : ∀ i, (st.table i).used = true → Owes (st.since (st.table i).mac) (st.table i)
  free : ∀ i, (st.table i).used = false →
    (st.table i).rttMs = 0 ∧ (st.table i).pingPending = false

theorem kept_init : Kept {} := ⟨nofun, fun _ _ => ⟨rfl, rfl⟩⟩

theorem OwnRtt.mono {since since' : List Op} {mac : Mac} {rttMs : UInt32}
    (h : OwnRtt since mac rttMs) (hsub : since.Sublist since') : OwnRtt since' mac rttMs := by
  obtain hzero | ⟨sequence, sentMs, repliedMs, hboth, hrtt⟩ := h
  · exact .inl hzero
  · exact .inr ⟨sequence, sentMs, repliedMs, hboth.trans hsub, hrtt⟩

theorem Owes.mono {since since' : List Op} {p : PeerIdentity} (h : Owes since p)
    (hsub : since.Sublist since') : Owes since' p :=
  ⟨h.rtt.mono hsub, fun hpending => hsub.subset (h.ping hpending)⟩

/-- What a slot owes does not depend on its other fields. -/
theorem Owes.congr {since : List Op} {p q : PeerIdentity} (h : Owes since p) (hmac : q.mac = p.mac)
    (hrtt : q.rttMs = p.rttMs) (hpending : q.pingPending = p.pingPending)
    (hsequence : q.pingSequence = p.pingSequence) (hsent : q.pingSentMs = p.pingSentMs) :
    Owes since q := by
  constructor
  · rw [hmac, hrtt]
    exact h.rtt
  · rw [hmac, hpending, hsequence, hsent]
    exact h.ping

variable {st : State} {op : Op} {mac : Mac}

theorem since_mono (h : ¬Enters st.table op) (mac : Mac) :
    (st.since mac).Sublist ((step st op).since mac) := by
  show (st.since mac).Sublist (Function.update st.since op.mac _ mac)
  rw [if_neg h]
  rcases eq_or_ne mac op.mac with rfl | hne
  · rw [Function.update_self]
    exact List.sublist_append_left ..
  · rw [Function.update_of_ne hne]

theorem since_self (h : ¬Enters st.table op) :
    (step st op).since op.mac = st.since op.mac ++ [op] := by
  show Function.update st.since op.mac _ op.mac = _
  rw [if_neg h, Function.update_self]

theorem Kept.of_same (hk : Kept st) (h : ¬Enters st.table op) (hcall : call st.table op = st.table) :
    Kept (step st op) where
  used := by
    show ∀ i, (call st.table op i).used = true → _
    intro i hi
    rw [hcall] at hi
    have howes := (hk.used i hi).mono (since_mono h _)
    rw [← hcall] at howes
    exact howes
  free := by
    show ∀ i, (call st.table op i).used = false → _
    intro i hi
    show (call st.table op i).rttMs = 0 ∧ _
    rw [hcall] at hi
    have hfree := hk.free i hi
    rwa [← hcall] at hfree

/-- A call that writes one slot leaves the others what they owe. -/
theorem Kept.of_update (hk : Kept st) {i : Fin kPeerIdentityCapacity} {p : PeerIdentity}
    (hcall : call st.table op = Function.update st.table i p) (hused : p.used = true)
    (hown : Owes ((step st op).since p.mac) p)
    (hother : ∀ j, j ≠ i → (st.table j).used = true →
      (st.since (st.table j).mac).Sublist ((step st op).since (st.table j).mac)) :
    Kept (step st op) where
  used := by
    intro j hj
    have htable : (step st op).table = Function.update st.table i p := hcall
    rw [htable] at hj ⊢
    rcases eq_or_ne j i with rfl | hne
    · rw [Function.update_self]
      exact hown
    · rw [Function.update_of_ne hne] at hj ⊢
      exact (hk.used j hj).mono (hother j hne hj)
  free := by
    intro j hj
    have htable : (step st op).table = Function.update st.table i p := hcall
    rw [htable] at hj ⊢
    rcases eq_or_ne j i with rfl | hne
    · rw [Function.update_self, hused] at hj
      cases hj
    · rw [Function.update_of_ne hne] at hj ⊢
      exact hk.free j hj

/-! ## One call -/

section found

variable {i : Fin kPeerIdentityCapacity}

theorem owes_found (hk : Kept st) (hfind : findMac st.table mac = some i) :
    (st.table i).used = true ∧ (st.table i).mac = mac ∧ Owes (st.since mac) (st.table i) := by
  obtain ⟨hused, hmac⟩ := PeerIdentity.key_eq_some.1 (findMac_key hfind)
  have howes := hk.used i hused
  rw [hmac] at howes
  exact ⟨hused, hmac, howes⟩

theorem Kept.link (hk : Kept st) (mac : Mac) (delivered : Bool) :
    Kept (step st (.notePeerLinkResult mac delivered)) := by
  have hmono : ∀ m, (st.since m).Sublist ((step st (.notePeerLinkResult mac delivered)).since m) :=
    since_mono not_false
  cases hfind : findMac st.table mac with
  | none =>
    refine hk.of_same not_false ?_
    rw [call, notePeerLinkResult, hfind]
  | some i =>
    obtain ⟨hused, rfl, howes⟩ := owes_found hk hfind
    have hcall : call st.table (.notePeerLinkResult (st.table i).mac delivered) =
        Function.update st.table i { st.table i with linkOk := delivered } := by
      rw [call, notePeerLinkResult, hfind]
    refine hk.of_update hcall hused ?_ fun j _ _ => hmono _
    exact (howes.mono (hmono _)).congr rfl rfl rfl rfl rfl

theorem Kept.pingSent (hk : Kept st) (mac : Mac) (sequence nowMs : UInt32) :
    Kept (step st (.notePingSent mac sequence nowMs)) := by
  have hmono : ∀ m, (st.since m).Sublist ((step st (.notePingSent mac sequence nowMs)).since m) :=
    since_mono not_false
  have hself : (step st (.notePingSent mac sequence nowMs)).since mac =
      st.since mac ++ [.notePingSent mac sequence nowMs] := since_self not_false
  cases hfind : findMac st.table mac with
  | none =>
    refine hk.of_same not_false ?_
    rw [call, notePingSent, hfind]
  | some i =>
    obtain ⟨hused, rfl, howes⟩ := owes_found hk hfind
    have hcall : call st.table (.notePingSent (st.table i).mac sequence nowMs) =
        Function.update st.table i
          { st.table i with pingPending := true, pingSequence := sequence, pingSentMs := nowMs } := by
      rw [call, notePingSent, hfind]
    refine hk.of_update hcall hused ⟨howes.rtt.mono (hmono _), fun _ => ?_⟩ fun j _ _ => hmono _
    dsimp only
    rw [hself]
    exact List.mem_append_right _ (List.mem_singleton.2 rfl)

theorem Kept.pingReply (hk : Kept st) (mac : Mac) (replyToSequence nowMs : UInt32) :
    Kept (step st (.notePingReply mac replyToSequence nowMs)) := by
  have hmono : ∀ m,
      (st.since m).Sublist ((step st (.notePingReply mac replyToSequence nowMs)).since m) :=
    since_mono not_false
  have hself : (step st (.notePingReply mac replyToSequence nowMs)).since mac =
      st.since mac ++ [.notePingReply mac replyToSequence nowMs] := since_self not_false
  cases hfind : findMac st.table mac with
  | none =>
    refine hk.of_same not_false ?_
    rw [call, notePingReply, hfind]
  | some i =>
    obtain ⟨hused, rfl, howes⟩ := owes_found hk hfind
    by_cases hmatch : (st.table i).pingPending = true ∧ (st.table i).pingSequence = replyToSequence
    · have hcall : call st.table (.notePingReply (st.table i).mac replyToSequence nowMs) =
          Function.update st.table i
            { st.table i with rttMs := nowMs - (st.table i).pingSentMs, pingPending := false } := by
        rw [call, notePingReply, hfind]
        exact if_pos (by rw [Bool.and_eq_true, beq_iff_eq]; exact hmatch)
      have hsent := howes.ping hmatch.1
      rw [hmatch.2] at hsent
      refine hk.of_update hcall hused
        ⟨.inr ⟨replyToSequence, (st.table i).pingSentMs, nowMs, ?_, rfl⟩, nofun⟩ fun j _ _ => hmono _
      dsimp only
      rw [hself]
      exact (List.singleton_sublist.2 hsent).append (List.Sublist.refl [_])
    · refine hk.of_same not_false ?_
      rw [call, notePingReply, hfind]
      exact if_neg (by rw [Bool.and_eq_true, beq_iff_eq]; exact hmatch)

end found

/-! ## An authenticated frame -/

section remember

variable {sourceId bootId nowMs : UInt32} {rssi : Int8}

/-- A MAC that is in the table keeps its slot and what is owed there. -/
theorem Kept.remember_found (hk : Kept st) {i : Fin kPeerIdentityCapacity}
    (hfind : findMac st.table mac = some i) :
    Kept (step st (.rememberAuthenticatedPeer mac sourceId bootId nowMs rssi)) := by
  have hstays : ¬Enters st.table (.rememberAuthenticatedPeer mac sourceId bootId nowMs rssi) := by
    rintro ⟨-, -, hnone⟩
    rw [hfind] at hnone
    cases hnone
  have hmono : ∀ m, (st.since m).Sublist
      ((step st (.rememberAuthenticatedPeer mac sourceId bootId nowMs rssi)).since m) :=
    since_mono hstays
  by_cases hvalid : sourceId = 0 ∨ bootId = 0
  · exact hk.of_same hstays (rememberAuthenticatedPeer_invalid hvalid)
  · rw [not_or] at hvalid
    have hcall : call st.table (.rememberAuthenticatedPeer mac sourceId bootId nowMs rssi) = _ :=
      rememberAuthenticatedPeer_eq hvalid.1 hvalid.2
    have hslot : slotFor st.table mac = i := by rw [slotFor, hfind, Option.getD_some]
    obtain ⟨hused, rfl, howes⟩ := owes_found hk hfind
    rw [hslot] at hcall
    refine hk.of_update hcall rfl ?_ fun j _ _ => hmono _
    exact (howes.mono (hmono _)).congr rfl rfl rfl rfl rfl

/-- The slot of a new MAC: a free one, or the first of a full table. -/
theorem slotFor_new (hfind : findMac st.table mac = none) :
    (st.table (slotFor st.table mac)).used = false ∨
      (∀ i, (st.table i).used = true) ∧ slotFor st.table mac = ⟨0, kPeerIdentityCapacity_pos⟩ := by
  rw [slotFor, hfind, Option.getD_none]
  cases hfree : SlotTable.first (fun p => !p.used) st.table with
  | none => exact .inr ⟨fun i => by simpa using SlotTable.first_eq_none.1 hfree i, rfl⟩
  | some i => exact .inl (by simpa using SlotTable.first_holds hfree)

/-- Without a past of its own, the slot of a new MAC shows none. -/
theorem slot_clean (hk : Kept st)
    (henters : Enters st.table (.rememberAuthenticatedPeer mac sourceId bootId nowMs rssi))
    (hclean : CleanEntry st (.rememberAuthenticatedPeer mac sourceId bootId nowMs rssi)) :
    (st.table (slotFor st.table mac)).rttMs = 0 ∧
      (st.table (slotFor st.table mac)).pingPending = false := by
  obtain hfree | ⟨hfull, hzero⟩ := slotFor_new henters.2.2
  · exact hk.free _ hfree
  · rw [hzero]
    exact hclean henters hfull

theorem Kept.remember_new (hk : Kept st)
    (henters : Enters st.table (.rememberAuthenticatedPeer mac sourceId bootId nowMs rssi))
    (hclean : CleanEntry st (.rememberAuthenticatedPeer mac sourceId bootId nowMs rssi)) :
    Kept (step st (.rememberAuthenticatedPeer mac sourceId bootId nowMs rssi)) := by
  obtain ⟨hrtt, hpending⟩ := slot_clean hk henters hclean
  have hcall : call st.table (.rememberAuthenticatedPeer mac sourceId bootId nowMs rssi) = _ :=
    rememberAuthenticatedPeer_eq henters.1 henters.2.1
  refine hk.of_update hcall rfl ⟨.inl hrtt, fun htrue => ?_⟩ fun j _ hj => ?_
  · rw [hpending] at htrue
    cases htrue
  · -- the calls for the other MACs are untouched
    have hne : (st.table j).mac ≠ mac := by
      intro heq
      exact findMac_eq_none.1 henters.2.2 j (PeerIdentity.key_eq_some.2 ⟨hj, heq⟩)
    show (st.since _).Sublist (Function.update st.since mac _ _)
    rw [Function.update_of_ne hne]

/-- It is shown as it was entered. -/
theorem fresh_of_enters (hk : Kept st)
    (henters : Enters st.table (.rememberAuthenticatedPeer mac sourceId bootId nowMs rssi))
    (hclean : CleanEntry st (.rememberAuthenticatedPeer mac sourceId bootId nowMs rssi)) :
    ∃ p ∈ enumeratePeers
        (step st (.rememberAuthenticatedPeer mac sourceId bootId nowMs rssi)).table
        kPeerIdentityCapacity,
      p.mac = mac ∧ p.linkOk = false ∧ p.rttMs = 0 := by
  have hcall : (step st (.rememberAuthenticatedPeer mac sourceId bootId nowMs rssi)).table = _ :=
    rememberAuthenticatedPeer_eq henters.1 henters.2.1
  have hused : ((step st (.rememberAuthenticatedPeer mac sourceId bootId nowMs rssi)).table
      (slotFor st.table mac)).used = true := by
    rw [hcall, Function.update_self]
  refine ⟨_, enumeratePeers_all hused, ?_⟩
  rw [hcall, Function.update_self, henters.2.2]
  exact ⟨rfl, rfl, (slot_clean hk henters hclean).1⟩

end remember

theorem Kept.step (hk : Kept st) (hclean : CleanEntry st op) : Kept (step st op) := by
  cases op with
  | rememberAuthenticatedPeer mac sourceId bootId nowMs rssi =>
    cases hfind : findMac st.table mac with
    | some i => exact hk.remember_found hfind
    | none =>
      by_cases hvalid : sourceId = 0 ∨ bootId = 0
      · refine hk.of_same (fun henters => ?_) (rememberAuthenticatedPeer_invalid hvalid)
        exact hvalid.elim henters.1 henters.2.1
      · rw [not_or] at hvalid
        exact hk.remember_new ⟨hvalid.1, hvalid.2, hfind⟩ hclean
  | notePeerLinkResult mac delivered => exact hk.link mac delivered
  | notePingSent mac sequence nowMs => exact hk.pingSent mac sequence nowMs
  | notePingReply mac replyToSequence nowMs => exact hk.pingReply mac replyToSequence nowMs

theorem fresh_step (hk : Kept st) (hclean : CleanEntry st op) :
    ∀ mac, (step st op).entered = some mac →
      ∃ p ∈ enumeratePeers (step st op).table kPeerIdentityCapacity,
        p.mac = mac ∧ p.linkOk = false ∧ p.rttMs = 0 := by
  intro mac hmac
  obtain ⟨henters, heq⟩ := Option.ite_none_right_eq_some.1 hmac
  cases op with
  | rememberAuthenticatedPeer mac' sourceId bootId nowMs rssi =>
    cases heq
    exact fresh_of_enters hk henters hclean
  | notePeerLinkResult _ _ => exact henters.elim
  | notePingSent _ _ _ => exact henters.elim
  | notePingReply _ _ _ => exact henters.elim

/-! ## Runs -/

theorem Kept.own (hk : Kept st) (maxOut : Nat) {p : PeerSnapshot}
    (hp : p ∈ enumeratePeers st.table maxOut) : OwnRtt (st.since p.mac) p.mac p.rttMs := by
  obtain ⟨i, hused, rfl⟩ := mem_enumeratePeers hp
  exact (hk.used i hused).rtt

/-- No MAC inherits its slot's past as long as no slot with one is overwritten. -/
theorem run_ownPast (ops : List Op) (hclean : Run.AllSteps step CleanEntry {} ops) :
    Run.Throughout step OwnPast {} ops := by
  refine (Run.Throughout.of_allSteps
    (fun st op (hst : Kept st ∧ OwnPast st) hop => ?_) ⟨kept_init, ⟨nofun, ?_⟩⟩ hclean).imp
    fun st hst => hst.2
  · have hk := hst.1.step hop
    exact ⟨hk, fresh_step hst.1 hop, fun maxOut p hp => hk.own maxOut hp⟩
  · exact fun maxOut p hp => kept_init.own maxOut hp

def peerMac (n : Nat) : Mac := Vector.replicate 6 n.toUInt8

/-- Peers entered one after the other, each under its own id. -/
def entries (count : Nat) : List Op :=
  (List.range count).map fun n =>
    .rememberAuthenticatedPeer (peerMac n) (n + 1).toUInt32 1 0 (-60)

def pinged (n : Nat) : List Op :=
  [.notePingSent (peerMac n) 3 100, .notePingReply (peerMac n) 3 107]

/-- A full table whose second peer answered a ping, and one peer more. -/
theorem run_ownPast_seventeen :
    Run.Throughout step OwnPast {}
      (entries 16 ++ pinged 1 ++ [.rememberAuthenticatedPeer (peerMac 16) 17 1 200 (-60)]) :=
  run_ownPast _ (by decide +kernel)

/-- The peer that is entered over the first is shown with the first one's round trip. -/
theorem inherited_round_trip : ¬∀ ops, Run.Throughout step OwnPast {} ops := by
  intro h
  have hlast : OwnPast (List.foldl step {} (entries 16 ++ pinged 0 ++
      [.rememberAuthenticatedPeer (peerMac 16) 17 1 200 (-60)])) :=
    Run.Throughout.final (h _)
  have hfresh := hlast.fresh (peerMac 16) (by decide +kernel)
  revert hfresh
  decide +kernel

end BallyDongle.BtpTransport.PeerHistory
