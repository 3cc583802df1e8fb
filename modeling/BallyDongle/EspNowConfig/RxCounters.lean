import BallyDongle.EspNowConfig.Reception

/-!
# The ingress counters

`RxCounters` is meant to balance: every datagram that was neither a fragment on its
way nor dropped was routed. What a datagram adds to the two sides depends on how its
processing ends, and `Counted` says which ends keep the balance.
-/

namespace BallyDongle.EspNowConfig

open Btp BtpTransport BtpCommand ProtocolRouter SerialMux

variable {E : Platform} {s s' : State E} {droppedRx excess : UInt32}

/-- How far the counters are from the balance their documentation gives. -/
def RxTotals.imbalance (t : RxTotals) (droppedRx : UInt32) : UInt32 :=
  t.rxDatagram - t.fragmentAccepted -
      (droppedRx + t.droppedDecode + t.droppedCrc + t.droppedReassembly + t.droppedQueueFull) -
    (t.routedTelemetry + t.routedLog + t.routedCommand + t.routedControl + t.routedTerminal)

/-! ## What each counter does to it -/

theorem imbalance_countDatagram (s : State E) :
    s.countDatagram.totals.imbalance droppedRx = s.totals.imbalance droppedRx + 1 := by
  simp only [State.countDatagram, RxTotals.imbalance]
  grind

theorem imbalance_countFragment (s : State E) :
    s.countFragment.totals.imbalance droppedRx = s.totals.imbalance droppedRx - 1 := by
  simp only [State.countFragment, RxTotals.imbalance]
  grind

theorem imbalance_dropDecode (s : State E) :
    s.dropDecode.totals.imbalance droppedRx = s.totals.imbalance droppedRx - 1 := by
  simp only [State.dropDecode, RxTotals.imbalance]
  grind

theorem imbalance_dropCrc (s : State E) :
    s.dropCrc.totals.imbalance droppedRx = s.totals.imbalance droppedRx - 1 := by
  simp only [State.dropCrc, RxTotals.imbalance]
  grind

theorem imbalance_dropReassembly (s : State E) :
    s.dropReassembly.totals.imbalance droppedRx = s.totals.imbalance droppedRx - 1 := by
  simp only [State.dropReassembly, RxTotals.imbalance]
  grind

theorem imbalance_dropQueueFull (s : State E) :
    s.dropQueueFull.totals.imbalance droppedRx = s.totals.imbalance droppedRx - 1 := by
  simp only [State.dropQueueFull, RxTotals.imbalance]
  grind

/-- Every type but `invalid` has its counter. -/
theorem imbalance_countRouted (s : State E) (type : MessageType) :
    (s.countRouted type).totals.imbalance droppedRx =
      s.totals.imbalance droppedRx - if type = .invalid then 0 else 1 := by
  cases type <;> simp only [State.countRouted, RxTotals.imbalance, reduceCtorEq, if_true, if_false] <;>
    grind

theorem Quiet.imbalance (h : Quiet s s') (droppedRx : UInt32) :
    s'.totals.imbalance droppedRx = s.totals.imbalance droppedRx := by
  rw [h.totals]

/-! ## How a datagram ends -/

/-- A message delivered is routed, to a queue with room if its type has one. -/
def CountedDelivery (s : State E) (routed : RoutedMessage) : Prop :=
  routed.header.type ≠ .invalid ∧
    ∀ queue, State.queueForType routed.header.type = some queue →
      routed.payload.length ≤ kQueuedPayloadCap ∧ (s.queues queue).items.length < kRoutedQueueDepth

/-- A message that does not open goes up as the one datagram it was, or is dropped
for its missing fragments. -/
def CountedUnopened (s : State E) (ingress : HubRelay.RadioIngress) (routed : RoutedMessage) :
    Prop :=
  s.mux.isProtocolled = true ∧
    (ingress.header.flags.fragmented = true → ∀ slot frames,
      retained s.pending routed.header.identity = some slot →
      State.datagrams slot = some frames → frames.length = 1)

/-- The outcomes that move both sides of the balance, or neither. -/
def CountedOutcome (s : State E) (ingress : HubRelay.RadioIngress) : Outcome → Prop
  | .droppedDecode | .droppedCrc | .droppedReassembly | .fragmentAccepted => True
  | .droppedInvalidArgument | .duplicateFragment => False
  | .routed routed =>
    if ingress.mayConsume then
      match s.tryOpen routed with
      | none => CountedUnopened s ingress routed
      | some plaintext =>
        Channels.dongleConsumes routed.header.type routed.header.objectId
          (State.referenceSourceId routed.header plaintext) E.serial.sourceId = true
    else CountedDelivery s routed

/-- The datagrams whose processing keeps the balance. -/
def Counted (s : State E) (d : Datagram) : Prop :=
  match HubRelay.classifyRadio E.serial.codec d.data with
  | .error _ => True
  | .ok ingress =>
    if !ingress.mayConsume && s.mux.isProtocolled then ingress.header.type ≠ .invalid
    else (s.retain d ingress).2 = true →
      CountedOutcome (s.retain d ingress).1 ingress
        (submit E.receiver s.router d.mac d.data d.nowMs.toUInt64).2

theorem enqueueRouted_imbalance (s : State E) (queue : Option QueueId) (routed : RoutedMessage) :
    (s.enqueueRouted queue routed).totals.imbalance droppedRx = s.totals.imbalance droppedRx ↔
      ∀ q, queue = some q → routed.payload.length ≤ kQueuedPayloadCap ∧
        (s.queues q).items.length < kRoutedQueueDepth := by
  have hdrop : ¬ s.totals.imbalance droppedRx - 1 = s.totals.imbalance droppedRx := by grind
  unfold State.enqueueRouted
  cases queue with
  | none => simp
  | some q =>
    dsimp only
    split
    · rename_i hcap
      cases hsend : (s.queues q).send ⟨routed.mac, routed.header, routed.payload, routed.arrivalMs, hcap⟩ with
      | none =>
        have hfull := BoundedQueue.send_eq_none.1 hsend
        rw [imbalance_dropQueueFull]
        refine iff_of_false hdrop fun h => ?_
        have := (h q rfl).2
        omega
      | some items =>
        refine iff_of_true rfl fun q' hq => ?_
        cases hq
        refine ⟨hcap, Nat.lt_of_le_of_ne (s.queues q).length_le fun hfull => ?_⟩
        rw [BoundedQueue.send_eq_none.2 hfull] at hsend
        cases hsend
    · rename_i hcap
      rw [imbalance_dropQueueFull]
      exact iff_of_false hdrop fun h => hcap (h q rfl).1

/-- Handled on the spot. -/
theorem handled_imbalance {routed : RoutedMessage} (hvalid : routed.header.type ≠ .invalid)
    (hqueue : State.queueForType routed.header.type = none)
    (h : Quiet (s.countRouted routed.header.type) s') :
    s'.totals.imbalance droppedRx = s.totals.imbalance droppedRx - 1 ↔
      CountedDelivery s routed := by
  refine iff_of_true ?_ ⟨hvalid, fun queue hq => ?_⟩
  · rw [h.imbalance, imbalance_countRouted, if_neg hvalid]
  · rw [hqueue] at hq
    cases hq

theorem dispatchRouted_imbalance (s : State E) (mac : Mac) (routed : RoutedMessage)
    (droppedRx : UInt32) :
    (s.dispatchRouted mac routed).totals.imbalance droppedRx = s.totals.imbalance droppedRx - 1 ↔
      CountedDelivery s routed := by
  have hcount : (s.countRouted routed.header.type).totals.imbalance droppedRx = _ :=
    imbalance_countRouted s routed.header.type
  have hqueues : (s.countRouted routed.header.type).queues = s.queues := rfl
  unfold State.dispatchRouted
  dsimp only
  split
  · rename_i htype
    exact handled_imbalance (by simp [htype]) (by rw [htype]; rfl)
      (handleRoutedCommand_quiet _ mac routed)
  · rename_i htype
    exact handled_imbalance (by simp [htype]) (by rw [htype]; rfl) (handleControlItem_quiet _ routed)
  · unfold CountedDelivery
    by_cases htype : routed.header.type = .invalid
    · rw [htype] at hcount ⊢
      refine iff_of_false ?_ fun h => h.1 rfl
      have hnone : ((s.countRouted .invalid).enqueueRouted (State.queueForType .invalid) routed) =
        s.countRouted .invalid := rfl
      rw [hnone, hcount, if_pos rfl]
      grind
    · rw [if_neg htype] at hcount
      rw [← hcount, enqueueRouted_imbalance, hqueues, and_iff_right htype]

theorem deliver_imbalance (s : State E) (mac : Mac) (routed : RoutedMessage) :
    (s.deliver mac routed).totals.imbalance droppedRx = s.totals.imbalance droppedRx - 1 ↔
      CountedDelivery s routed := by
  have hprime := primeManifestIfNeeded_quiet s mac routed.header
  have h := dispatchRouted_imbalance (s.primeManifestIfNeeded mac routed.header) mac routed droppedRx
  unfold CountedDelivery at h ⊢
  rwa [hprime.imbalance, hprime.queues] at h

/-- Each datagram relayed counts as a message routed. -/
theorem relayAll_imbalance {header : Header} (hvalid : header.type ≠ .invalid)
    (frames : List Bytes) (s : State E) :
    (s.relayAll header frames).totals.imbalance droppedRx =
      s.totals.imbalance droppedRx - UInt32.ofNat frames.length := by
  induction frames generalizing s with
  | nil => simp [State.relayAll]
  | cons frame frames ih =>
    have hup : (s.relayUp header frame).totals = (s.countRouted header.type).totals := rfl
    refine (ih (s.relayUp header frame)).trans ?_
    rw [hup, imbalance_countRouted, if_neg hvalid, List.length_cons, UInt32.ofNat_add]
    grind

theorem datagrams_length {slot : PendingRelay} {frames : List Bytes}
    (h : State.datagrams slot = some frames) : frames.length < 2 ^ 32 := by
  unfold State.datagrams at h
  dsimp only at h
  split at h
  · cases h
    refine Nat.lt_of_le_of_lt (List.length_filterMap_le _ _) ?_
    rw [List.length_range]
    exact Nat.lt_trans slot.fragmentCount.toNat_lt (by decide)
  · cases h

/-- The fragments of a message are routed messages of their own to the counters. -/
theorem relayPendingUp_imbalance {header : Header} (hvalid : header.type ≠ .invalid) (s : State E)
    {out : State E × Bool} (hout : out = s.relayPendingUp header) (droppedRx : UInt32) :
    (if out.2 then out.1 else out.1.dropReassembly).totals.imbalance droppedRx =
        s.totals.imbalance droppedRx - 1 ↔
      ∀ slot frames, retained s.pending header.identity = some slot →
        State.datagrams slot = some frames → frames.length = 1 := by
  have hdropped : ∀ s' : State E, s'.totals = s.totals →
      s'.dropReassembly.totals.imbalance droppedRx = s.totals.imbalance droppedRx - 1 :=
    fun s' h => by rw [imbalance_dropReassembly, h]
  unfold State.relayPendingUp at hout
  unfold retained SlotTable.lookup
  cases hi : SlotTable.find PendingRelay.key header.identity s.pending with
  | none =>
    rw [hi] at hout
    subst hout
    exact iff_of_true (hdropped s rfl) fun slot frames hs => nomatch hs
  | some i =>
    rw [hi] at hout
    dsimp only at hout
    cases hw : State.datagrams (s.pending i) with
    | none =>
      rw [hw] at hout
      subst hout
      refine iff_of_true (hdropped _ rfl) fun slot frames hs hw' => ?_
      cases hs
      rw [hw] at hw'
      cases hw'
    | some frames =>
      rw [hw] at hout
      subst hout
      have hall : ((s.relayAll header frames).resetSlot i).totals.imbalance droppedRx = _ :=
        relayAll_imbalance hvalid frames s
      rw [if_pos rfl, hall]
      have hlen := datagrams_length hw
      constructor
      · intro h slot frames' hs hw'
        cases hs
        rw [hw] at hw'
        cases hw'
        have hone : UInt32.ofNat frames.length = 1 := by grind
        have := congrArg UInt32.toNat hone
        rwa [UInt32.toNat_ofNat_of_lt' hlen] at this
      · intro h
        rw [h _ frames rfl hw]
        rfl

/-! ## A datagram -/

theorem unopened_imbalance {ingress : HubRelay.RadioIngress} {routed : RoutedMessage}
    (hvalid : ingress.header.type ≠ .invalid) (htype : routed.header.type = ingress.header.type)
    (s : State E) (data : Bytes) :
    (s.unopened ingress data routed).totals.imbalance droppedRx = s.totals.imbalance droppedRx - 1 ↔
      CountedUnopened s ingress routed := by
  have hauth : ∀ s' : State E, (s'.countUnauthenticated ingress.header).totals.imbalance droppedRx =
      s'.totals.imbalance droppedRx := by
    intro s'
    unfold State.countUnauthenticated
    split <;> rfl
  unfold CountedUnopened
  rw [State.unopened, hauth, State.relayUnopened]
  cases hproto : s.mux.isProtocolled with
  | false =>
    refine iff_of_false ?_ fun h => nomatch h.1
    rw [Bool.not_false, if_pos rfl]
    grind
  | true =>
    rw [if_neg (by decide), eq_self, true_and]
    cases hf : ingress.header.flags.fragmented with
    | false =>
      have hup : (s.relayUp ingress.header data).totals.imbalance droppedRx = _ :=
        imbalance_countRouted s ingress.header.type
      rw [if_neg (by decide), hup, if_neg hvalid]
      exact iff_of_true rfl nofun
    | true =>
      have h := relayPendingUp_imbalance (htype ▸ hvalid) s rfl droppedRx
      rw [if_pos rfl, forall_prop_of_true rfl, ← h]
      generalize s.relayPendingUp routed.header = out
      obtain ⟨s', complete⟩ := out
      cases complete <;> rfl

theorem opened_imbalance (s : State E) (d : Datagram) (routed : RoutedMessage) (plaintext : Bytes) :
    (s.opened d routed plaintext).totals.imbalance droppedRx = s.totals.imbalance droppedRx - 1 ↔
      Channels.dongleConsumes routed.header.type routed.header.objectId
        (State.referenceSourceId routed.header plaintext) E.serial.sourceId = true := by
  have hknown := remember_quiet (s.note (.opened routed plaintext)) d routed.header
  replace hknown : ((s.note (.opened routed plaintext)).remember d routed.header).totals =
    s.totals := hknown.totals
  unfold State.opened
  generalize (s.note (.opened routed plaintext)).remember d routed.header = s₁ at hknown ⊢
  dsimp only
  split
  · rename_i hnames
    refine iff_of_true ?_ hnames
    have hmay := Channels.mayConsume_of_consumes hnames
    have hcleared : (s₁.clearPending routed.header).totals = s.totals := hknown
    rw [← hcleared, deliver_imbalance]
    refine ⟨?_, fun queue hq => ?_⟩ <;>
      obtain htype | htype := Channels.type_of_mayConsume hmay <;> dsimp only at *
    · simp [htype]
    · simp [htype]
    · simp [htype, State.queueForType] at hq
    · simp [htype, State.queueForType] at hq
  · rename_i hnames
    refine iff_of_false ?_ hnames
    have hcleared : ((s₁.noteConsumeRejected routed.header).clearPending routed.header).totals =
      s.totals := (noteConsumeRejected_quiet s₁ routed.header).totals.trans hknown
    rw [hcleared]
    grind

theorem onOutcome_imbalance {ingress : HubRelay.RadioIngress} {outcome : Outcome} (d : Datagram)
    (hvalid : ingress.mayConsume = true → ingress.header.type ≠ .invalid)
    (htype : ∀ routed, outcome = .routed routed → routed.header.type = ingress.header.type)
    (s : State E) :
    (s.onOutcome d ingress outcome).totals.imbalance droppedRx =
        s.totals.imbalance droppedRx - 1 ↔
      CountedOutcome s ingress outcome := by
  have hsilent : ¬ s.totals.imbalance droppedRx = s.totals.imbalance droppedRx - 1 := by grind
  cases outcome with
  | droppedDecode => exact iff_of_true (imbalance_dropDecode s) trivial
  | droppedCrc => exact iff_of_true (imbalance_dropCrc s) trivial
  | droppedReassembly =>
    refine iff_of_true ?_ trivial
    rw [State.onOutcome, imbalance_dropReassembly]
    split <;> rfl
  | fragmentAccepted => exact iff_of_true (imbalance_countFragment s) trivial
  | droppedInvalidArgument => exact iff_of_false hsilent id
  | duplicateFragment => exact iff_of_false hsilent id
  | routed routed =>
    unfold State.onOutcome CountedOutcome
    dsimp only
    cases hmay : ingress.mayConsume with
    | false =>
      rw [if_neg (by decide), if_neg (by decide)]
      exact deliver_imbalance s d.mac routed
    | true =>
      rw [if_pos rfl, if_pos rfl]
      cases s.tryOpen routed with
      | none => exact unopened_imbalance (hvalid hmay) (htype routed rfl) s d.data
      | some plaintext => exact opened_imbalance s d routed plaintext

theorem retain_totals (s : State E) (d : Datagram) (ingress : HubRelay.RadioIngress) :
    (s.retain d ingress).1.totals = s.totals := by
  rw [s.retain_frame]

/-- A datagram keeps the balance just when it ends in one of the ways that count. -/
theorem processRxDatagram_imbalance (hR : Agreeing E.serial.codec E.receiver) (s : State E)
    (d : Datagram) :
    (s.processRxDatagram d).totals.imbalance droppedRx = s.totals.imbalance droppedRx ↔
      Counted s d := by
  have hone : s.countDatagram.totals.imbalance droppedRx = s.totals.imbalance droppedRx + 1 :=
    imbalance_countDatagram s
  have hback : s.totals.imbalance droppedRx = s.countDatagram.totals.imbalance droppedRx - 1 := by
    rw [hone]
    grind
  rw [hback]
  unfold State.processRxDatagram Counted
  dsimp only
  cases hclass : HubRelay.classifyRadio E.serial.codec d.data with
  | error e =>
    cases e with
    | crcMismatch => exact iff_of_true (imbalance_dropCrc _) trivial
    | other => exact iff_of_true (imbalance_dropDecode _) trivial
  | ok ingress =>
    obtain ⟨decoded, hd, hheader, hmay⟩ := classifyRadio_ok hclass
    have hproto : s.countDatagram.mux.isProtocolled = s.mux.isProtocolled := rfl
    dsimp only
    rw [hproto]
    split
    · -- the fast path
      have hup : (s.countDatagram.relayUp ingress.header d.data).totals.imbalance droppedRx = _ :=
        imbalance_countRouted s.countDatagram ingress.header.type
      rw [hup]
      split
      · rename_i htype
        refine iff_of_false ?_ fun h => h htype
        grind
      · rename_i htype
        exact iff_of_true rfl htype
    · have hvalid : ingress.mayConsume = true → ingress.header.type ≠ .invalid := by
        rw [hmay, hheader]
        intro h
        obtain htype | htype := Channels.type_of_mayConsume h <;> simp [htype]
      have hretain : s.countDatagram.retain d ingress = ((s.retain d ingress).1.countDatagram,
          (s.retain d ingress).2) := by
        unfold State.retain
        split <;> rfl
      obtain ⟨hrefused, e⟩ | ⟨hkept, e⟩ := reassemble_cases s.countDatagram d ingress
      · rw [e, imbalance_dropReassembly, retain_totals]
        rw [hretain] at hrefused
        refine iff_of_true rfl fun h => ?_
        rw [h] at hrefused
        cases hrefused
      · rw [hretain] at hkept e
        rw [e, forall_prop_of_true hkept]
        have htotals : (s.retain d ingress).1.countDatagram.totals = s.countDatagram.totals := by
          rw [State.countDatagram, State.countDatagram, retain_totals]
        have hsame : ∀ (router : E.receiver.Node) outcome,
            CountedOutcome { (s.retain d ingress).1.countDatagram with router } ingress outcome ↔
              CountedOutcome (s.retain d ingress).1 ingress outcome := by
          intro router outcome
          cases outcome <;> exact Iff.rfl
        have hrouted : ∀ routed,
            (submit E.receiver s.countDatagram.router d.mac d.data d.nowMs.toUInt64).2 =
              .routed routed → routed.header.type = ingress.header.type := by
          intro routed hr
          rw [hheader]
          exact (hR.submit_routed hd hr).2.1
        rw [← htotals]
        exact (onOutcome_imbalance d hvalid hrouted _).trans (hsame _ _)

end BallyDongle.EspNowConfig
