import BallyDongle.SerialMux.TopicsAgree
import BallyDongle.SerialMux.RelayDown
import BallyDongle.SerialMux.Replies

/-!
# The end of a session

A session ends by SESSION_CLOSE, a refused HELLO, a watchdog seen by `onFrame`
or by `pollTimeout`, or the loss of the cable. `Inv` ties what the state holds
for a client to the session: while the node is not active, and no timeout waits
to be reported, nothing is left (`Clean`).
-/

namespace BallyDongle.SerialMux.Mux

open Btp SerialSession SubscriptionRegistry DonglePublisher

variable {P : Platform} {m m' : Mux P}

/-- Nobody subscribes, and no topic of the dongle is published. -/
structure Released (t : Topics) : Prop where
  clients : ∀ r, ¬ Live (t.registry.rows r)
  topics : ∀ topicId, published t.publisher topicId = none

/-- Nothing of a session is left. -/
structure Clean (topics : Topics) (egress : Egress) (terminalOut : Bytes) : Prop where
  released : Released topics
  queues : egress.queues = .empty
  wire : egress.hasPendingWireFrame = false
  terminal : terminalOut = []

/-- The live clients are the session's own, and the publisher follows them. -/
structure Tied (session : Session P.node) (topics : Topics) : Prop where
  agrees : Agrees P.sourceId topics
  client : LiveAll (fun id _ => id = session.peerSourceId) topics.registry

/-- A session ended or not yet started holds nothing; a timeout that was seen and
not reported yet still owes the cleanup. -/
structure Inv (session : Session P.node) (topics : Topics) (egress : Egress)
    (terminalOut : Bytes) : Prop extends Tied session topics where
  latched : session.timeoutLatched = true → P.node.state session.node ≠ .awaitingHello
  idle : session.timeoutLatched = false → P.node.state session.node ≠ .active →
    Clean topics egress terminalOut

/-- The invariant of a state of the multiplexer. -/
abbrev Good (m : Mux P) : Prop := Inv m.session m.topics m.egress m.terminalOut

/-! ## What the cleanup leaves -/

theorem published_of_not_own {topicId : UInt16} (h : ¬ Own topicId) (g : Publisher) :
    published g topicId = none := by
  rw [Own, isSome_stateFor {} g, Bool.not_eq_true, Option.isSome_eq_false_iff,
    Option.isNone_iff_eq_none] at h
  rw [published, h]
  rfl

/-- Without live clients the publisher is silent. -/
theorem released_of_not_live {t : Topics} (h : Agrees P.sourceId t)
    (hdead : ∀ r, ¬ Live (t.registry.rows r)) : Released t := by
  refine ⟨hdead, fun topicId => ?_⟩
  by_cases hown : Own topicId
  · have hnone : assertedAt t.registry (P.sourceId, topicId.toUInt32) = none := by
      by_cases hrow : ∃ r, (t.registry.rows r).key = some (P.sourceId.1, topicId.toUInt32)
      · obtain ⟨r, hr⟩ := hrow
        have hoff : (t.registry.rows r).upstreamActive = false :=
          Bool.eq_false_iff.2 fun ha => hdead r ((h.coherent.reconciled r).active.1 ha)
        rw [h.coherent.assertedAt_row hr, asserted, hoff]
        rfl
      · exact assertedAt_absent fun r hr => hrow ⟨r, hr⟩
    rw [h.published topicId hown, hnone, Option.map_none]
  · exact published_of_not_own hown _

/-- Releasing the session's client releases everything. -/
theorem Tied.released (h : Tied m.session m.topics) (nowMs : UInt32) :
    Agrees P.sourceId (m.releaseClient nowMs).topics ∧
      Released (m.releaseClient nowMs).topics := by
  have ha := h.agrees.disconnect P.sourceId.2 m.session.peerSourceId nowMs
  refine ⟨ha, released_of_not_live ha ?_⟩
  rintro r ⟨i, hi⟩
  exact h.agrees.coherent.disconnected m.session.peerSourceId nowMs {} r i hi
    (h.client.overRows (disconnectRow_prunes m.session.peerSourceId nowMs) {} r i hi)

theorem Released.tied {t : Topics} (h : Released t) (ha : Agrees P.sourceId t)
    (session : Session P.node) : Tied session t :=
  ⟨ha, fun r i hi => absurd ⟨i, hi⟩ (h.clients r)⟩

/-- Whatever the session does next, a clean state is a good one. -/
theorem Clean.inv {t : Topics} {egress : Egress} {terminalOut : Bytes}
    (h : Clean t egress terminalOut) (ha : Agrees P.sourceId t) {session : Session P.node}
    (hs : session.timeoutLatched = true → P.node.state session.node ≠ .awaitingHello) :
    Inv session t egress terminalOut :=
  { h.released.tied ha session with latched := hs, idle := fun _ _ => h }

theorem resetQueues_clean {t : Topics} (h : Released t) (egress : Egress) :
    Clean t (resetQueues egress) [] := ⟨h, rfl, rfl, rfl⟩

/-- The cleanup of a session with its last frame and the console line. -/
theorem finalizeToConsole_clean (h : Tied m.session m.topics) (frame : Bytes) (line : List Char) :
    let m' := m.finalizeToConsole frame line
    m'.session = m.session ∧ Agrees P.sourceId m'.topics ∧
      Clean m'.topics m'.egress m'.terminalOut := by
  unfold finalizeToConsole
  dsimp only
  split
  · obtain ⟨ha, hr⟩ := h.released (m := m) m.millis
    exact ⟨rfl, ha, resetQueues_clean hr _⟩
  · rename_i hne
    generalize hw : writeFrameCobs P.codec P.write m.egress m.io frame = out
    obtain ⟨egress, io⟩ := out
    obtain ⟨ha, hr⟩ := Tied.released (m := setIo { m with egress } io) h
      (setIo { m with egress } io).millis
    exact ⟨rfl, ha, resetQueues_clean hr _⟩

/-- The watchdog's cleanup. -/
theorem expire_clean (h : Tied m.session m.topics) (nowMs : UInt32) (wasProtocolled : Bool) :
    let m' := m.expire nowMs wasProtocolled
    m'.session = m.session ∧ Agrees P.sourceId m'.topics ∧
      Clean m'.topics m'.egress m'.terminalOut := by
  obtain ⟨ha, hr⟩ := h.released (m := m) nowMs
  exact ⟨rfl, ha, resetQueues_clean hr _⟩

/-! ## While a session is served -/

/-- The session looks protocolled. -/
def Busy (session : Session P.node) : Prop :=
  session.timeoutLatched = true ∨ P.node.state session.node = .active

theorem isProtocolled_iff : m.isProtocolled = true ↔ Busy m.session := by
  unfold isProtocolled Session.isProtocolled Session.state Busy
  cases m.session.timeoutLatched <;> cases P.node.state m.session.node <;> simp

theorem isConsoleOwned_iff : m.isConsoleOwned = true ↔
    m.session.timeoutLatched = false ∧ P.node.state m.session.node = .idle := by
  unfold isConsoleOwned Session.isConsole Session.state
  cases m.session.timeoutLatched <;> cases P.node.state m.session.node <;> simp

/-- The same session as far as the cleanup is concerned. -/
structure Same (s s' : Session P.node) : Prop where
  latched : s'.timeoutLatched = s.timeoutLatched
  state : P.node.state s'.node = P.node.state s.node
  peer : s'.peerSourceId = s.peerSourceId

theorem Same.refl (s : Session P.node) : Same s s := ⟨rfl, rfl, rfl⟩

theorem Same.tied {s s' : Session P.node} (h : Same s s') {t : Topics} (ht : Tied s t) :
    Tied s' t := ⟨ht.agrees, h.peer ▸ ht.client⟩

/-- The session's name and standing are all the invariant reads of it. -/
theorem Inv.same {s s' : Session P.node} {t : Topics} {egress : Egress} {terminalOut : Bytes}
    (h : Inv s t egress terminalOut) (hs : Same s s') : Inv s' t egress terminalOut :=
  { hs.tied h.toTied with
    latched := by rw [hs.latched, hs.state]; exact h.latched
    idle := by rw [hs.latched, hs.state]; exact h.idle }

theorem Same.busy {s s' : Session P.node} (h : Same s s') (hb : Busy s) : Busy s' := by
  unfold Busy
  rwa [h.latched, h.state]

theorem Same.reserve (laws : NodeLaws P.node) (taken : Nat) (s : Session P.node) :
    Same s (Mux.reserve^[taken] s) := by
  induction taken generalizing s with
  | zero => exact .refl s
  | succ taken ih =>
    rw [Function.iterate_succ_apply]
    obtain ⟨hl, hs, hp⟩ := ih (Mux.reserve s)
    exact ⟨hl, hs.trans (laws.reserve_state _), hp.trans (laws.reserve_peer _)⟩

/-- A good state of a session that is being served; `latched` is its flag. -/
structure Serving (latched : Bool) (m : Mux P) : Prop where
  good : Good m
  busy : Busy m.session
  flag : m.session.timeoutLatched = latched

variable {latched : Bool}

/-- Serving goes on as long as the session is the same and its clients are its own. -/
theorem Serving.of (h : Serving latched m) (hs : Same m.session m'.session)
    (ht : Tied m.session m'.topics) : Serving latched m' := by
  have hb := hs.busy h.busy
  refine ⟨{ hs.tied ht with latched := ?_, idle := fun hl hn => ?_ }, hb, hs.latched.trans h.flag⟩
  · rw [hs.latched, hs.state]
    exact h.good.latched
  · rcases hb with hb | hb
    · rw [hl] at hb; cases hb
    · exact absurd hb hn

theorem Serving.keep (h : Serving latched m) (hs : m'.session = m.session)
    (ht : m'.topics = m.topics) : Serving latched m' := h.of (hs ▸ .refl _) (ht ▸ h.good.toTied)

theorem Serving.setTopics (h : Serving latched m) {topics : Topics} (ht : Tied m.session topics) :
    Serving latched { m with topics } := h.of (.refl _) ht

theorem Serving.queued (laws : NodeLaws P.node) (h : Serving latched m) (hq : Queued m m') :
    Serving latched m' := by
  obtain ⟨taken, hsession⟩ := hq.session
  exact h.of (hsession ▸ Same.reserve laws taken m.session) (by rw [hq.rest]; exact h.good.toTied)

theorem Serving.relayDown (h : Serving latched m) (decoded : DecodedFrame) :
    Serving latched (m.relayDown decoded).1 := by
  have hframe := (relayDown_relayed m decoded).frame
  exact h.keep (by rw [hframe]) (by rw [hframe])

/-! ## The handlers -/

theorem Serving.handleCommandRequest (laws : NodeLaws P.node) (h : Serving latched m)
    (decoded : DecodedFrame) : Serving latched (m.handleCommandRequest decoded) := by
  unfold Mux.handleCommandRequest
  split
  · exact h.relayDown decoded
  · exact h.queued laws (replyCommandResult_queued _ _ _ _ _ _ _)
  · split
    · exact h.queued laws (replyCommandResult_queued _ _ _ _ _ _ _)
    · split
      · exact h.queued laws (replyCommandResult_queued _ _ _ _ _ _ _)
      · rename_i commandText _ _ run _
        have hrun : Serving latched (m.runShell run commandText).1 := h.keep rfl rfl
        exact hrun.queued laws (replyCommandResult_queued _ _ _ _ _ _ _)

theorem Serving.handleTerminalIn (h : Serving latched m) (decoded : DecodedFrame) :
    Serving latched (m.handleTerminalIn decoded) := by
  unfold Mux.handleTerminalIn
  split
  · exact h
  · split
    · exact h.relayDown decoded
    · exact h.keep rfl rfl

theorem subscribe_client {session : Session P.node} {t : Topics} (h : Tied session t)
    (manifest : ManifestCache.Cache) (sub : Subscribe) (now : UInt32) :
    Tied session (t.subscribe P.sourceId manifest session.peerSourceId sub now).1 := by
  refine ⟨h.agrees.subscribe P.sourceId.2 manifest session.peerSourceId sub now, ?_⟩
  unfold Topics.subscribe
  dsimp only
  split
  · exact h.client
  · split <;> exact h.client.subscribe rfl _ _ _ now

theorem Serving.handleSubscribeRequest (laws : NodeLaws P.node) (h : Serving latched m)
    (decoded : DecodedFrame) : Serving latched (m.handleSubscribeRequest decoded) := by
  unfold Mux.handleSubscribeRequest
  split
  · exact h.relayDown decoded
  · split
    · rename_i sub _
      have htied := subscribe_client h.good.toTied m.shared.manifest sub m.millis
      exact (h.setTopics htied).queued laws (replySubscribe_queued _ _ _)
    · exact h.queued laws (replySubscribe_queued _ _ _)
    · exact h

theorem Serving.handleUnsubscribeRequest (laws : NodeLaws P.node) (h : Serving latched m)
    (decoded : DecodedFrame) : Serving latched (m.handleUnsubscribeRequest decoded) := by
  unfold Mux.handleUnsubscribeRequest
  split
  · exact h.relayDown decoded
  · split
    · exact h
    · rename_i subscriptionId _
      have htied : Tied m.session
          (m.topics.unsubscribe P.sourceId m.currentClientId subscriptionId m.millis) :=
        ⟨h.good.agrees.unsubscribe P.sourceId.2 m.currentClientId subscriptionId m.millis,
          h.good.client.unsubscribe m.currentClientId subscriptionId m.millis⟩
      exact (h.setTopics htied).queued laws (replyUnsubscribe_queued _ _)

theorem Serving.handleObject (laws : NodeLaws P.node) (h : Serving latched m)
    (decoded : DecodedFrame) (outcome : FrameOutcome) : Serving latched (m.handleObject decoded outcome) := by
  cases outcome with
  | commandRequest => exact h.handleCommandRequest laws decoded
  | terminalIn => exact h.handleTerminalIn decoded
  | manifestRequest => exact h.queued laws (handleManifestRequest_queued m decoded)
  | subscribeRequest => exact h.handleSubscribeRequest laws decoded
  | unsubscribeRequest => exact h.handleUnsubscribeRequest laws decoded
  | _ => exact h

theorem Serving.flush (laws : NodeLaws P.node) (h : Serving latched m) :
    Serving latched m.flushTerminalPtyOutput :=
  have hq := h.queued laws (enqueueTerminal_queued m m.terminalOut)
  hq.keep rfl rfl

theorem Serving.acceptHello (laws : NodeLaws P.node) (h : Serving latched m) (helloResult : Bytes)
    (nowMs : UInt32) : Serving latched (m.acceptHello helloResult nowMs) := by
  have hq := h.queued laws
    (enqueueFrame_queued m (classify .control kHelloResultObjectId) helloResult)
  unfold Mux.acceptHello
  exact Serving.flush laws (hq.keep rfl rfl)

/-! ## A frame -/

variable {session : Session P.node} {topics : Topics} {egress : Egress} {terminalOut : Bytes}

/-- No client of another session survives a frame: only one that answers a HELLO
moves the id, and then nothing was left. -/
theorem Inv.tied_received (laws : NodeLaws P.node) (h : Inv session topics egress terminalOut)
    (frame : DecodedFrame) (nowMs : UInt64) :
    Tied (session.onFrame frame nowMs).1 topics := by
  have hnode : (session.onFrame frame nowMs).1.node =
      (P.node.receive session.node frame nowMs).1 := by
    unfold Session.onFrame
    dsimp only
    split <;> rfl
  by_cases hawait : P.node.state session.node = .awaitingHello
  · have hlatch : session.timeoutLatched = false :=
      Bool.eq_false_iff.2 fun hl => h.latched hl hawait
    have hclean := h.idle hlatch (by rw [hawait]; decide)
    exact hclean.released.tied h.agrees _
  · have hpeer : (session.onFrame frame nowMs).1.peerSourceId = session.peerSourceId := by
      rw [Session.peerSourceId, hnode]
      exact laws.receive_peer _ _ _ hawait
    exact ⟨h.agrees, hpeer ▸ h.client⟩

/-- The session after a frame: it ended, or it still satisfies the invariant and
is busy when something is to be done. -/
structure Received (session : Session P.node) (topics : Topics) (egress : Egress)
    (terminalOut : Bytes) (outcome : FrameOutcome) : Prop where
  latched : session.timeoutLatched = true → P.node.state session.node ≠ .awaitingHello
  idle : outcome ≠ .helloRejected → outcome ≠ .sessionClosed →
    session.timeoutLatched = false → P.node.state session.node ≠ .active →
    Clean topics egress terminalOut
  busy : outcome = .ignored ∨ outcome = .helloRejected ∨ outcome = .sessionClosed ∨ Busy session

theorem Inv.received (laws : NodeLaws P.node) (h : Inv session topics egress terminalOut)
    (frame : DecodedFrame) (nowMs : UInt64) :
    Received (session.onFrame frame nowMs).1 topics egress terminalOut
      (session.onFrame frame nowMs).2.1 := by
  have hidle := laws.receive_idle session.node frame nowMs
  have hawait := laws.receive_awaiting session.node frame nowMs
  have htimed := laws.receive_timedOut session.node frame nowMs
  have haccepted := laws.receive_accepted session.node frame nowMs
  have hcomplete := laws.receive_complete session.node frame nowMs
  unfold Session.onFrame
  generalize P.node.receive session.node frame nowMs = out at *
  obtain ⟨node, rx, reply⟩ := out
  dsimp only at *
  -- a latched session was not awaiting, and awaits nothing now
  have hlatched : session.timeoutLatched = true → P.node.state node ≠ .awaitingHello :=
    fun hl ha => h.latched hl (hawait ha)
  split
  · have hstate := htimed rfl
    exact ⟨fun _ => by simp [hstate], fun _ _ hl => (nomatch hl), .inl rfl⟩
  · have hstate := haccepted rfl
    exact ⟨hlatched, fun _ _ _ hn => absurd hstate hn, .inr (.inr (.inr (.inr hstate)))⟩
  · exact ⟨hlatched, fun hne => absurd rfl hne, .inr (.inl rfl)⟩
  · exact ⟨hlatched, fun _ hne => absurd rfl hne, .inr (.inr (.inl rfl))⟩
  · have hstate := (hcomplete _ rfl).2
    exact ⟨hlatched, fun _ _ _ hn => absurd hstate hn, .inr (.inr (.inr (.inr hstate)))⟩
  · rename_i hnone haccept hrejected hclosed hcomp
    refine ⟨hlatched, fun _ _ hl hn => h.idle hl fun hactive => ?_, .inl rfl⟩
    -- an active session that is so no more is idle, and idleness has its own events
    have hstate : P.node.state node = .idle := by
      cases hs : P.node.state node with
      | idle => rfl
      | awaitingHello => rw [hawait hs] at hactive; cases hactive
      | active => exact absurd hs hn
    rcases hidle (by rw [hactive]; decide) hstate with e | e | e
    · exact hrejected e
    · exact hclosed e
    · exact hnone e

theorem dispatchFrame_good (laws : NodeLaws P.node) (h : Good m) (decoded : DecodedFrame)
    (nowMs : UInt32) : Good (m.dispatchFrame decoded nowMs) := by
  unfold dispatchFrame
  split
  · exact h
  · have htied := h.tied_received laws decoded nowMs.toUInt64
    have hrec := h.received laws decoded nowMs.toUInt64
    generalize m.session.onFrame decoded nowMs.toUInt64 = out at *
    obtain ⟨session, outcome, pendingFrame⟩ := out
    dsimp only at *
    have hgood : outcome ≠ .helloRejected → outcome ≠ .sessionClosed →
        Good { m with session } :=
      fun hr hc => { htied with latched := hrec.latched, idle := hrec.idle hr hc }
    have hended : Good (finalizeToConsole { m with session } pendingFrame consoleLine) := by
      obtain ⟨hs, ha, hclean⟩ :=
        finalizeToConsole_clean (m := { m with session }) htied pendingFrame consoleLine
      exact hclean.inv ha (by rw [hs]; exact hrec.latched)
    have hserving : outcome ≠ .ignored → outcome ≠ .helloRejected → outcome ≠ .sessionClosed →
        Serving session.timeoutLatched { m with session } := by
      intro hi hr hc
      refine ⟨hgood hr hc, ?_, rfl⟩
      rcases hrec.busy with e | e | e | e
      exacts [absurd e hi, absurd e hr, absurd e hc, e]
    cases outcome with
    | ignored => exact hgood (by decide) (by decide)
    | helloRejected => exact hended
    | sessionClosed => exact hended
    | helloAccepted =>
      exact ((hserving (by decide) (by decide) (by decide)).acceptHello laws _ _).good
    | commandRequest | terminalIn | manifestRequest | subscribeRequest | unsubscribeRequest =>
      exact ((hserving (by decide) (by decide) (by decide)).handleObject laws decoded _).good

end BallyDongle.SerialMux.Mux
