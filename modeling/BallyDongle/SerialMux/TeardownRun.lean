import BallyDongle.SerialMux.Teardown

/-!
# Nothing is left behind

Between two calls the state is `Settled`: the invariant holds and no timeout
waits to be reported. Each entry point keeps it.
-/

namespace BallyDongle.SerialMux.Mux

open Btp SerialSession SubscriptionRegistry DonglePublisher

variable {P : Platform} {m m' : Mux P} {latched : Bool}

/-! ## Periodic work -/

theorem Serving.answerLine (h : Serving latched m) (line : Bytes) :
    Serving latched (m.answerLine line) := by
  unfold Mux.answerLine
  cases P.runShellLine <;> exact h.keep rfl rfl

theorem Serving.pollLines (h : Serving latched m) : Serving latched m.pollLines := by
  fun_induction Mux.pollLines m with
  | case1 m ed echo => exact h.keep rfl rfl
  | case2 m ed echo line _ ih =>
    have hfed : Serving latched
        { m with terminalShell := ed, terminalOut := m.terminalOut ++ echo } := h.keep rfl rfl
    exact ih (hfed.answerLine line)

theorem Serving.heartbeat (laws : NodeLaws P.node) (h : Serving latched m) (nowMs : UInt32) :
    Serving latched (m.maybeSendStatusHeartbeat nowMs) := by
  unfold Mux.maybeSendStatusHeartbeat
  split
  · exact h
  · dsimp only
    split
    · exact h.keep rfl rfl
    · rename_i payload _
      have hstamp : Serving latched { m with lastStatusMs := nowMs } := h.keep rfl rfl
      exact hstamp.queued laws (enqueueOwn_queued _ _ _ payload _)

theorem Serving.sweepLeases (h : Serving latched m) (nowMs : UInt32) :
    Serving latched (m.sweepLeases nowMs) :=
  h.setTopics ⟨h.good.agrees.sweep P.sourceId.2 nowMs,
    h.good.client.overRows (sweepRow_prunes nowMs) {}⟩

theorem Tied.recordSample {session : Session P.node} {t : Topics} (h : Tied session t)
    (queued : Bool) (sourceId : UInt32) (objectId : UInt16) (payloadSize : Nat) :
    Tied session (t.recordSample queued sourceId objectId payloadSize) := by
  refine ⟨h.agrees.recordSample P.sourceId.2 queued sourceId objectId payloadSize, ?_⟩
  unfold Topics.recordSample
  dsimp only
  split <;> exact LiveAll.onRow h.client _ _ fun _ => rfl

theorem Serving.recordSample (h : Serving latched m) (queued : Bool) (sourceId : UInt32)
    (objectId : UInt16) (payloadSize : Nat) :
    Serving latched (m.recordSample queued sourceId objectId payloadSize) :=
  h.setTopics (h.good.recordSample queued sourceId objectId payloadSize)

theorem Serving.publish (laws : NodeLaws P.node) (h : Serving latched m)
    (sample : UInt16 × Bytes) : Serving latched (m.publish sample) :=
  (h.queued laws (enqueueOwn_queued m .telemetry sample.1 sample.2 0)).recordSample _ _ _ _

theorem Serving.publishOwnTopics (laws : NodeLaws P.node) (h : Serving latched m)
    (nowMs : UInt32) : Serving latched (m.publishOwnTopics nowMs) := by
  have hfold : ∀ (samples : List (UInt16 × Bytes)) (m : Mux P), Serving latched m →
      Serving latched (samples.foldl Mux.publish m) := by
    intro samples
    induction samples with
    | nil => exact fun m h => h
    | cons sample samples ih => exact fun m h => ih _ (h.publish laws sample)
  exact hfold _ _ (h.setTopics ⟨h.good.agrees.tick nowMs m.snapshot, h.good.client⟩)

theorem Serving.drain (h : Serving latched m) : Serving latched m.drain := h.keep rfl rfl

/-- The whole tick of a session. -/
theorem Serving.serve (laws : NodeLaws P.node) (h : Serving latched m) (nowMs : UInt32) :
    Serving latched (m.serve nowMs) := by
  have hshell : Serving latched m.pumpTerminalShell := h.pollLines.flush laws
  exact (((hshell.heartbeat laws nowMs).sweepLeases nowMs).publishOwnTopics laws nowMs).drain

/-! ## Reception -/

theorem onDecodeEvent_good (laws : NodeLaws P.node) (h : Good m) (nowMs : UInt32)
    (event : SerialDecodeEvent) : Good (m.onDecodeEvent nowMs event) := by
  cases event with
  | frame decoded =>
    have hcounted : Good { m with rx := { m.rx with framesRx := m.rx.framesRx + 1 } } := h
    exact dispatchFrame_good laws hcounted decoded nowMs
  | none | invalidConfiguration => exact h
  | crcMismatch | frameError | cobsError | overflow => exact h

theorem pumpRxLoop_good (laws : NodeLaws P.node) (nowMs : UInt32) (budget : Nat) (h : Good m) :
    Good (pumpRxLoop nowMs budget m) := by
  induction budget generalizing m with
  | zero => exact h
  | succ budget ih =>
    unfold pumpRxLoop
    split
    · exact h
    · dsimp only
      split
      · exact h
      · rename_i world value _ _
        have hpushed : Good { m with
            decoder := (P.decoderPush m.decoder value).1
            shared := { m.shared with world } } := h
        have hdecoded := onDecodeEvent_good laws hpushed nowMs (P.decoderPush m.decoder value).2
        split
        · exact hdecoded
        · exact ih hdecoded

/-! ## Entry points -/

/-- Between two calls. -/
structure Settled (m : Mux P) : Prop where
  good : Good m
  reported : m.session.timeoutLatched = false

theorem Settled.clean (h : Settled m) (hn : P.node.state m.session.node ≠ .active) :
    Clean m.topics m.egress m.terminalOut := h.good.idle h.reported hn

theorem Serving.settled (h : Serving false m) : Settled m := ⟨h.good, h.flag⟩

theorem Settled.serving (h : Settled m) (hp : m.isProtocolled = true) : Serving false m :=
  ⟨h.good, isProtocolled_iff.1 hp, h.reported⟩

/-- A clean state is settled whatever its session does next. -/
theorem Clean.settled (h : Clean m.topics m.egress m.terminalOut)
    (ha : Agrees P.sourceId m.topics) (hl : m.session.timeoutLatched = false) : Settled m :=
  ⟨h.inv ha fun e => absurd (hl.symm.trans e) (by decide), hl⟩

/-- After the poll no timeout waits; unless it reported one, the invariant holds. -/
theorem Inv.pollTimeout (laws : NodeLaws P.node) {session : Session P.node} {topics : Topics}
    {egress : Egress} {terminalOut : Bytes} (h : Inv session topics egress terminalOut)
    (nowMs : UInt64) :
    let (session', timedOut) := session.pollTimeout nowMs
    Tied session' topics ∧ session'.timeoutLatched = false ∧
      (timedOut = false → Inv session' topics egress terminalOut) := by
  obtain ⟨node, flag⟩ := session
  cases flag with
  | true => exact ⟨⟨h.agrees, h.client⟩, rfl, fun e => nomatch e⟩
  | false =>
    have hpoll : ({ node } : Session P.node).pollTimeout nowMs =
        (⟨(P.node.tick node nowMs).1, false⟩, decide ((P.node.tick node nowMs).2 = .timedOut)) := rfl
    rw [hpoll]
    have htied : Tied { node := (P.node.tick node nowMs).1 } topics :=
      ⟨h.agrees, fun r i hi => (h.client r i hi).trans (laws.tick_peer node nowMs).symm⟩
    refine ⟨htied, rfl, fun hevent => { htied with latched := nofun, idle := fun _ hn => ?_ }⟩
    have hevent : (P.node.tick node nowMs).2 ≠ .timedOut := of_decide_eq_false hevent
    refine h.idle rfl fun hactive => ?_
    -- only a timeout takes an active session away
    have hactive : P.node.state node = .active := hactive
    cases hs : P.node.state (P.node.tick node nowMs).1 with
    | idle => exact hevent (laws.tick_idle node nowMs (by rw [hactive]; decide) hs)
    | awaitingHello => rw [laws.tick_awaiting node nowMs hs] at hactive; cases hactive
    | active => exact hn hs

theorem Settled.tick (laws : NodeLaws P.node) (h : Settled m) (nowMs : UInt32) :
    Settled (m.tick nowMs) := by
  unfold Mux.tick
  split
  · exact h
  · dsimp only
    have hrevised : Good { m with session :=
        m.session.setLocalConfigRevision (m.shared.manifest.catalogRevision) } := by
      have hsame : Same m.session
          (m.session.setLocalConfigRevision (m.shared.manifest.catalogRevision)) :=
        ⟨rfl, laws.setLocal_state _ _, laws.setLocal_peer _ _⟩
      exact (h.good.same hsame)
    have hpumped := pumpRxLoop_good laws nowMs kMaxBytesPerTick hrevised
    rw [← pumpRx] at hpumped
    generalize pumpRx _ nowMs = m at hpumped ⊢
    split
    · rename_i hconsole
      exact ⟨hpumped, (isConsoleOwned_iff.1 hconsole).1⟩
    · have hpoll := hpumped.pollTimeout laws nowMs.toUInt64
      generalize m.session.pollTimeout nowMs.toUInt64 = out at hpoll ⊢
      obtain ⟨session, timedOut⟩ := out
      obtain ⟨htied, hreported, hinv⟩ := hpoll
      cases timedOut with
      | true =>
        obtain ⟨hs, ha, hclean⟩ :=
          expire_clean (m := { m with session }) htied nowMs m.isProtocolled
        exact hclean.settled ha (by rw [hs]; exact hreported)
      | false =>
        have hsettled : Settled { m with session } := ⟨hinv rfl, hreported⟩
        dsimp only
        split
        · rename_i hprot
          exact ((hsettled.serving hprot).serve laws nowMs).settled
        · exact hsettled

theorem Settled.console (h : Settled m) (hc : m.isConsoleOwned = true) :
    Clean m.topics m.egress m.terminalOut :=
  h.clean (by rw [(isConsoleOwned_iff.1 hc).2]; decide)

theorem Settled.beginNegotiation (h : Settled m) (hc : m.isConsoleOwned = true)
    (readyLine : List Char) (nowMs : UInt32) : Settled (m.beginNegotiation readyLine nowMs) :=
  Clean.settled (m := m.beginNegotiation readyLine nowMs) (h.console hc) h.good.agrees rfl

theorem Settled.tryEnter (h : Settled m) (line : List Char) (nowMs : UInt32) :
    Settled (m.tryEnterFromConsoleLine line nowMs).1 := by
  unfold Mux.tryEnterFromConsoleLine
  cases hc : m.isConsoleOwned with
  | false => exact h
  | true =>
    simp only [Bool.not_true, Bool.false_eq_true, if_false]
    split
    · exact h
    · exact h.beginNegotiation hc _ nowMs

theorem Settled.enterFromCommand (h : Settled m) (nowMs : UInt32) :
    Settled (m.enterFromCommand nowMs).1 := by
  unfold Mux.enterFromCommand
  cases hc : m.isConsoleOwned with
  | false => exact h
  | true =>
    have hdrawn : Settled { m with shared :=
        { m.shared with world := (P.random64 m.shared.world).1 } } := ⟨h.good, h.reported⟩
    exact hdrawn.beginNegotiation hc _ nowMs

theorem Settled.transportLost (laws : NodeLaws P.node) (h : Settled m) (nowMs : UInt32) :
    Settled (m.onTransportLost nowMs) := by
  have hreset : m.session.onTransportLost =
      (⟨(P.node.reset m.session.node).1, false⟩,
        decide ((P.node.reset m.session.node).2 = .abandoned)) := rfl
  unfold Mux.onTransportLost
  rw [hreset]
  cases hlost : decide ((P.node.reset m.session.node).2 = .abandoned) with
  | false =>
    -- the session was idle already
    have hidle : P.node.state m.session.node = .idle := by
      by_contra hne
      exact of_decide_eq_false hlost ((laws.reset_abandoned _).2 hne)
    exact Clean.settled (m := { m with session := ⟨(P.node.reset m.session.node).1, false⟩ })
      (h.clean (by rw [hidle]; decide)) h.good.agrees rfl
  | true =>
    have htied : Tied ⟨(P.node.reset m.session.node).1, false⟩ m.topics :=
      ⟨h.good.agrees, fun r i hi => (h.good.client r i hi).trans (laws.reset_peer _).symm⟩
    obtain ⟨ha, hr⟩ := Tied.released
      (m := { m with session := ⟨(P.node.reset m.session.node).1, false⟩ }) htied nowMs
    exact Clean.settled (resetQueues_clean hr _) ha rfl

theorem Settled.countTelemetryDropped (h : Settled m) (header : Header) :
    Settled (m.countTelemetryDropped header) := by
  unfold Mux.countTelemetryDropped
  split
  · exact ⟨h.good, h.reported⟩
  · exact h

theorem Serving.refuseUnwanted (h : Serving latched m) (header : Header) :
    Serving latched (m.refuseUnwanted header) := by
  have hcounted : Serving latched (m.countTelemetryDropped header) := by
    unfold Mux.countTelemetryDropped
    split
    · exact h.keep rfl rfl
    · exact h
  exact hcounted.recordSample _ _ _ _

theorem Serving.forward (laws : NodeLaws P.node) (h : Serving latched m) (header : Header)
    (frame : Bytes) (payloadSize : Nat) :
    Serving latched (m.forward header frame payloadSize).1 := by
  have hq := h.queued laws (enqueueFrame_queued m (classify header.type header.objectId) frame)
  unfold Mux.forward
  dsimp only
  split
  · exact hq.recordSample _ _ _ _
  · exact hq

theorem Settled.forwardRelay (laws : NodeLaws P.node) (h : Settled m) (header : Header)
    (payload : Bytes) : Settled (m.forwardRelay header payload).1 := by
  unfold Mux.forwardRelay
  cases hp : m.isProtocolled with
  | false => exact h.countTelemetryDropped header
  | true =>
    have hserving := h.serving hp
    simp only [Bool.not_true, Bool.false_eq_true, if_false]
    split
    · exact (hserving.refuseUnwanted header).settled
    split
    · exact h
    split
    · exact h
    · exact (hserving.forward laws header _ _).settled

theorem Settled.relayUp (laws : NodeLaws P.node) (h : Settled m) (header : Header)
    (frame : Bytes) : Settled (m.relayUp header frame).1 := by
  unfold Mux.relayUp
  cases hp : m.isProtocolled with
  | false => exact h.countTelemetryDropped header
  | true =>
    have hserving := h.serving hp
    simp only [Bool.not_true, Bool.false_eq_true, if_false]
    split
    · exact h
    split
    · exact (hserving.refuseUnwanted header).settled
    · exact (hserving.forward laws header frame _).settled

theorem Settled.writeTerminalResponse (laws : NodeLaws P.node) (h : Settled m) (text : Bytes) :
    Settled (m.writeTerminalResponse text) := by
  unfold Mux.writeTerminalResponse
  split
  · exact h
  · rename_i hgo
    have hp : m.isProtocolled = true := by
      by_contra hno
      exact hgo (.inl (by rw [Bool.not_eq_true] at hno; rw [hno]; rfl))
    exact ((h.serving hp).queued laws (enqueueTerminal_queued m _)).settled

/-! ## Runs -/

/-- A call into the multiplexer. `elsewhere` is what other code does meanwhile to
the tables they share and to the editor's history. -/
inductive Call (P : Platform)
  | consoleLine (line : List Char) (nowMs : UInt32)
  | enterFromCommand (nowMs : UInt32)
  | tick (nowMs : UInt32)
  | transportLost (nowMs : UInt32)
  | forwardRelay (header : Header) (payload : Bytes)
  | relayUp (header : Header) (frame : Bytes)
  | writeTerminalResponse (text : Bytes)
  | elsewhere (shared : Shared P.World) (terminalShell : P.editor.Editor)

def step (m : Mux P) : Call P → Mux P
  | .consoleLine line nowMs => (m.tryEnterFromConsoleLine line nowMs).1
  | .enterFromCommand nowMs => (m.enterFromCommand nowMs).1
  | .tick nowMs => m.tick nowMs
  | .transportLost nowMs => m.onTransportLost nowMs
  | .forwardRelay header payload => (m.forwardRelay header payload).1
  | .relayUp header frame => (m.relayUp header frame).1
  | .writeTerminalResponse text => m.writeTerminalResponse text
  | .elsewhere shared terminalShell => { m with shared, terminalShell }

def run (m : Mux P) (calls : List (Call P)) : Mux P := calls.foldl step m

theorem Settled.step (laws : NodeLaws P.node) (h : Settled m) (call : Call P) :
    Settled (m.step call) := by
  cases call with
  | consoleLine line nowMs => exact h.tryEnter line nowMs
  | enterFromCommand nowMs => exact h.enterFromCommand nowMs
  | tick nowMs => exact h.tick laws nowMs
  | transportLost nowMs => exact h.transportLost laws nowMs
  | forwardRelay header payload => exact h.forwardRelay laws header payload
  | relayUp header frame => exact h.relayUp laws header frame
  | writeTerminalResponse text => exact h.writeTerminalResponse laws text
  | elsewhere shared terminalShell => exact ⟨h.good, h.reported⟩

theorem Settled.run (laws : NodeLaws P.node) (h : Settled m) (calls : List (Call P)) :
    Settled (m.run calls) := by
  induction calls generalizing m with
  | nil => exact h
  | cons call calls ih => exact ih (h.step laws call)

/-- The state `begin` leaves: nothing queued, nobody subscribed. -/
def boot (node : P.node.Node) (decoder : P.Decoder) (terminalShell : P.editor.Editor)
    (shared : Shared P.World) : Mux P :=
  { session := { node }, decoder, terminalShell, shared }

theorem boot_settled (node : P.node.Node) (decoder : P.Decoder)
    (terminalShell : P.editor.Editor) (shared : Shared P.World) :
    Settled (boot node decoder terminalShell shared) := by
  have hagrees := init_agrees P.sourceId.1
  have hreleased := released_of_not_live hagrees fun r ⟨i, hi⟩ => nomatch hi
  exact Clean.settled (m := boot node decoder terminalShell shared) ⟨hreleased, rfl, rfl, rfl⟩
    hagrees rfl

/-- While the console owns the port, after any calls, nothing of a session is left. -/
theorem run_console (laws : NodeLaws P.node) (node : P.node.Node) (decoder : P.Decoder)
    (terminalShell : P.editor.Editor) (shared : Shared P.World) (calls : List (Call P))
    (hc : ((boot node decoder terminalShell shared).run calls).isConsoleOwned = true) :
    let m := (boot node decoder terminalShell shared).run calls
    (∀ r i, ((m.topics.registry.rows r).clients i).used = false) ∧
      hasSubscribers m.topics.publisher = false ∧ (∀ cls, (m.egress.queues cls).items = []) ∧
      m.egress.hasPendingWireFrame = false ∧ m.terminalOut = [] := by
  have h := ((boot_settled node decoder terminalShell shared).run laws calls).console hc
  refine ⟨fun r i => Bool.eq_false_iff.2 fun hu => h.released.clients r ⟨i, hu⟩,
    hasSubscribers_of_published h.released.topics, fun cls => ?_, h.wire, h.terminal⟩
  rw [h.queues]
  rfl

/-- The desktop's octets each stand for a control object with that id, and it reads
nothing; what it subscribes to is `hub.link`. -/
def desktopBench : Platform :=
  { bench with
    messages :=
      { benchMessages with decodeSubscribe _ := .ok ⟨7, kLinkTopicId.toUInt32, 1000, 5000⟩ }
    World := List UInt8
    millis _ := 0
    random64 octets := (octets, 0)
    write octets _ := (octets, 0)
    read octets := (octets.tail, octets.head?)
    printTagged octets _ _ := octets
    decoderPush _ octet :=
      ((), .frame
        { header :=
            { type := .control, sourceId := 9, bootId := 1, sequence := 1
              objectId := octet.toUInt16 }
          payload := [] })
    runShellLine := none
    relayToRadio := none
    linkCounters _ := ⟨0, 0, 0, 0, 0, 0, 0, 0, 0, 0, 0, 0⟩
    peerRecords _ _ := [] }

/-- A HELLO and a SUBSCRIBE; the second tick leaves the reply on the wire. -/
def subscribedSession : List (Call desktopBench) :=
  [.enterFromCommand 0, .elsewhere { world := [1, 5] } (), .tick 100, .tick 110]

/-- A subscribed session with frames still to be sent is closed. -/
theorem run_console_closed :
    let start := boot (P := desktopBench) ({} : BenchNode) () () { world := [] }
    let m := start.run (subscribedSession ++ [.elsewhere { world := [10] } (), .tick 200])
    ((∃ r i, (((start.run subscribedSession).topics.registry.rows r).clients i).used = true) ∧
      hasSubscribers (start.run subscribedSession).topics.publisher = true ∧
      ((start.run subscribedSession).egress.queues .telemetry).items ≠ [] ∧
      (start.run subscribedSession).egress.hasPendingWireFrame = true) ∧
    (∀ r i, ((m.topics.registry.rows r).clients i).used = false) ∧
      hasSubscribers m.topics.publisher = false ∧ (∀ cls, (m.egress.queues cls).items = []) ∧
      m.egress.hasPendingWireFrame = false ∧ m.terminalOut = [] :=
  ⟨by decide +kernel,
    run_console (P := desktopBench) benchNode_laws ({} : BenchNode) () () { world := [] }
      (subscribedSession ++ [.elsewhere { world := [10] } (), .tick 200]) (by decide +kernel)⟩

end BallyDongle.SerialMux.Mux
