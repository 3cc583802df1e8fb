import BallyDongle.Lib.Run
import BallyDongle.EspNowConfig.RxCounters

/-!
# The receive queue

`onDataRecv` only queues a datagram; the `espnow_rx` worker takes it from the queue
and processes it. The counters are counted from `enableAsyncRx` on.
-/

namespace BallyDongle.EspNowConfig

open Btp BtpTransport ProtocolRouter

/-- `EspNowManager::MAX_DATA_LEN`. -/
def kMaxDataLen : Nat := 250

structure RxDatagramEvent where
  mac : Mac
  data : Bytes
  rssi : Int8
  size_le : data.length ≤ kMaxDataLen

/-- The globals around the receive queue, created by the first `enableAsyncRx` with
its `depth`. -/
structure Radio (E : Platform) (depth : Nat) where
  state : State E
  rxQueue : Option (BoundedQueue RxDatagramEvent depth) := none
  asyncRxEnabled : Bool := false
  droppedRx : UInt32 := 0
  syncFallbackDrop : UInt32 := 0

namespace Radio

variable {E : Platform} {depth : Nat}

/-- The radio driver's callback. -/
def onDataRecv (r : Radio E depth) (mac : Mac) (data : Bytes) (rssi : Int8) : Radio E depth :=
  if data = [] then r
  else
    match r.asyncRxEnabled, r.rxQueue with
    | true, some queue =>
      match queue.send ⟨mac, data.take kMaxDataLen, rssi, List.length_take_le _ _⟩ with
      | some queue => { r with rxQueue := some queue }
      | none => { r with droppedRx := r.droppedRx + 1 }
    | _, _ => { r with syncFallbackDrop := r.syncFallbackDrop + 1 }

/-- One turn of `espNowRxWorkerTask`, its clock reading `nowMs`. -/
def work (r : Radio E depth) (nowMs : UInt32) : Radio E depth :=
  match r.rxQueue.bind BoundedQueue.receive with
  | none => r
  | some (event, queue) =>
    { r with
      rxQueue := some queue
      state := r.state.processRxDatagram ⟨event.mac, event.data, event.rssi, nowMs⟩ }

/-- `rxCreated` and `restCreated` say whether the receive queue and the three routed
queues exist, or could be allocated now. -/
def enableAsyncRx (r : Radio E depth) (rxCreated restCreated : Bool) : Radio E depth :=
  if rxCreated && restCreated then
    { r with
      rxQueue := some .empty
      state := { r.state with queues := fun _ => .empty, totals := {} }
      droppedRx := 0
      asyncRxEnabled := true }
  else
    { r with
      rxQueue := if rxCreated then some (r.rxQueue.getD .empty) else none
      asyncRxEnabled := false }

def disableAsyncRx (r : Radio E depth) : Radio E depth :=
  { r with
    asyncRxEnabled := false
    rxQueue := r.rxQueue.map fun _ => .empty
    state := { r.state with queues := fun _ => .empty } }

/-- What happens around the queue. `elsewhere` is what other tasks do to the session,
the tables, the key and the routed queues. -/
inductive Event (E : Platform)
  | received (mac : Mac) (data : Bytes) (rssi : Int8)
  | worked (nowMs : UInt32)
  | enabled (rxCreated restCreated : Bool)
  | disabled
  | elsewhere (dongle : Dongle E.serial E.Manager)
      (queues : QueueId → BoundedQueue QueuedRoutedMessage kRoutedQueueDepth)

def step (r : Radio E depth) : Event E → Radio E depth
  | .received mac data rssi => r.onDataRecv mac data rssi
  | .worked nowMs => r.work nowMs
  | .enabled rxCreated restCreated => r.enableAsyncRx rxCreated restCreated
  | .disabled => r.disableAsyncRx
  | .elsewhere dongle queues => { r with state := { r.state with toDongle := dongle, queues } }

/-- The balance `RxCounters` documents. -/
def Balanced (r : Radio E depth) : Prop :=
  let t := r.state.totals
  t.rxDatagram - t.fragmentAccepted -
      (r.droppedRx + t.droppedDecode + t.droppedCrc + t.droppedReassembly + t.droppedQueueFull) =
    t.routedTelemetry + t.routedLog + t.routedCommand + t.routedControl + t.routedTerminal

instance (r : Radio E depth) : Decidable r.Balanced := inferInstanceAs (Decidable (_ = _))

/-- The steps that keep the balance: a datagram received finds room in the queue, and
one taken from it ends in a way that counts. -/
def Counts (r : Radio E depth) : Event E → Prop
  | .received _ data _ => data ≠ [] → r.asyncRxEnabled = true → ∀ queue, r.rxQueue = some queue →
      queue.items.length < depth
  | .worked nowMs => ∀ event queue, r.rxQueue.bind BoundedQueue.receive = some (event, queue) →
      Counted r.state ⟨event.mac, event.data, event.rssi, nowMs⟩
  | .enabled _ _ | .disabled | .elsewhere _ _ => True

variable {r : Radio E depth}

theorem balanced_iff : r.Balanced ↔ r.state.totals.imbalance r.droppedRx = 0 := by
  unfold Balanced RxTotals.imbalance
  dsimp only
  constructor <;> intro h <;> grind

/-- Counters at zero balance. -/
theorem balanced_zero (h : r.state.totals = {}) (hrx : r.droppedRx = 0) : r.Balanced := by
  unfold Balanced
  rw [h, hrx]
  decide

theorem balanced_drop (h : r.Balanced) : ¬ { r with droppedRx := r.droppedRx + 1 }.Balanced := by
  rw [balanced_iff] at h ⊢
  unfold RxTotals.imbalance at h ⊢
  grind

theorem onDataRecv_balanced (h : r.Balanced) (mac : Mac) (data : Bytes) (rssi : Int8) :
    (r.onDataRecv mac data rssi).Balanced ↔ r.Counts (.received mac data rssi) := by
  unfold onDataRecv Counts
  dsimp only
  split
  · rename_i hempty
    exact iff_of_true h fun hne => absurd hempty hne
  rename_i hne
  split
  · rename_i queue henabled hqueue
    rw [forall_prop_of_true (p := data ≠ []) hne, forall_prop_of_true henabled]
    split
    · rename_i hsend
      refine iff_of_true h fun queue' hq => ?_
      cases hqueue.symm.trans hq
      refine Nat.lt_of_le_of_ne queue.length_le fun hfull => ?_
      rw [BoundedQueue.send_eq_none.2 hfull] at hsend
      cases hsend
    · rename_i hsend
      refine iff_of_false (balanced_drop h) fun hroom => ?_
      have := BoundedQueue.send_eq_none.1 hsend
      have := hroom queue hqueue
      omega
  · rename_i hoff
    exact iff_of_true h fun _ henabled queue hq => (hoff queue henabled hq).elim

theorem work_balanced (hR : Agreeing E.serial.codec E.receiver) (h : r.Balanced)
    (nowMs : UInt32) : (r.work nowMs).Balanced ↔ r.Counts (.worked nowMs) := by
  unfold work Counts
  cases hrecv : r.rxQueue.bind BoundedQueue.receive with
  | none => exact iff_of_true h nofun
  | some out =>
    obtain ⟨event, queue⟩ := out
    rw [balanced_iff] at h ⊢
    have hsame := @processRxDatagram_imbalance E r.droppedRx hR r.state
      ⟨event.mac, event.data, event.rssi, nowMs⟩
    rw [h] at hsame
    refine hsame.trans ⟨fun hc event' queue' he => ?_, fun hc => hc event queue rfl⟩
    cases he
    exact hc

theorem enableAsyncRx_balanced (h : r.Balanced) (rxCreated restCreated : Bool) :
    (r.enableAsyncRx rxCreated restCreated).Balanced := by
  unfold enableAsyncRx
  split
  · exact balanced_zero rfl rfl
  · exact h

theorem step_balanced (hR : Agreeing E.serial.codec E.receiver) (r : Radio E depth)
    (event : Event E) (h : r.Balanced) : (r.step event).Balanced ↔ r.Counts event := by
  cases event with
  | received mac data rssi => exact onDataRecv_balanced h mac data rssi
  | worked nowMs => exact work_balanced hR h nowMs
  | enabled rxCreated restCreated =>
    exact iff_of_true (enableAsyncRx_balanced h rxCreated restCreated) trivial
  | disabled => exact iff_of_true h trivial
  | elsewhere dongle queues => exact iff_of_true h trivial

/-- Counted from an `enableAsyncRx` that succeeded, the counters balance throughout a
run just when every step of it is one that counts. -/
theorem run_balanced (hR : Agreeing E.serial.codec E.receiver) (r₀ : Radio E depth)
    (events : List (Event E)) :
    Run.Throughout step Balanced (r₀.enableAsyncRx true true) events ↔
      Run.AllSteps step Counts (r₀.enableAsyncRx true true) events := by
  have hstart : (r₀.enableAsyncRx true true).Balanced := balanced_zero rfl rfl
  exact Run.throughout_iff_allSteps (step_balanced hR) hstart

end Radio

/-! ## Runs on the bench -/

/-- The bench's message received and worked, fragment by fragment. -/
def benchWorked (count : Nat) : List (Radio.Event bench) :=
  (benchFragments count).flatMap fun data => [.received benchMac data 0, .worked 0]

def benchRadio (session : SerialSession.SessionState) : Radio bench 32 where
  state := benchState session

/-- A message of one fragment that goes up to the desktop. -/
theorem run_balanced_one :
    Run.Throughout Radio.step Radio.Balanced ((benchRadio .active).enableAsyncRx true true)
      (benchWorked 1) := by
  refine (Radio.run_balanced (benchReceiver_laws bench.serial.codec).agreeing _ _).2
    ⟨fun _ _ queue hq => ?_, fun event queue he => ?_, trivial⟩
  · cases hq
    decide
  · cases he
    refine fun _ => ⟨rfl, fun _ slot frames hs hw => ?_⟩
    cases hs
    cases hw
    rfl

/-- A message of two fragments is routed twice: one datagram more than were received. -/
theorem unbalanced_two :
    ¬ Run.Throughout Radio.step Radio.Balanced ((benchRadio .active).enableAsyncRx true true)
      (benchWorked 2) := by
  intro h
  exact absurd h.final (by decide)

end BallyDongle.EspNowConfig
