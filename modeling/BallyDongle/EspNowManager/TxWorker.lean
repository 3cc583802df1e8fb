import BallyDongle.Lib.BoundedQueue
import BallyDongle.Lib.WrapClock
import BallyDongle.RadioTxScheduler
import BallyDongle.Btp
import BallyDongle.BtpTransport.PeerTable
import Mathlib.Logic.Function.Basic

/-!
# The radio's transmit worker

Any number of tasks call `sendToMac` and `sendToMacWithStatus`; one worker takes
their requests from three queues and hands them to the driver, whose callback comes
back through a queue of its own. A call that wants its status acquires one of four
completion slots and waits on the slot's semaphore.

An `Action` is one atomic step of one party: a queue operation, a critical section,
a semaphore operation, one reading of the clock, or the driver's. The tick is a
millisecond, so waits and `millis()` run on one clock; a reading of it wraps.
-/

namespace BallyDongle.EspNowManager.TxWorker

open Btp BtpTransport WrapClock RadioTxScheduler

def kTxQueueDepth : Priority → Nat
  | .critical => 6
  | .control => 4
  | .data => 12

def kDriverStatusDepth : Nat := 4
abbrev kCompletionSlotCount : Nat := 4
def kAsyncCallbackTimeoutMs : UInt32 := 60
def kLateCallbackGraceMs : UInt32 := 100
def MAX_DATA_LEN : Nat := 250

/-- A wait of so many ticks has no end. -/
def portMAX_DELAY : UInt32 := 0xFFFFFFFF

/-- `none` is `kNoCompletionSlot`. The last two fields are for the record: the call
that made the request, and the instant `enqueuedMs` is the reading of. -/
structure TxRequest where
  mac : Mac := Vector.replicate 6 0
  data : Bytes := []
  completion : Option (Fin kCompletionSlotCount × UInt32) := none
  enqueuedMs : UInt32 := 0
  timeoutMs : UInt32 := 0
  sender : Option Nat := none
  enqueuedAt : Nat := 0
  deriving DecidableEq

/-- `sender` is for the record; the driver does not say which frame it reports. -/
structure DriverStatus where
  mac : Mac
  success : Bool
  sender : Option Nat
  deriving DecidableEq

/-- `signal` is the binary semaphore. -/
structure CompletionSlot where
  signal : Bool := false
  inUse : Bool := false
  generation : UInt32 := 0
  callbackReceived : Bool := false
  delivered : Bool := false
  deriving DecidableEq

/-! ## The parties -/

/-- What a call of `sendToMacWithStatus` does next. -/
inductive CallPhase
  | idle | acquiring | draining | building | enqueuing | awaiting | blocked | reading | releasing
  | returned
  deriving DecidableEq

/-- The arguments and local variables of a call; the last five fields are for the
record. -/
structure Call where
  phase : CallPhase := .idle
  mac : Mac := Vector.replicate 6 0
  data : Bytes := []
  timeoutMs : UInt32 := 0
  priority : Priority := .control
  slot : Fin kCompletionSlotCount := 0
  generation : UInt32 := 0
  enqueuedAt : Nat := 0
  expiresAt : Nat := 0
  callbackReceived : Bool := false
  outDelivered : Bool := false
  invalid : Bool := false
  noSlot : Bool := false
  queueFull : Bool := false
  acquired : Nat := 0
  released : Nat := 0
  deriving DecidableEq

/-- The request a call makes. -/
def Call.request (c : Call) (i : Nat) : TxRequest where
  mac := c.mac
  data := c.data
  completion := some (c.slot, c.generation)
  enqueuedMs := reading c.enqueuedAt
  timeoutMs := c.timeoutMs
  sender := some i
  enqueuedAt := c.enqueuedAt

/-- What the worker does next. -/
inductive WorkPhase
  | idle | checking | timing | clearing | sending | starting | polling | measuring | receiving
  | completing | giving | graceStarting | gracePolling | graceMeasuring | graceReceiving | closing
  deriving DecidableEq

/-- The worker's local variables. `wakesAt` is when the wait it is in ends, if it does;
`grace` says that a wait for a late callback follows `completeRequest`. `startedAt` is
the instant `startedMs` is the reading of. -/
structure Worker where
  phase : WorkPhase := .idle
  scheduleCursor : Nat := 0
  request : TxRequest := {}
  callbackBudgetMs : UInt32 := 0
  startedMs : UInt32 := 0
  startedAt : Nat := 0
  wakesAt : Option Nat := none
  callbackReceived : Bool := false
  delivered : Bool := false
  signal : Bool := false
  grace : Bool := false
  deriving DecidableEq

/-- Where the worker goes on after `completeRequest`. -/
def Worker.next (w : Worker) : WorkPhase := if w.grace then .graceStarting else .idle

/-- A callback that the driver made for a call's frame. -/
structure Report where
  call : Nat
  success : Bool
  instant : Nat
  deriving DecidableEq

/-- The frames the driver has not reported on are `onAir`, the one whose window is
open, and `overdue`, those whose window has ended. `reports`, `rejected` and `offered`,
the frames given to `esp_now_send` with its answers, are for the record. -/
structure Radio where
  now : Nat := 0
  initialized : Bool := true
  queues : (p : Priority) → BoundedQueue TxRequest (kTxQueueDepth p) := fun _ => .empty
  driverStatusQueue : BoundedQueue DriverStatus kDriverStatusDepth := .empty
  slots : Fin kCompletionSlotCount → CompletionSlot := fun _ => {}
  worker : Worker := {}
  onAir : Option TxRequest := none
  overdue : List TxRequest := []
  calls : Nat → Call := fun _ => {}
  reports : List Report := []
  rejected : List Nat := []
  offered : List (TxRequest × Bool) := []

namespace Radio

variable (s : Radio)

def millis : UInt32 := reading s.now

def setCall (i : Nat) (c : Call) : Radio := { s with calls := Function.update s.calls i c }

def setSlot (k : Fin kCompletionSlotCount) (slot : CompletionSlot) : Radio :=
  { s with slots := Function.update s.slots k slot }

def setWorker (w : Worker) : Radio := { s with worker := w }

/-- The instant a wait of so many ticks ends. -/
def waitEnd (ticks : UInt32) : Option Nat :=
  if ticks = portMAX_DELAY then none else some (s.now + ticks.toNat)

def waitOver (wakesAt : Option Nat) : Bool := wakesAt.any (· ≤ s.now)

/-! ## Completion slots -/

def completionStillActive (request : TxRequest) : Bool :=
  match request.completion with
  | none => true
  | some (k, generation) => (s.slots k).inUse && (s.slots k).generation == generation

end Radio

/-- A generation is never 0. -/
def nextGeneration (generation : UInt32) : UInt32 :=
  if generation + 1 = 0 then generation + 1 + 1 else generation + 1

namespace Radio

variable (s : Radio)

def freeSlot : Option (Fin kCompletionSlotCount) :=
  (List.finRange kCompletionSlotCount).find? fun k => !(s.slots k).inUse

def acquire (k : Fin kCompletionSlotCount) : Radio :=
  s.setSlot k
    { s.slots k with
      inUse := true
      generation := nextGeneration (s.slots k).generation
      callbackReceived := false
      delivered := false }

def setSignal (k : Fin kCompletionSlotCount) (signal : Bool) : Radio :=
  s.setSlot k { s.slots k with signal }

def release (k : Fin kCompletionSlotCount) : Radio :=
  s.setSlot k { s.slots k with inUse := false, callbackReceived := false, delivered := false }

/-! ## The callers -/

def enqueueRequest (request : TxRequest) (p : Priority) : Option Radio :=
  ((s.queues p).send request).map fun queue =>
    { s with queues := Function.update s.queues p queue }

/-- The checks a send makes of its arguments; `none` stands for a null pointer. -/
def accepts (mac : Option Mac) (data : Option Bytes) : Bool :=
  s.initialized && mac.isSome && data.any fun data => data != [] && data.length ≤ MAX_DATA_LEN

def sendToMac (mac : Option Mac) (data : Option Bytes) (p : Priority) : Radio :=
  match mac, data with
  | some mac', some data' =>
    if s.accepts mac data then
      (s.enqueueRequest { mac := mac', data := data', enqueuedMs := s.millis
                          timeoutMs := kAsyncCallbackTimeoutMs, enqueuedAt := s.now } p).getD s
    else s
  | _, _ => s

/-- A call begins: it checks its arguments. -/
def sendToMacWithStatus (i : Nat) (mac : Option Mac) (data : Option Bytes) (timeoutMs : UInt32)
    (p : Priority) : Radio :=
  if (s.calls i).phase ≠ .idle then s
  else if s.accepts mac data && timeoutMs != 0 then
    s.setCall i
      { phase := .acquiring, mac := mac.getD (Vector.replicate 6 0), data := data.getD []
        timeoutMs, priority := p }
  else s.setCall i { phase := .returned, invalid := true }

/-- The next step of a call. -/
def callStep (i : Nat) : Radio :=
  let c := s.calls i
  match c.phase with
  | .idle | .returned => s
  | .acquiring =>
    match s.freeSlot with
    | none => s.setCall i { c with phase := .returned, noSlot := true }
    | some k =>
      (s.acquire k).setCall i
        { c with
          phase := .draining, slot := k, generation := nextGeneration (s.slots k).generation
          acquired := c.acquired + 1 }
  | .draining =>
    if (s.slots c.slot).signal then s.setSignal c.slot false
    else s.setCall i { c with phase := .building }
  | .building => s.setCall i { c with phase := .enqueuing, enqueuedAt := s.now }
  | .enqueuing =>
    match s.enqueueRequest (c.request i) c.priority with
    | none => s.setCall i { c with phase := .releasing, queueFull := true }
    | some s => s.setCall i { c with phase := .awaiting }
  | .awaiting => s.setCall i { c with phase := .blocked, expiresAt := s.now + c.timeoutMs.toNat }
  | .blocked =>
    if (s.slots c.slot).signal then
      (s.setSignal c.slot false).setCall i { c with phase := .reading }
    else if c.timeoutMs ≠ portMAX_DELAY ∧ c.expiresAt ≤ s.now then
      s.setCall i { c with phase := .releasing }
    else s
  | .reading =>
    let slot := s.slots c.slot
    if slot.inUse ∧ slot.generation = c.generation then
      s.setCall i
        { c with
          phase := .releasing, callbackReceived := slot.callbackReceived
          outDelivered := slot.delivered }
    else s.setCall i { c with phase := .releasing }
  | .releasing =>
    if (s.slots c.slot).inUse ∧ (s.slots c.slot).generation = c.generation then
      (s.release c.slot).setCall i { c with phase := .returned, released := c.released + 1 }
    else s.setCall i { c with phase := .returned }

/-! ## The worker -/

/-- A queue that looks non-empty still is when the worker gets to it. -/
def mayShow (available : Priority → Bool) : Bool :=
  [Priority.critical, .control, .data].all fun p => !available p || !(s.queues p).items.isEmpty

def dequeueScheduled (available : Priority → Bool) : Radio :=
  if s.worker.phase ≠ .idle ∨ !s.mayShow available then s
  else
    let selected := choose available s.worker.scheduleCursor
    let w := { s.worker with scheduleCursor := selected.nextCursor }
    match selected.found, (s.queues selected.priority).receive with
    | true, some (request, queue) =>
      { s with queues := Function.update s.queues selected.priority queue }.setWorker
        { w with phase := .checking, request }
    | _, _ => s.setWorker w

/-- On to `completeRequest`. -/
def complete (callbackReceived delivered grace : Bool) : Radio :=
  s.setWorker { s.worker with phase := .completing, callbackReceived, delivered, grace }

def goto (phase : WorkPhase) : Radio := s.setWorker { s.worker with phase }

/-- The driver takes the frame. -/
def sendFrame : Radio :=
  { s with
    onAir := some s.worker.request
    overdue := s.overdue ++ s.onAir.toList
    offered := s.offered ++ [(s.worker.request, true)] }

def rejectFrame : Radio :=
  { s with
    rejected := s.rejected ++ s.worker.request.sender.toList
    offered := s.offered ++ [(s.worker.request, false)] }

/-- The window of the last frame ends. -/
def closeWindow : Radio :=
  { s with driverStatusQueue := .empty, onAir := none, overdue := s.overdue ++ s.onAir.toList }

def startWait (phase : WorkPhase) : Radio :=
  s.setWorker { s.worker with phase, startedMs := s.millis, startedAt := s.now }

/-- `none` when the time is over, else the wait for the rest of it. -/
def waitRest (budgetMs : UInt32) (phase : WorkPhase) : Radio :=
  let remainingMs := budgetMs - (s.millis - s.worker.startedMs)
  s.setWorker
    { s.worker with phase, wakesAt := s.waitEnd (if 0 < remainingMs then remainingMs else 1) }

/-- The critical section of `completeRequest`. -/
def store : Radio :=
  let w := s.worker
  match w.request.completion with
  | none => s.goto w.next
  | some (k, _) =>
    if s.completionStillActive w.request then
      (s.setSlot k
        { s.slots k with
          callbackReceived := w.callbackReceived, delivered := w.delivered }).setWorker
        { w with phase := .giving, signal := true }
    else s.setWorker { w with phase := .giving, signal := false }

def give : Radio :=
  let w := s.worker
  match w.request.completion, w.signal with
  | some (k, _), true => (s.setSignal k true).goto w.next
  | _, _ => s.goto w.next

/-- The next step of the worker; `accepted` is what `esp_now_send` answers. -/
def workStep (accepted : Bool) : Radio :=
  let w := s.worker
  match w.phase with
  | .idle => s
  | .checking => s.goto (if s.completionStillActive w.request then .timing else .idle)
  | .timing =>
    let elapsed := s.millis - w.request.enqueuedMs
    if w.request.completion = none then
      s.setWorker { w with phase := .clearing, callbackBudgetMs := kAsyncCallbackTimeoutMs }
    else if w.request.timeoutMs ≤ elapsed then s.complete false false false
    else
      s.setWorker { w with phase := .clearing, callbackBudgetMs := w.request.timeoutMs - elapsed }
  | .clearing => { s with driverStatusQueue := .empty }.goto .sending
  | .sending =>
    if accepted then s.sendFrame.goto .starting else s.rejectFrame.complete false false false
  | .starting => s.startWait .polling
  | .polling =>
    if s.millis - w.startedMs < w.callbackBudgetMs then s.goto .measuring
    else s.complete false false true
  | .measuring => s.waitRest w.callbackBudgetMs .receiving
  | .receiving =>
    match s.driverStatusQueue.receive with
    | some (status, queue) =>
      let s := { s with driverStatusQueue := queue }
      if status.mac ≠ w.request.mac then s.goto .polling else s.complete true status.success false
    | none => if s.waitOver w.wakesAt then s.complete false false true else s
  | .completing => s.store
  | .giving => s.give
  | .graceStarting => s.startWait .gracePolling
  | .gracePolling =>
    s.goto (if s.millis - w.startedMs < kLateCallbackGraceMs then .graceMeasuring else .closing)
  | .graceMeasuring => s.waitRest kLateCallbackGraceMs .graceReceiving
  | .graceReceiving =>
    match s.driverStatusQueue.receive with
    | some (status, queue) =>
      { s with driverStatusQueue := queue }.goto
        (if status.mac = w.request.mac then .closing else .gracePolling)
    | none => if s.waitOver w.wakesAt then s.goto .gracePolling else s
  | .closing => s.closeWindow.goto .idle

/-! ## The driver -/

/-- `handleSendStatic`; a full queue drops the status. -/
def handleSend (request : TxRequest) (success : Bool) : Radio :=
  { s with
    driverStatusQueue :=
      s.driverStatusQueue.offer { mac := request.mac, success, sender := request.sender }
    reports := s.reports ++ request.sender.toList.map ({ call := ·, success, instant := s.now }) }

end Radio

inductive Action
  | elapse (ms : Nat)
  | sendToMac (mac : Option Mac) (data : Option Bytes) (p : Priority)
  | sendToMacWithStatus (i : Nat) (mac : Option Mac) (data : Option Bytes) (timeoutMs : UInt32)
      (p : Priority)
  | call (i : Nat)
  | dequeue (available : Priority → Bool)
  | work (accepted : Bool)
  | callback (success : Bool)
  | overdueCallback (index : Nat) (success : Bool)

def Radio.step (s : Radio) : Action → Radio
  | .elapse ms => { s with now := s.now + ms }
  | .sendToMac mac data p => s.sendToMac mac data p
  | .sendToMacWithStatus i mac data timeoutMs p => s.sendToMacWithStatus i mac data timeoutMs p
  | .call i => s.callStep i
  | .dequeue available => s.dequeueScheduled available
  | .work accepted => s.workStep accepted
  | .callback success =>
    match s.onAir with
    | none => s
    | some request => { s with onAir := none }.handleSend request success
  | .overdueCallback index success =>
    match s.overdue[index]? with
    | none => s
    | some request => { s with overdue := s.overdue.eraseIdx index }.handleSend request success

end BallyDongle.EspNowManager.TxWorker
