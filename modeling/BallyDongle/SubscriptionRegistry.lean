import BallyDongle.Lib.SlotTable
import BallyDongle.Btp

/-!
# The desktop subscription aggregator

`SubscriptionRegistry.cpp`: one row per `(sourceId, topicId)` the desktop ever
asked for, each with a small table of client subscriptions, and the upstream
state that row last asserted. Every entry point edits the clients of a row and
then calls `evaluateUpstream`, which says what the robot must now be told.
-/

namespace BallyDongle.SubscriptionRegistry

def kMaxTopics : Nat := 8
def kMaxClientsPerTopic : Nat := 4
def kMinLeaseMs : UInt32 := 1000
def kMaxLeaseMs : UInt32 := 300000
def kUpstreamRenewDivisor : UInt32 := 2

structure ClientSub where
  used : Bool := false
  clientId : UInt32 := 0
  subscriptionId : UInt32 := 0
  requestedRateMillihz : UInt32 := 0
  requestedLeaseMs : UInt32 := 0
  leaseDeadlineMs : UInt32 := 0
  deriving DecidableEq, Repr

structure TopicRow where
  used : Bool := false
  sourceId : UInt32 := 0
  topicId : UInt32 := 0
  clients : Fin kMaxClientsPerTopic → ClientSub := fun _ => {}
  upstreamActive : Bool := false
  pendingRequestSequence : UInt32 := 0
  upstreamRequestedRateMillihz : UInt32 := 0
  upstreamLeaseMs : UInt32 := 0
  upstreamRenewAtMs : UInt32 := 0
  upstreamSubscriptionId : UInt32 := 0
  effectiveRateMillihz : UInt32 := 0
  bytesTotal : UInt64 := 0
  samplesDroppedTotal : UInt64 := 0

/-- `g_rows` and `g_nextSubscriptionId`. -/
structure Registry where
  rows : Fin kMaxTopics → TopicRow := fun _ => {}
  nextId : UInt32 := 1

inductive UpstreamKind
  | none | subscribe | unsubscribe
  deriving DecidableEq, Repr

structure UpstreamAction where
  kind : UpstreamKind := .none
  sourceId : UInt32 := 0
  topicId : UInt32 := 0
  rateMillihz : UInt32 := 0
  leaseMs : UInt32 := 0
  upstreamSubscriptionId : UInt32 := 0
  deriving DecidableEq, Repr

structure DesktopSubscribeOutcome where
  accepted : Bool := false
  subscriptionId : UInt32 := 0
  upstream : UpstreamAction := {}
  deriving DecidableEq, Repr

structure DesktopUnsubscribeOutcome where
  found : Bool := false
  upstream : UpstreamAction := {}
  deriving DecidableEq, Repr

def Registry.setRow (g : Registry) (r : Fin kMaxTopics) (row : TopicRow) : Registry :=
  { g with rows := Function.update g.rows r row }

def TopicRow.setClient (row : TopicRow) (i : Fin kMaxClientsPerTopic) (client : ClientSub) :
    TopicRow :=
  { row with clients := Function.update row.clients i client }

/-! ## Rows and clients -/

/-- The id handed out and the registry that will hand out the next one, never 0. -/
def nextSubscriptionId (g : Registry) : Registry × UInt32 :=
  let next := g.nextId + 1
  ({ g with nextId := if next = 0 then 1 else next }, g.nextId)

def findRow (g : Registry) (sourceId topicId : UInt32) : Option (Fin kMaxTopics) :=
  SlotTable.first (fun row => row.used && row.sourceId == sourceId && row.topicId == topicId)
    g.rows

def findOrCreateRow (g : Registry) (sourceId topicId : UInt32) :
    Registry × Option (Fin kMaxTopics) :=
  match findRow g sourceId topicId with
  | some existing => (g, some existing)
  | none =>
    match SlotTable.first (fun row => !row.used) g.rows with
    | some i => (g.setRow i { used := true, sourceId, topicId }, some i)
    | none => (g, none)

def refcount (row : TopicRow) : Nat :=
  (List.finRange kMaxClientsPerTopic).countP fun i => (row.clients i).used

/-- The largest `field` over the live clients, 0 when there is none. -/
def unionOf (field : ClientSub → UInt32) (row : TopicRow) : UInt32 :=
  (List.finRange kMaxClientsPerTopic).foldl
    (fun best i =>
      if (row.clients i).used && decide (best < field (row.clients i)) then field (row.clients i)
      else best) 0

def unionRateMillihz (row : TopicRow) : UInt32 := unionOf ClientSub.requestedRateMillihz row

def unionLeaseMs (row : TopicRow) : UInt32 := unionOf ClientSub.requestedLeaseMs row

def clampLease (requestedLeaseMs : UInt32) : UInt32 :=
  if requestedLeaseMs < kMinLeaseMs then kMinLeaseMs
  else if kMaxLeaseMs < requestedLeaseMs then kMaxLeaseMs
  else requestedLeaseMs

/-- Wrap-safe "`instant` has been reached", on the 32-bit millisecond clock. -/
def reached (nowMs instant : UInt32) : Bool := nowMs - instant < 0x80000000

/-- What the robot must now be told about a row, and the row once it is told. -/
def evaluateUpstream (row : TopicRow) (nowMs : UInt32) : TopicRow × UpstreamAction :=
  let action : UpstreamAction := { sourceId := row.sourceId, topicId := row.topicId }
  if refcount row = 0 then
    if !row.upstreamActive then (row, action)
    else
      ({ row with
          upstreamActive := false
          upstreamRequestedRateMillihz := 0
          upstreamLeaseMs := 0
          upstreamRenewAtMs := 0
          effectiveRateMillihz := 0
          upstreamSubscriptionId := 0 },
        { action with
          kind := .unsubscribe
          upstreamSubscriptionId := row.upstreamSubscriptionId })
  else
    let rate := unionRateMillihz row
    let lease := unionLeaseMs row
    let changed := !row.upstreamActive || rate != row.upstreamRequestedRateMillihz ||
      lease != row.upstreamLeaseMs
    let dueForRenewal := row.upstreamActive && reached nowMs row.upstreamRenewAtMs
    if !changed && !dueForRenewal then (row, action)
    else
      ({ row with
          upstreamActive := true
          upstreamRequestedRateMillihz := rate
          upstreamLeaseMs := lease
          upstreamRenewAtMs := nowMs + lease / kUpstreamRenewDivisor },
        { action with kind := .subscribe, rateMillihz := rate, leaseMs := lease })

/-! ## Desktop requests -/

/-- The slot a request of `clientId` is written to: its own, else a free one. -/
def slotFor (row : TopicRow) (clientId : UInt32) : Option (Fin kMaxClientsPerTopic) :=
  match SlotTable.first (fun c => c.used && c.clientId == clientId) row.clients with
  | some slot => some slot
  | none => SlotTable.first (fun c => !c.used) row.clients

def onDesktopSubscribe (g : Registry)
    (clientId sourceId topicId requestedRateMillihz requestedLeaseMs nowMs : UInt32) :
    Registry × DesktopSubscribeOutcome :=
  match findOrCreateRow g sourceId topicId with
  | (g, none) => (g, {})
  | (g, some rowIndex) =>
    let row := g.rows rowIndex
    let clampedLeaseMs := clampLease requestedLeaseMs
    let leaseDeadlineMs := nowMs + clampedLeaseMs
    -- idempotent retry: same client, same rate, same lease
    match SlotTable.first (fun c => c.used && c.clientId == clientId &&
        c.requestedRateMillihz == requestedRateMillihz && c.requestedLeaseMs == clampedLeaseMs)
        row.clients with
    | some i =>
      let up := evaluateUpstream (row.setClient i { row.clients i with leaseDeadlineMs }) nowMs
      (g.setRow rowIndex up.1,
        { accepted := true, subscriptionId := (row.clients i).subscriptionId, upstream := up.2 })
    | none =>
      match slotFor row clientId with
      | none => (g, {})
      | some slot =>
        let next := nextSubscriptionId g
        let client : ClientSub :=
          { used := true, clientId, subscriptionId := next.2, requestedRateMillihz
            requestedLeaseMs := clampedLeaseMs, leaseDeadlineMs }
        let up := evaluateUpstream (row.setClient slot client) nowMs
        (next.1.setRow rowIndex up.1,
          { accepted := true, subscriptionId := next.2, upstream := up.2 })

/-- The client entry of `row` that `(clientId, subscriptionId)` names. -/
def findClient (row : TopicRow) (clientId subscriptionId : UInt32) :
    Option (Fin kMaxClientsPerTopic) :=
  SlotTable.first
    (fun c => c.used && c.clientId == clientId && c.subscriptionId == subscriptionId) row.clients

def onDesktopUnsubscribe (g : Registry) (clientId subscriptionId nowMs : UInt32) :
    Registry × DesktopUnsubscribeOutcome :=
  match SlotTable.first
      (fun row => row.used && (findClient row clientId subscriptionId).isSome) g.rows with
  | none => (g, {})
  | some r =>
    match findClient (g.rows r) clientId subscriptionId with
    | none => (g, {})
    | some i =>
      let up := evaluateUpstream ((g.rows r).setClient i {}) nowMs
      (g.setRow r up.1, { found := true, upstream := up.2 })

/-! ## Sweeps over every row -/

/-- The caller's output array: `isNull` when none was passed. -/
structure Out where
  isNull : Bool := false
  maxOut : Nat := kMaxTopics
  deriving DecidableEq, Repr

/-- What a sweep returned: the count and the actions stored in the array. -/
structure Written where
  count : Nat := 0
  stored : List UpstreamAction := []
  deriving DecidableEq, Repr

def Written.push (out : Out) (w : Written) (action : UpstreamAction) : Written :=
  if action.kind = .none then w
  else
    { stored := if !out.isNull && decide (w.count < out.maxOut) then w.stored ++ [action]
        else w.stored
      count := if w.count < out.maxOut then w.count + 1 else w.count }

/-- Apply `edit` to the rows in order, storing the actions it returns. -/
def overRows (g : Registry) (edit : TopicRow → TopicRow × UpstreamAction) (out : Out) :
    Registry × Written :=
  ({ g with rows := fun r => (edit (g.rows r)).1 },
    (List.finRange kMaxTopics).foldl (fun w r => w.push out (edit (g.rows r)).2) {})

/-- Drop the clients satisfying `p`. -/
def TopicRow.dropClients (row : TopicRow) (p : ClientSub → Bool) : TopicRow :=
  { row with clients := fun i => if p (row.clients i) then {} else row.clients i }

def disconnectRow (clientId nowMs : UInt32) (row : TopicRow) : TopicRow × UpstreamAction :=
  let owned (c : ClientSub) : Bool := c.used && c.clientId == clientId
  let touched := (SlotTable.first owned row.clients).isSome
  if !row.used || !touched then (row, {})
  else evaluateUpstream (row.dropClients owned) nowMs

def onClientDisconnected (g : Registry) (clientId nowMs : UInt32) (out : Out) :
    Registry × Written :=
  overRows g (disconnectRow clientId nowMs) out

def sweepRow (nowMs : UInt32) (row : TopicRow) : TopicRow × UpstreamAction :=
  let expired (c : ClientSub) : Bool := c.used && reached nowMs c.leaseDeadlineMs
  if !row.used then (row, {})
  else evaluateUpstream (row.dropClients expired) nowMs

def sweep (g : Registry) (nowMs : UInt32) (out : Out) : Registry × Written :=
  overRows g (sweepRow nowMs) out

/-! ## Upstream answers, counters and queries -/

/-- Edit the row of `(sourceId, topicId)` when there is one. -/
def onRow (g : Registry) (sourceId topicId : UInt32) (edit : TopicRow → TopicRow) : Registry :=
  match findRow g sourceId topicId with
  | none => g
  | some r => g.setRow r (edit (g.rows r))

def noteUpstreamRequestSent (g : Registry) (sourceId topicId sequence : UInt32) : Registry :=
  onRow g sourceId topicId fun row => { row with pendingRequestSequence := sequence }

def onUpstreamSubscribeResult (g : Registry) (replyToSequence : UInt32) (status : UInt8)
    (upstreamSubscriptionId effectiveRateMillihz : UInt32) : Registry × Bool :=
  let kStatusSuccess : UInt8 := 0
  match SlotTable.first (fun row => row.used && row.pendingRequestSequence != 0 &&
      row.pendingRequestSequence == replyToSequence) g.rows with
  | none => (g, false)
  | some r =>
    let row := { g.rows r with pendingRequestSequence := 0 }
    (g.setRow r
      (if status = kStatusSuccess then { row with effectiveRateMillihz, upstreamSubscriptionId }
        else row), true)

def upstreamSubscriptionId (g : Registry) (sourceId topicId : UInt32) : UInt32 :=
  match findRow g sourceId topicId with
  | none => 0
  | some r => (g.rows r).upstreamSubscriptionId

def recordForwarded (g : Registry) (sourceId topicId : UInt32) (payloadBytes : Nat) : Registry :=
  onRow g sourceId topicId fun row =>
    { row with bytesTotal := row.bytesTotal + payloadBytes.toUInt64 }

def recordDropped (g : Registry) (sourceId topicId : UInt32) : Registry :=
  onRow g sourceId topicId fun row =>
    { row with samplesDroppedTotal := row.samplesDroppedTotal + 1 }

def isWanted (g : Registry) (sourceId topicId : UInt32) : Bool :=
  match findRow g sourceId topicId with
  | none => false
  | some r => refcount (g.rows r) > 0

def isKnownUnwanted (g : Registry) (sourceId topicId : UInt32) : Bool :=
  match findRow g sourceId topicId with
  | none => false
  | some r => refcount (g.rows r) = 0

/-- One record per row in use, in row order. -/
def topicStatusSnapshot (g : Registry) (maxOut : Nat) : List Btp.TopicStatusRecord :=
  ((((List.finRange kMaxTopics).map g.rows).filter TopicRow.used).map fun row =>
    { sourceId := row.sourceId
      topicId := row.topicId.toUInt16
      subscriberCount := (refcount row).toUInt16
      effectiveRateMillihz := row.effectiveRateMillihz
      bytesTotal := row.bytesTotal
      samplesDroppedTotal := row.samplesDroppedTotal }).take maxOut

end BallyDongle.SubscriptionRegistry
