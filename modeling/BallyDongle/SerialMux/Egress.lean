import BallyDongle.Lib.BoundedQueue
import BallyDongle.Lib.BlockStream
import BallyDongle.SerialSession
import Mathlib.Logic.Function.Basic

/-!
# The cable's outbound side

`SerialMux.cpp`: four bounded queues, one per priority class, and one COBS
block in progress. A full queue refuses session and terminal frames and evicts
the oldest telemetry, log and status frames. `drainTx` moves frames from the
queues to the port one `write` at a time and never starts a block while another
is unfinished.
-/

namespace BallyDongle.SerialMux

open Btp SerialSession

def kOutboundPayloadCap : Nat := 2048
def kMaxFrameBytes : Nat := 36 + 4 + kOutboundPayloadCap
def kMaxCobsBytes : Nat := kMaxFrameBytes + kMaxFrameBytes / 254 + 4

def kQueueDepth : PriorityClass → Nat
  | .session => 4
  | .terminal => 3
  | .logStatus => 6
  | .telemetry => 16

def kClassFrameCap : PriorityClass → Nat
  | .telemetry => 768
  | _ => kMaxFrameBytes

/-- A queue slot of class `cls` holds a frame of at most its cap. -/
structure QueuedFrame (cls : PriorityClass) where
  bytes : Bytes
  size_le : bytes.length ≤ kClassFrameCap cls
  deriving DecidableEq

abbrev Queues := (cls : PriorityClass) → BoundedQueue (QueuedFrame cls) (kQueueDepth cls)

/-- The frames waiting in a queue, oldest first. -/
def Queues.frames (queues : Queues) (cls : PriorityClass) : List Bytes :=
  (queues cls).items.map QueuedFrame.bytes

def Queues.empty : Queues := fun _ => .empty

structure PendingWireFrame where
  bytes : Bytes := []
  offset : Nat := 0
  stalledCounted : Bool := false
  deriving DecidableEq, Repr

/-- The port: `world` is whatever decides how much a `write` takes, `accepted`
the octets it took so far. -/
structure ByteIO (World : Type) where
  world : World
  accepted : Bytes := []

/-- How many octets a `write` takes, given the octets offered. -/
abbrev WriteFn (World : Type) := World → Bytes → World × Nat

def ByteIO.write {World : Type} (port : WriteFn World) (io : ByteIO World) (data : Bytes) :
    ByteIO World × Nat :=
  let (world, sent) := port io.world data
  ({ world, accepted := io.accepted ++ data.take sent }, sent)

/-- The outbound state. `dequeued` records the frames taken from the queues in
order; no function reads it. -/
structure Egress where
  queues : Queues := .empty
  pendingWire : PendingWireFrame := {}
  framesTx : UInt64 := 0
  framesTxStalled : UInt64 := 0
  droppedByClass : PriorityClass → UInt64 := fun _ => 0
  dequeued : List Bytes := []

/-! ## Queueing -/

def evicts : PriorityClass → Bool
  | .telemetry | .logStatus => true
  | _ => false

def Egress.countDrop (e : Egress) (cls : PriorityClass) : Egress :=
  { e with
    droppedByClass := Function.update e.droppedByClass cls (e.droppedByClass cls + 1) }

def Egress.setQueue (e : Egress) (cls : PriorityClass)
    (queue : BoundedQueue (QueuedFrame cls) (kQueueDepth cls)) : Egress :=
  { e with queues := Function.update e.queues cls queue }

def enqueueFrameBytes (e : Egress) (cls : PriorityClass) (frameBytes : Bytes) : Egress × Bool :=
  if h : frameBytes.length ≤ kClassFrameCap cls then
    let item : QueuedFrame cls := ⟨frameBytes, h⟩
    match (e.queues cls).send item with
    | some queue => (e.setQueue cls queue, true)
    | none =>
      if evicts cls then
        match (e.queues cls).discard.send item with
        | some queue => ((e.setQueue cls queue).countDrop cls, true)
        | none => ((e.setQueue cls (e.queues cls).discard).countDrop cls, false)
      else (e.countDrop cls, false)
  else (e, false)

/-- The producer of a class. -/
def offerTo (cls : PriorityClass) (q : BoundedQueue (QueuedFrame cls) (kQueueDepth cls))
    (item : QueuedFrame cls) : BoundedQueue (QueuedFrame cls) (kQueueDepth cls) :=
  if evicts cls then q.offerEvict item else q.offer item

theorem queue_enqueue (e : Egress) {cls : PriorityClass} {frame : Bytes}
    (h : frame.length ≤ kClassFrameCap cls) :
    (enqueueFrameBytes e cls frame).1.queues cls = offerTo cls (e.queues cls) ⟨frame, h⟩ := by
  unfold enqueueFrameBytes offerTo BoundedQueue.offerEvict BoundedQueue.offer
  rw [dif_pos h]
  dsimp only
  cases hsend : (e.queues cls).send ⟨frame, h⟩ with
  | some queue => simp [Egress.setQueue]
  | none =>
    cases hagain : (e.queues cls).discard.send ⟨frame, h⟩ <;>
      cases evicts cls <;> simp [Egress.setQueue, Egress.countDrop]

/-- Frames of one class, enqueued one after the other. -/
theorem queue_foldl_enqueue {cls : PriorityClass} (frames : List Bytes) (e : Egress)
    (h : ∀ frame ∈ frames, frame.length ≤ kClassFrameCap cls) :
    (frames.foldl (fun e frame => (enqueueFrameBytes e cls frame).1) e).queues cls =
      (frames.pmap QueuedFrame.mk h).foldl (offerTo cls) (e.queues cls) := by
  induction frames generalizing e with
  | nil => rfl
  | cons frame frames ih =>
    rw [List.foldl_cons, ih _ fun f hf => h f (List.mem_cons_of_mem _ hf), List.pmap_cons,
      List.foldl_cons, queue_enqueue e (h frame (.head _))]

/-- What an empty queue keeps of frames offered one after the other: its first
frames, or its last ones where the class evicts. -/
theorem frames_foldl_enqueue {cls : PriorityClass} {frames : List Bytes} {e : Egress}
    (h : ∀ frame ∈ frames, frame.length ≤ kClassFrameCap cls) (hempty : e.queues.frames cls = []) :
    (frames.foldl (fun e frame => (enqueueFrameBytes e cls frame).1) e).queues.frames cls =
      if evicts cls then frames.drop (frames.length - kQueueDepth cls)
      else frames.take (kQueueDepth cls) := by
  have hitems : (e.queues cls).items = [] := List.map_eq_nil_iff.1 hempty
  have hdepth : 0 < kQueueDepth cls := by cases cls <;> decide
  have hbytes : (frames.pmap QueuedFrame.mk h).map QueuedFrame.bytes = frames := by
    rw [List.map_pmap]
    exact List.pmap_eq_self.2 fun _ _ => rfl
  rw [Queues.frames, queue_foldl_enqueue frames e h]
  unfold offerTo
  split
  · rw [BoundedQueue.items_foldl_offerEvict hdepth, hitems, List.nil_append, List.length_nil,
      Nat.zero_add, List.map_drop, hbytes, List.length_pmap]
  · rw [BoundedQueue.items_foldl_offer, hitems, List.nil_append, List.map_take, hbytes]

def resetQueues (e : Egress) : Egress := { e with pendingWire := {}, queues := .empty }

/-! ## One block on the wire -/

def Egress.hasPendingWireFrame (e : Egress) : Bool :=
  e.pendingWire.offset < e.pendingWire.bytes.length

def stageFrameCobs (codec : Codec) (e : Egress) (frame : Bytes) : Egress × Bool :=
  if e.hasPendingWireFrame ∨ frame = [] then (e, false)
  else
    match codec.cobsEncode frame kMaxCobsBytes with
    | none => ({ e with pendingWire := {} }, false)
    | some encoded => ({ e with pendingWire := { bytes := 0 :: encoded ++ [0] } }, true)

inductive WirePumpResult
  | idle | pending | completed
  deriving DecidableEq, Repr

/-- Counts a frame the port takes nothing of, once. -/
def Egress.countStall (e : Egress) : Egress :=
  if e.pendingWire.stalledCounted then e
  else
    { e with
      framesTxStalled := e.framesTxStalled + 1
      pendingWire := { e.pendingWire with stalledCounted := true } }

/-- Move the cursor past what the port took of the rest of the block. -/
def Egress.advance (e : Egress) (sent : Nat) : Egress :=
  { e with pendingWire :=
      { e.pendingWire with
        offset := e.pendingWire.offset +
          min sent (e.pendingWire.bytes.drop e.pendingWire.offset).length } }

section port

variable {World : Type} (codec : Codec) (port : WriteFn World)

def pumpPendingWireFrame (e : Egress) (io : ByteIO World) :
    Egress × ByteIO World × WirePumpResult :=
  if !e.hasPendingWireFrame then (e, io, .idle)
  else
    let remaining := e.pendingWire.bytes.drop e.pendingWire.offset
    let (io, sent) := io.write port remaining
    if sent = 0 then (e.countStall, io, .pending)
    else
      let e := e.advance sent
      if e.hasPendingWireFrame then (e, io, .pending)
      else ({ e with framesTx := e.framesTx + 1, pendingWire := {} }, io, .completed)

/-- Send up to `maxItems` frames of a class; `false` ends the tick's drain. -/
def drainQueueClass (cls : PriorityClass) :
    (maxItems : Nat) → Egress → ByteIO World → Egress × ByteIO World × Bool
  | 0, e, io => (e, io, true)
  | maxItems + 1, e, io =>
    match (e.queues cls).receive with
    | none => (e, io, true)
    | some (item, queue) =>
      let e := { e.setQueue cls queue with dequeued := e.dequeued ++ [item.bytes] }
      match stageFrameCobs codec e item.bytes with
      | (e, false) => ({ e with framesTxStalled := e.framesTxStalled + 1 }, io, false)
      | (e, true) =>
        match pumpPendingWireFrame port e io with
        | (e, io, .completed) => drainQueueClass cls maxItems e io
        | (e, io, _) => (e, io, false)

/-- The classes in priority order, with their bursts. -/
def drainOrder : List (PriorityClass × Nat) :=
  [(.session, 8), (.terminal, 4), (.logStatus, 4), (.telemetry, 4)]

/-- Drain the classes in turn until one reports that the port is full. -/
def drainClasses : List (PriorityClass × Nat) → Egress → ByteIO World → Egress × ByteIO World
  | [], e, io => (e, io)
  | (cls, maxItems) :: rest, e, io =>
    match drainQueueClass codec port cls maxItems e io with
    | (e, io, true) => drainClasses rest e io
    | (e, io, false) => (e, io)

def drainTx (e : Egress) (io : ByteIO World) : Egress × ByteIO World :=
  if e.hasPendingWireFrame then
    match pumpPendingWireFrame port e io with
    | (e, io, .completed) => drainClasses codec port drainOrder e io
    | (e, io, _) => (e, io)
  else drainClasses codec port drainOrder e io

/-- `kMaxImmediateWriteCalls` writes at most; `false` when octets are left. -/
def writeAllLoop : (calls : Nat) → Bytes → ByteIO World → ByteIO World × Bool
  | _, [], io => (io, true)
  | 0, _ :: _, io => (io, false)
  | calls + 1, data, io =>
    let (io, sent) := io.write port data
    if sent = 0 then (io, false) else writeAllLoop calls (data.drop sent) io

def writeAll (io : ByteIO World) (data : Bytes) : ByteIO World × Bool := writeAllLoop port 4 data io

/-- The immediate path of a closing session's last frame. -/
def writeFrameCobs (e : Egress) (io : ByteIO World) (frame : Bytes) : Egress × ByteIO World :=
  match codec.cobsEncode frame kMaxCobsBytes with
  | none => (e, io)
  | some encoded =>
    match writeAll port io (0 :: encoded ++ [0]) with
    | (io, true) => ({ e with framesTx := e.framesTx + 1 }, io)
    | (io, false) => ({ e with framesTxStalled := e.framesTxStalled + 1 }, io)

end port

end BallyDongle.SerialMux
