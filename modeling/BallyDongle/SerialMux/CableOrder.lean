import BallyDongle.Lib.CobsStream
import BallyDongle.SerialMux.DrainOrder

/-!
# What arrives at the other end of the cable

The octets the port took, read by a COBS receiver, are frames. Each belongs to a class,
and of one class they come in the order in which they were accepted: all of them for
session and terminal frames, for telemetry, log and status those that did not have to make
room for newer ones.
-/

namespace BallyDongle.SerialMux

open Btp SerialSession

/-- The library's blocks are the standard ones. -/
def CobsDecodes (codec : Codec) : Prop :=
  ∀ data outCapacity encoded, codec.cobsEncode data outCapacity = some encoded →
    Cobs.decode encoded = some data

/-- The outbound side with a record of the frames that `enqueueFrameBytes` accepted and of
those it evicted. -/
structure Cable (World : Type) where
  egress : Egress
  io : ByteIO World
  accepted : PriorityClass → List Bytes := fun _ => []
  evicted : PriorityClass → List Bytes := fun _ => []

variable {World : Type}

/-- The frame that has to make room for a new one: the oldest of a full queue. -/
def victim (e : Egress) (cls : PriorityClass) (frame : Bytes) : List Bytes :=
  if evicts cls ∧ frame.length ≤ kClassFrameCap cls ∧
      (e.queues.frames cls).length = kQueueDepth cls then
    (e.queues.frames cls).take 1
  else []

def Cable.apply (codec : Codec) (port : WriteFn World) (c : Cable World) (op : TxOp World) :
    Cable World where
  egress := (op.apply codec port (c.egress, c.io)).1
  io := (op.apply codec port (c.egress, c.io)).2
  accepted :=
    match op with
    | .enqueue cls frame =>
      if (enqueueFrameBytes c.egress cls frame).2 then
        Function.update c.accepted cls (c.accepted cls ++ [frame.1])
      else c.accepted
    | _ => c.accepted
  evicted :=
    match op with
    | .enqueue cls frame =>
      Function.update c.evicted cls (c.evicted cls ++ victim c.egress cls frame)
    | _ => c.evicted

theorem foldl_apply (codec : Codec) (port : WriteFn World) (c : Cable World) (ops : List (TxOp World)) :
    ((ops.foldl (Cable.apply codec port) c).egress, (ops.foldl (Cable.apply codec port) c).io) =
      runTx codec port (c.egress, c.io) ops := by
  induction ops generalizing c with
  | nil => rfl
  | cons op ops ih => exact ih _

/-- The frames of a class, of frames with their classes. -/
def ofClass (cls : PriorityClass) (tagged : List (PriorityClass × Bytes)) : List Bytes :=
  (tagged.filter (·.1 = cls)).map Prod.snd

/-- The accepted frames of a class have left its queue or wait in it. `gone` are those that left,
in order; the mark of one says whether it was taken or evicted. -/
structure Departed (accepted taken evicted queued : List Bytes) (gone : List (Bytes × Bool)) :
    Prop where
  accepted : accepted = gone.map Prod.fst ++ queued
  taken : (gone.filter (·.2)).map Prod.fst = taken
  evicted : (gone.filter (!·.2)).map Prod.fst = evicted

/-- The frames taken from the queues, with their classes. -/
structure Ordered (c : Cable World) (tagged : List (PriorityClass × Bytes)) : Prop where
  dequeued : tagged.map Prod.snd = c.egress.dequeued
  accounted : ∀ cls, ∃ gone, Departed (c.accepted cls) (ofClass cls tagged) (c.evicted cls)
    (c.egress.queues.frames cls) gone
  kept : ∀ cls, evicts cls = false → c.evicted cls = []

section ordered

variable {codec : Codec} {port : WriteFn World} {c : Cable World} {e : Egress}
  {cls : PriorityClass} {tagged tagged' : List (PriorityClass × Bytes)}
  {accepted taken evicted queued : List Bytes} {gone : List (Bytes × Bool)}

theorem ofClass_append : ofClass cls (tagged ++ tagged') = ofClass cls tagged ++ ofClass cls tagged' := by
  simp [ofClass]

/-! ## Entering a queue -/

inductive Entered (e e' : Egress) (cls : PriorityClass) (frame : Bytes) : Bool → List Bytes → Prop
  | appended (h : e'.queues.frames cls = e.queues.frames cls ++ [frame]) :
    Entered e e' cls frame true []
  | evicted (old : Bytes) (rest : List Bytes) (hfull : e.queues.frames cls = old :: rest)
    (h : e'.queues.frames cls = rest ++ [frame]) : Entered e e' cls frame true [old]
  | refused (h : e'.queues.frames cls = e.queues.frames cls) : Entered e e' cls frame false []

theorem length_frames (e : Egress) (cls : PriorityClass) :
    (e.queues.frames cls).length = (e.queues cls).items.length := List.length_map ..

theorem victim_eq_nil (h : evicts cls = false) (frame : Bytes) : victim e cls frame = [] :=
  if_neg fun hall => Bool.false_ne_true (h.symm.trans hall.1)

theorem enqueue_entered (e : Egress) (cls : PriorityClass) (frame : Bytes) :
    Entered e (enqueueFrameBytes e cls frame).1 cls frame (enqueueFrameBytes e cls frame).2
        (victim e cls frame) ∧
      (enqueueFrameBytes e cls frame).1.dequeued = e.dequeued ∧
      ∀ other ≠ cls,
        (enqueueFrameBytes e cls frame).1.queues.frames other = e.queues.frames other := by
  have hdepth : 0 < kQueueDepth cls := by cases cls <;> decide
  unfold enqueueFrameBytes
  by_cases hcap : frame.length ≤ kClassFrameCap cls
  · rw [dif_pos hcap]
    dsimp only
    cases hsend : (e.queues cls).send ⟨frame, hcap⟩ with
    | some queue =>
      have hroom : (e.queues.frames cls).length ≠ kQueueDepth cls := by
        rw [length_frames]
        intro hfull
        rw [BoundedQueue.send_eq_none.2 hfull] at hsend
        cases hsend
      have hvictim : victim e cls frame = [] := if_neg fun hall => hroom hall.2.2
      rw [hvictim]
      refine ⟨.appended ?_, rfl, fun other hne => setQueue_frames_of_ne e queue hne⟩
      rw [setQueue_frames_self, BoundedQueue.send_eq_some hsend, List.map_append]
      rfl
    | none =>
      have hfull : (e.queues.frames cls).length = kQueueDepth cls := by
        rw [length_frames]
        exact BoundedQueue.send_eq_none.1 hsend
      cases hevicts : evicts cls with
      | false =>
        rw [victim_eq_nil hevicts]
        exact ⟨.refused rfl, rfl, fun _ _ => rfl⟩
      | true =>
        have hvictim : victim e cls frame = (e.queues.frames cls).take 1 :=
          if_pos ⟨hevicts, hcap, hfull⟩
        rw [hvictim]
        cases hagain : (e.queues cls).discard.send ⟨frame, hcap⟩ with
        | none => exact absurd hagain (BoundedQueue.send_discard hdepth)
        | some queue =>
          cases hframes : e.queues.frames cls with
          | nil =>
            rw [hframes] at hfull
            exact absurd hfull (Nat.ne_of_lt hdepth)
          | cons old rest =>
            refine ⟨.evicted old rest hframes ?_, rfl,
              fun other hne => setQueue_frames_of_ne e queue hne⟩
            change (e.setQueue cls queue).queues.frames cls = _
            rw [setQueue_frames_self, BoundedQueue.send_eq_some hagain, List.map_append,
              BoundedQueue.items_discard, List.map_tail]
            exact congrArg (List.tail · ++ [frame]) hframes
  · have hvictim : victim e cls frame = [] := if_neg fun hall => hcap hall.2.1
    rw [dif_neg hcap, hvictim]
    exact ⟨.refused rfl, rfl, fun _ _ => rfl⟩

/-- A frame enters behind those that wait. -/
theorem Departed.enter (h : Departed accepted taken evicted queued gone) (frame : Bytes) :
    Departed (accepted ++ [frame]) taken evicted (queued ++ [frame]) gone where
  accepted := by rw [h.accepted, List.append_assoc]
  taken := h.taken
  evicted := h.evicted

/-- The oldest of those that wait is evicted. -/
theorem Departed.evict {old : Bytes} {rest : List Bytes}
    (h : Departed accepted taken evicted (old :: rest) gone) :
    Departed accepted taken (evicted ++ [old]) rest (gone ++ [(old, false)]) where
  accepted := by
    rw [h.accepted, List.map_append, List.append_assoc]
    rfl
  taken := by
    rw [List.filter_append, List.map_append, h.taken]
    exact List.append_nil _
  evicted := by
    rw [List.filter_append, List.map_append, h.evicted]
    rfl

/-- The oldest of those that wait are taken. -/
theorem Departed.take {frames rest : List Bytes}
    (h : Departed accepted taken evicted (frames ++ rest) gone) :
    Departed accepted (taken ++ frames) evicted rest (gone ++ frames.map (·, true)) where
  accepted := by
    rw [h.accepted, List.map_append, List.append_assoc]
    simp [Function.comp_def]
  taken := by
    rw [List.filter_append, List.map_append, h.taken]
    simp [List.filter_map, Function.comp_def]
  evicted := by
    rw [List.filter_append, List.map_append, h.evicted]
    simp [List.filter_map, Function.comp_def]

theorem Departed.entered {e' : Egress} {frame : Bytes} {queued : Bool} {room : List Bytes}
    (h : Departed accepted taken evicted (e.queues.frames cls) gone)
    (hentered : Entered e e' cls frame queued room) :
    ∃ gone', Departed (if queued then accepted ++ [frame] else accepted) taken (evicted ++ room)
      (e'.queues.frames cls) gone' := by
  cases hentered with
  | appended heq =>
    rw [heq, if_pos rfl, List.append_nil]
    exact ⟨gone, h.enter frame⟩
  | evicted old rest hfull heq =>
    rw [hfull] at h
    rw [heq, if_pos rfl]
    exact ⟨_, h.evict.enter frame⟩
  | refused heq =>
    rw [heq, List.append_nil]
    exact ⟨gone, h⟩

theorem Ordered.enqueue (h : Ordered c tagged) (cls : PriorityClass) (frame : { f : Bytes // f ≠ [] }) :
    Ordered (c.apply codec port (.enqueue cls frame)) tagged := by
  obtain ⟨hentered, hdequeued, hothers⟩ := enqueue_entered c.egress cls frame
  refine ⟨h.dequeued.trans hdequeued.symm, fun other => ?_, fun other hkeeps => ?_⟩
  · obtain ⟨gone, hgone⟩ := h.accounted other
    change ∃ gone', Departed ((if (enqueueFrameBytes c.egress cls frame).2 then
        Function.update c.accepted cls (c.accepted cls ++ [frame.1]) else c.accepted) other)
      (ofClass other tagged)
      (Function.update c.evicted cls (c.evicted cls ++ victim c.egress cls frame) other)
      ((enqueueFrameBytes c.egress cls frame).1.queues.frames other) gone'
    by_cases hother : other = cls
    · subst hother
      have hentry := hgone.entered hentered
      rw [Function.update_self]
      split at hentry <;> rename_i hqueued
      · rw [if_pos hqueued, Function.update_self]
        exact hentry
      · rw [if_neg hqueued]
        exact hentry
    · rw [hothers other hother, Function.update_of_ne hother]
      refine ⟨gone, ?_⟩
      split
      · rw [Function.update_of_ne hother]
        exact hgone
      · exact hgone
  · change Function.update c.evicted cls (c.evicted cls ++ victim c.egress cls frame) other = []
    by_cases hother : other = cls
    · subst hother
      rw [Function.update_self, h.kept other hkeeps, victim_eq_nil hkeeps]
      rfl
    · rw [Function.update_of_ne hother]
      exact h.kept other hkeeps

/-! ## Leaving the queues -/

/-- The frames a drain started, with their classes. -/
def tagStarted (started : PriorityClass → List Bytes) : List (PriorityClass × Bytes) :=
  drainOrder.flatMap fun entry => (started entry.1).map (entry.1, ·)

theorem map_snd_tagStarted (started : PriorityClass → List Bytes) :
    (tagStarted started).map Prod.snd = inTurn drainOrder started := by
  simp [tagStarted, inTurn, List.map_flatMap, Function.comp_def]

theorem ofClass_tagStarted (started : PriorityClass → List Bytes) (cls : PriorityClass) :
    ofClass cls (tagStarted started) = started cls := by
  have htag : ∀ other, ofClass cls ((started other).map (other, ·)) =
      if other = cls then started other else [] := by
    intro other
    by_cases hother : other = cls <;> simp [ofClass, List.filter_map, hother, Function.comp_def]
  unfold tagStarted drainOrder
  simp only [List.flatMap_cons, List.flatMap_nil, List.append_nil, ofClass_append, htag]
  cases cls <;> simp

theorem Ordered.drain (h : Ordered c tagged) :
    ∃ tagged', Ordered (c.apply codec port .drain) (tagged ++ tagged') := by
  obtain ⟨started, hdrain⟩ := drainTx_inOrder codec port c.egress c.io
  refine ⟨tagStarted started, ?_, fun cls => ?_, h.kept⟩
  · rw [List.map_append, h.dequeued, map_snd_tagStarted]
    exact hdrain.dequeued.symm
  · obtain ⟨gone, hgone⟩ := h.accounted cls
    rw [hdrain.fifo cls] at hgone
    rw [ofClass_append, ofClass_tagStarted]
    exact ⟨_, hgone.take⟩

theorem Ordered.apply (h : Ordered c tagged) (op : TxOp World) :
    ∃ tagged', Ordered (c.apply codec port op) (tagged ++ tagged') := by
  cases op with
  | enqueue cls frame =>
    refine ⟨[], ?_⟩
    rw [List.append_nil]
    exact h.enqueue cls frame
  | drain => exact h.drain
  | host world =>
    refine ⟨[], ?_⟩
    rw [List.append_nil]
    exact ⟨h.dequeued, h.accounted, h.kept⟩

theorem Ordered.run (h : Ordered c tagged) (ops : List (TxOp World)) :
    ∃ tagged', Ordered (ops.foldl (Cable.apply codec port) c) (tagged ++ tagged') := by
  induction ops generalizing c tagged with
  | nil => exact ⟨[], by rwa [List.append_nil]⟩
  | cons op ops ih =>
    have hstep : ∃ first, Ordered (c.apply codec port op) (tagged ++ first) := h.apply op
    obtain ⟨first, hfirst⟩ := hstep
    obtain ⟨rest, hrest⟩ := ih hfirst
    exact ⟨first ++ rest, by rwa [← List.append_assoc]⟩

end ordered

/-! ## The receiver -/

/-- What the receiver has of a session's octets are the frames whose blocks are out. -/
theorem OnWire.received {codec : Codec} (hdecodes : CobsDecodes codec) {base : UInt64} {e : Egress}
    {accepted part rest : Bytes} {done : List Bytes} {current : Option Bytes}
    (h : OnWire codec base e accepted done current part rest)
    (hblocks : ∀ frame ∈ e.dequeued, ∃ encoded,
      codec.cobsEncode frame kMaxCobsBytes = some encoded ∧ 0 ∉ encoded ∧
        wireBlock codec frame = 0 :: encoded ++ [0]) :
    (Cobs.Receiver.feed {} accepted).frames = done := by
  have hdone : ∀ frame ∈ done, ∃ encoded, wireBlock codec frame = 0 :: encoded ++ [0] ∧
      0 ∉ encoded ∧ Cobs.decode encoded = some frame := by
    intro frame hmem
    obtain ⟨encoded, hencode, hzero, hblock⟩ :=
      hblocks frame (h.dequeued ▸ List.mem_append_left _ hmem)
    exact ⟨encoded, hblock, hzero, hdecodes _ _ _ hencode⟩
  rw [h.accepted, Cobs.Receiver.feed_append, Cobs.Receiver.feed_blocks hdone rfl]
  cases hcurrent : current with
  | none =>
    rw [(h.idle hcurrent).1]
    rfl
  | some frame =>
    obtain ⟨hsplit, hrest⟩ := h.partly frame hcurrent
    obtain ⟨encoded, -, hzero, hblock⟩ :=
      hblocks frame (by rw [h.dequeued, hcurrent]; simp)
    rw [hblock] at hsplit
    rw [Cobs.Receiver.feed_part rfl hzero hsplit hrest]
    rfl

/-- In every run of a session, whatever the port takes: the frames the other end has are
the frames taken from the queues, save the one in progress; and what was accepted of a class
has, in order, left its queue, taken or evicted, or waits there still. -/
theorem cable_in_order {codec : Codec} (laws : CobsLaws codec) (hdecodes : CobsDecodes codec)
    (port : WriteFn World) (e : Egress) (world : World) (ops : List (TxOp World)) :
    let c := ops.foldl (Cable.apply codec port) { egress := startSession e, io := { world } }
    ∃ tagged : List (PriorityClass × Bytes),
      tagged.map Prod.snd = c.egress.dequeued ∧
        (Cobs.Receiver.feed {} c.io.accepted).frames <+: c.egress.dequeued ∧
        c.egress.dequeued.length ≤ (Cobs.Receiver.feed {} c.io.accepted).frames.length + 1 ∧
        ∀ cls,
          (∃ gone, Departed (c.accepted cls) (ofClass cls tagged) (c.evicted cls)
            (c.egress.queues.frames cls) gone) ∧
          (evicts cls = false → c.evicted cls = []) := by
  intro c
  have hstart : Ordered ({ egress := startSession e, io := { world } } : Cable World) [] :=
    ⟨rfl, fun _ => ⟨[], rfl, rfl, rfl⟩, fun _ _ => rfl⟩
  have hend : ∃ tagged, Ordered c ([] ++ tagged) := hstart.run ops
  obtain ⟨tagged, hordered⟩ := hend
  rw [List.nil_append] at hordered
  have hrun := foldl_apply codec port
    ({ egress := startSession e, io := { world } } : Cable World) ops
  obtain ⟨⟨done, current, part, rest, honWire⟩, hblocks, -⟩ := run_onWire laws port e world ops
  rw [← hrun] at honWire hblocks
  have hreceived := honWire.received hdecodes hblocks
  refine ⟨tagged, hordered.dequeued, ?_, ?_,
    fun cls => ⟨hordered.accounted cls, hordered.kept cls⟩⟩
  · rw [hreceived, honWire.dequeued]
    exact List.prefix_append _ _
  · rw [hreceived, honWire.dequeued, List.length_append]
    cases current <;> simp

theorem referenceCodec_decodes : CobsDecodes referenceCodec := by
  intro data outCapacity encoded h
  simp only [referenceCodec, Option.ite_none_right_eq_some, Option.some.injEq] at h
  rw [← h.2]
  exact Cobs.decode_encode data

/-- A telemetry frame half out when a session frame arrives. -/
theorem cable_in_order_twoFrames :
    let c := twoFrames.foldl (Cable.apply referenceCodec fun room _ => (room, room))
      { egress := startSession {}, io := { world := 3 } }
    ∃ tagged : List (PriorityClass × Bytes),
      tagged.map Prod.snd = c.egress.dequeued ∧
        (Cobs.Receiver.feed {} c.io.accepted).frames <+: c.egress.dequeued ∧
        c.egress.dequeued.length ≤ (Cobs.Receiver.feed {} c.io.accepted).frames.length + 1 ∧
        ∀ cls,
          (∃ gone, Departed (c.accepted cls) (ofClass cls tagged) (c.evicted cls)
            (c.egress.queues.frames cls) gone) ∧
          (evicts cls = false → c.evicted cls = []) :=
  cable_in_order referenceCodec_laws referenceCodec_decodes (fun room _ => (room, room)) {} 3 twoFrames

end BallyDongle.SerialMux
