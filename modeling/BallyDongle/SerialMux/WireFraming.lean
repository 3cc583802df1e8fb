import BallyDongle.SerialMux.Egress
import BallyDongle.Lib.Cobs

/-!
# Framing under partial writes

The pending block and the octets the port took form a `BlockStream`; every
operation of the outbound side is a `stage`, `accept` or `clear` of it. So the
octets on the wire are the blocks of the dequeued frames, in order, and a prefix
of the block in progress, however the port splits them.
-/

namespace BallyDongle.SerialMux

open Btp SerialSession

variable {World : Type} {codec : Codec} {port : WriteFn World} {base : UInt64}
  {e : Egress} {io : ByteIO World}

/-- The wire as a block stream. -/
def wireStream (e : Egress) (io : ByteIO World) : BlockStream UInt8 :=
  { sent := io.accepted, block := e.pendingWire.bytes, offset := e.pendingWire.offset }

/-- What one frame looks like on the wire. -/
def wireBlock (codec : Codec) (frame : Bytes) : Bytes :=
  0 :: (codec.cobsEncode frame kMaxCobsBytes).getD [] ++ [0]

theorem hasPending_iff : e.hasPendingWireFrame = true ↔ (wireStream e io).Pending := by
  simp [Egress.hasPendingWireFrame, BlockStream.Pending, wireStream]

/-- A frame the encoder takes. -/
def Fits (frame : Bytes) : Prop := frame ≠ [] ∧ frame.length ≤ kMaxFrameBytes

/-- The session's wire state: `base` is the transmit counter it started from. -/
structure Framed (codec : Codec) (base : UInt64) (e : Egress) (io : ByteIO World) : Prop where
  writes : (wireStream e io).Writes (e.dequeued.map (wireBlock codec))
  framesTx : e.framesTx + (if e.hasPendingWireFrame then 1 else 0) =
    base + UInt64.ofNat e.dequeued.length
  queued : ∀ cls, ∀ f ∈ e.queues.frames cls, Fits f
  dequeued : ∀ f ∈ e.dequeued, Fits f

/-! ## Queueing -/

theorem kClassFrameCap_le (cls : PriorityClass) : kClassFrameCap cls ≤ kMaxFrameBytes := by
  cases cls <;> decide

@[simp] theorem setQueue_frames_self (e : Egress) (cls : PriorityClass)
    (queue : BoundedQueue (QueuedFrame cls) (kQueueDepth cls)) :
    (e.setQueue cls queue).queues.frames cls = queue.items.map QueuedFrame.bytes := by
  simp [Egress.setQueue, Queues.frames]

theorem setQueue_frames_of_ne (e : Egress) {cls cls' : PriorityClass}
    (queue : BoundedQueue (QueuedFrame cls) (kQueueDepth cls)) (h : cls' ≠ cls) :
    (e.setQueue cls queue).queues.frames cls' = e.queues.frames cls' := by
  simp [Egress.setQueue, Queues.frames, Function.update_of_ne h]

/-- Replacing one queue by one with no new frame but the given ones. -/
theorem Framed.setQueue (h : Framed codec base e io) {cls : PriorityClass}
    {queue : BoundedQueue (QueuedFrame cls) (kQueueDepth cls)}
    (hq : ∀ item ∈ queue.items, item ∈ (e.queues cls).items ∨ item.bytes ≠ []) :
    Framed codec base (e.setQueue cls queue) io := by
  refine ⟨h.writes, h.framesTx, fun cls' f hf => ?_, h.dequeued⟩
  by_cases hc : cls' = cls
  · subst hc
    rw [setQueue_frames_self, List.mem_map] at hf
    obtain ⟨item, hmem, rfl⟩ := hf
    refine ⟨?_, Nat.le_trans item.size_le (kClassFrameCap_le cls')⟩
    rcases hq item hmem with hold | hne
    · exact (h.queued cls' _ (List.mem_map_of_mem hold)).1
    · exact hne
  · rw [setQueue_frames_of_ne e queue hc] at hf
    exact h.queued cls' f hf

theorem Framed.countDrop (h : Framed codec base e io) (cls : PriorityClass) :
    Framed codec base (e.countDrop cls) io := ⟨h.writes, h.framesTx, h.queued, h.dequeued⟩

theorem Framed.enqueue (h : Framed codec base e io) (cls : PriorityClass) {frame : Bytes}
    (hne : frame ≠ []) : Framed codec base (enqueueFrameBytes e cls frame).1 io := by
  unfold enqueueFrameBytes
  split
  · dsimp only
    split
    · rename_i queue hs
      refine h.setQueue fun item hmem => ?_
      rw [BoundedQueue.send_eq_some hs, List.mem_append, List.mem_singleton] at hmem
      rcases hmem with hold | rfl
      · exact .inl hold
      · exact .inr hne
    · split
      · split
        · rename_i queue hs
          refine (h.setQueue fun item hmem => ?_).countDrop cls
          rw [BoundedQueue.send_eq_some hs, List.mem_append, List.mem_singleton] at hmem
          rcases hmem with hold | rfl
          · exact .inl (List.mem_of_mem_tail hold)
          · exact .inr hne
        · exact (h.setQueue fun item hmem => .inl (List.mem_of_mem_tail hmem)).countDrop cls
      · exact h.countDrop cls
  · exact h

/-! ## One block on the wire -/

theorem wireBlock_ne_nil (codec : Codec) (frame : Bytes) : wireBlock codec frame ≠ [] := by
  simp [wireBlock]

theorem cobsEncode_eq_some (laws : CobsLaws codec) {frame : Bytes} (hfits : Fits frame) :
    ∃ encoded, codec.cobsEncode frame kMaxCobsBytes = some encoded := by
  obtain ⟨hne, hlen⟩ := hfits
  refine Option.isSome_iff_exists.1 (laws.succeeds frame kMaxCobsBytes hne ?_)
  simp only [kMaxCobsBytes]
  omega

theorem stageFrameCobs_eq {frame encoded : Bytes} (hidle : e.hasPendingWireFrame = false)
    (hne : frame ≠ []) (henc : codec.cobsEncode frame kMaxCobsBytes = some encoded) :
    stageFrameCobs codec e frame =
      ({ e with pendingWire := { bytes := wireBlock codec frame } }, true) := by
  simp [stageFrameCobs, hidle, hne, henc, wireBlock]

/-- Staging a dequeued frame while nothing is pending. -/
theorem Framed.stage (h : Framed codec base e io) (hidle : e.hasPendingWireFrame = false)
    {frame : Bytes} (hfits : Fits frame) {queues : Queues}
    (hq : ∀ cls, ∀ f ∈ queues.frames cls, Fits f) :
    let e' := { e with
      queues, dequeued := e.dequeued ++ [frame], pendingWire := { bytes := wireBlock codec frame } }
    e'.hasPendingWireFrame = true ∧ Framed codec base e' io := by
  intro e'
  have hpend : e'.hasPendingWireFrame = true :=
    decide_eq_true (List.length_pos_of_ne_nil (wireBlock_ne_nil codec frame))
  refine ⟨hpend, ?_, ?_, hq, ?_⟩
  · have hstage := h.writes.stage (b := wireBlock codec frame)
      (fun hp => by rw [hasPending_iff.2 hp] at hidle; cases hidle)
    simpa [e', wireStream, BlockStream.stage] using hstage
  · have hcount := h.framesTx
    rw [hidle, if_neg (by decide), UInt64.add_zero] at hcount
    rw [if_pos hpend]
    simp only [e', hcount, List.length_append, List.length_singleton, UInt64.ofNat_add,
      UInt64.add_assoc]
    rfl
  · intro f hf
    rcases List.mem_append.1 hf with hold | hnew
    · exact h.dequeued f hold
    · exact List.mem_singleton.1 hnew ▸ hfits

theorem wireStream_advance {io' : ByteIO World} {sent : Nat}
    (hio : io'.accepted = io.accepted ++ (wireStream e io).rest.take sent) :
    wireStream (e.advance sent) io' = (wireStream e io).accept sent := by
  rw [wireStream, hio]
  rfl

theorem advance_pending (hpend : e.hasPendingWireFrame = true) (sent : Nat) :
    (e.advance sent).hasPendingWireFrame = true ↔ sent < (wireStream e io).rest.length := by
  have hlt : e.pendingWire.offset < e.pendingWire.bytes.length := of_decide_eq_true hpend
  simp only [Egress.hasPendingWireFrame, Egress.advance, decide_eq_true_iff, List.length_drop,
    wireStream, BlockStream.rest]
  omega

/-- What one `write` does to a pending block: the port takes nothing, or the
cursor moves inside the block, or the last octet is taken. -/
theorem pump_cases (hpend : e.hasPendingWireFrame = true) {e' : Egress} {io' : ByteIO World}
    {result : WirePumpResult} (hp : pumpPendingWireFrame port e io = (e', io', result)) :
    let rest := (wireStream e io).rest
    let sent := (port io.world rest).2
    io'.accepted = io.accepted ++ rest.take sent ∧
    ((sent = 0 ∧ e' = e.countStall ∧ result = .pending) ∨
      (sent ≠ 0 ∧ sent < rest.length ∧ e' = e.advance sent ∧ result = .pending) ∨
      (rest.length ≤ sent ∧
        e' = { e.advance sent with framesTx := e.framesTx + 1, pendingWire := {} } ∧
        result = .completed)) := by
  intro rest sent
  have hmore : (e.advance sent).hasPendingWireFrame = true ↔ sent < rest.length :=
    advance_pending hpend sent
  rw [pumpPendingWireFrame, hpend] at hp
  simp only [Bool.not_true, Bool.false_eq_true, if_false, ByteIO.write] at hp
  change (if sent = 0 then _
    else if (e.advance sent).hasPendingWireFrame = true then _ else _) = _ at hp
  split at hp
  · rename_i h0
    cases hp
    exact ⟨rfl, .inl ⟨h0, rfl, rfl⟩⟩
  · rename_i h0
    split at hp
    · rename_i hm
      cases hp
      exact ⟨rfl, .inr (.inl ⟨h0, hmore.1 hm, rfl, rfl⟩)⟩
    · rename_i hm
      cases hp
      exact ⟨rfl, .inr (.inr ⟨Nat.not_lt.1 fun hl => hm (hmore.2 hl), rfl, rfl⟩)⟩

theorem Framed.countStall (h : Framed codec base e io) : Framed codec base e.countStall io := by
  unfold Egress.countStall
  split
  · exact h
  · exact ⟨h.writes, h.framesTx, h.queued, h.dequeued⟩

/-- A `write` keeps the framing, and a completed block leaves nothing pending. -/
theorem Framed.pump (h : Framed codec base e io) (hpend : e.hasPendingWireFrame = true)
    {e' : Egress} {io' : ByteIO World} {result : WirePumpResult}
    (hp : pumpPendingWireFrame port e io = (e', io', result)) :
    Framed codec base e' io' ∧ (result = .completed → e'.hasPendingWireFrame = false) := by
  obtain ⟨hio, ⟨h0, rfl, rfl⟩ | ⟨-, hlt, rfl, rfl⟩ | ⟨hle, rfl, rfl⟩⟩ := pump_cases hpend hp
  · rw [h0, List.take_zero, List.append_nil] at hio
    have hstall := h.countStall
    exact ⟨⟨by simpa only [wireStream, hio] using hstall.writes, hstall.framesTx, hstall.queued,
      hstall.dequeued⟩, nofun⟩
  · have hmore := (advance_pending hpend _).2 hlt
    have hcount := h.framesTx
    rw [if_pos hpend] at hcount
    refine ⟨⟨wireStream_advance hio ▸ h.writes.accept, ?_, h.queued, h.dequeued⟩, nofun⟩
    rwa [if_pos hmore]
  · -- the block is gone, so what is pending moves to `framesTx`
    have hdone : ¬ (wireStream (e.advance (port io.world (wireStream e io).rest).2) io').Pending :=
      fun hmore => Nat.not_lt.2 hle ((advance_pending hpend _).1 (hasPending_iff.2 hmore))
    have hcount := h.framesTx
    rw [if_pos hpend] at hcount
    have hwrites := h.writes.accept (n := (port io.world (wireStream e io).rest).2)
    rw [← wireStream_advance hio] at hwrites
    refine ⟨⟨hwrites.clear hdone, ?_, h.queued, h.dequeued⟩, fun _ => rfl⟩
    rw [if_neg (by simp [Egress.hasPendingWireFrame]), UInt64.add_zero]
    exact hcount

/-! ## Draining -/

/-- The frame at the head of a queue is taken and staged. -/
theorem Framed.receive (laws : CobsLaws codec) (h : Framed codec base e io)
    (hidle : e.hasPendingWireFrame = false) {cls : PriorityClass} {item : QueuedFrame cls}
    {queue : BoundedQueue (QueuedFrame cls) (kQueueDepth cls)}
    (hr : (e.queues cls).receive = some (item, queue)) :
    ∃ e', stageFrameCobs codec { e.setQueue cls queue with dequeued := e.dequeued ++ [item.bytes] }
        item.bytes = (e', true) ∧ e'.hasPendingWireFrame = true ∧ Framed codec base e' io := by
  have hitems := BoundedQueue.receive_eq_some hr
  have hmem : item.bytes ∈ e.queues.frames cls :=
    List.mem_map_of_mem (hitems ▸ List.mem_cons_self)
  have hfits := h.queued cls _ hmem
  obtain ⟨encoded, henc⟩ := cobsEncode_eq_some laws hfits
  have hset : Framed codec base (e.setQueue cls queue) io :=
    h.setQueue fun i hi => .inl (hitems ▸ List.mem_cons_of_mem _ hi)
  obtain ⟨hpend, hstaged⟩ := h.stage hidle hfits hset.queued
  exact ⟨_, stageFrameCobs_eq hidle hfits.1 henc, hpend, hstaged⟩

/-- A class's drain keeps the framing; while it reports `true` nothing is pending. -/
theorem Framed.drainQueueClass (laws : CobsLaws codec) (cls : PriorityClass) (maxItems : Nat)
    (h : Framed codec base e io) (hidle : e.hasPendingWireFrame = false) {e' : Egress}
    {io' : ByteIO World} {more : Bool}
    (hd : drainQueueClass codec port cls maxItems e io = (e', io', more)) :
    Framed codec base e' io' ∧ (more = true → e'.hasPendingWireFrame = false) := by
  induction maxItems generalizing e io with
  | zero =>
    cases hd
    exact ⟨h, fun _ => hidle⟩
  | succ maxItems ih =>
    rw [SerialMux.drainQueueClass] at hd
    cases hr : (e.queues cls).receive with
    | none =>
      rw [hr] at hd
      cases hd
      exact ⟨h, fun _ => hidle⟩
    | some taken =>
      obtain ⟨item, queue⟩ := taken
      obtain ⟨staged, hs, hpend, hstaged⟩ := h.receive laws hidle hr
      rw [hr] at hd
      simp only [hs] at hd
      cases hp : pumpPendingWireFrame port staged io with
      | mk pumped out =>
        obtain ⟨ioPumped, result⟩ := out
        obtain ⟨hpumped, hfree⟩ := hstaged.pump hpend hp
        rw [hp] at hd
        cases result with
        | completed => exact ih hpumped (hfree rfl) hd
        | idle =>
          cases hd
          exact ⟨hpumped, nofun⟩
        | pending =>
          cases hd
          exact ⟨hpumped, nofun⟩

theorem Framed.drainClasses (laws : CobsLaws codec) (order : List (PriorityClass × Nat))
    (h : Framed codec base e io) (hidle : e.hasPendingWireFrame = false) :
    Framed codec base (drainClasses codec port order e io).1
      (drainClasses codec port order e io).2 := by
  induction order generalizing e io with
  | nil => exact h
  | cons entry order ih =>
    obtain ⟨cls, maxItems⟩ := entry
    rw [SerialMux.drainClasses]
    cases hd : SerialMux.drainQueueClass codec port cls maxItems e io with
    | mk e' out =>
      obtain ⟨io', more⟩ := out
      obtain ⟨h', hfree⟩ := h.drainQueueClass laws cls maxItems hidle hd
      cases more with
      | true => exact ih h' (hfree rfl)
      | false => exact h'

theorem Framed.drainTx (laws : CobsLaws codec) (h : Framed codec base e io) :
    Framed codec base (drainTx codec port e io).1 (drainTx codec port e io).2 := by
  rw [SerialMux.drainTx]
  split
  · rename_i hpend
    cases hp : pumpPendingWireFrame port e io with
    | mk e' out =>
      obtain ⟨io', result⟩ := out
      obtain ⟨h', hfree⟩ := h.pump hpend hp
      cases result with
      | completed => exact h'.drainClasses laws drainOrder (hfree rfl)
      | idle => exact h'
      | pending => exact h'
  · rename_i hidle
    exact h.drainClasses laws drainOrder (Bool.eq_false_iff.2 hidle)

/-! ## Sessions -/

/-- What happens to the outbound side during a session. `host` is the other end
of the cable: what the port takes next may have nothing to do with what it took
before. -/
inductive TxOp (World : Type) where
  | enqueue (cls : PriorityClass) (frame : { f : Bytes // f ≠ [] })
  | drain
  | host (world : World)

def TxOp.apply (codec : Codec) (port : WriteFn World) (s : Egress × ByteIO World) :
    TxOp World → Egress × ByteIO World
  | .enqueue cls frame => ((enqueueFrameBytes s.1 cls frame).1, s.2)
  | .drain => drainTx codec port s.1 s.2
  | .host world => (s.1, { s.2 with world })

def runTx (codec : Codec) (port : WriteFn World) (s : Egress × ByteIO World)
    (ops : List (TxOp World)) : Egress × ByteIO World := ops.foldl (TxOp.apply codec port) s

/-- The outbound side when a session starts: the counters stay, the rest is new. -/
def startSession (e : Egress) : Egress := { resetQueues e with dequeued := [] }

theorem startSession_framed (e : Egress) (world : World) :
    Framed codec e.framesTx (startSession e) { world } where
  writes := ⟨rfl, fun hp => absurd hp (Nat.lt_irrefl 0)⟩
  framesTx := by simp [startSession, resetQueues, Egress.hasPendingWireFrame]
  queued _ _ hf := by cases hf
  dequeued _ hf := by cases hf

theorem Framed.apply (laws : CobsLaws codec) {s : Egress × ByteIO World}
    (h : Framed codec base s.1 s.2) (op : TxOp World) :
    Framed codec base (op.apply codec port s).1 (op.apply codec port s).2 := by
  cases op with
  | enqueue cls frame => exact h.enqueue cls frame.2
  | drain => exact h.drainTx laws
  | host world => exact ⟨h.writes, h.framesTx, h.queued, h.dequeued⟩

theorem Framed.run (laws : CobsLaws codec) (ops : List (TxOp World)) {s : Egress × ByteIO World}
    (h : Framed codec base s.1 s.2) :
    Framed codec base (runTx codec port s ops).1 (runTx codec port s ops).2 := by
  induction ops generalizing s with
  | nil => exact h
  | cons op ops ih => exact ih (h.apply laws op)

/-- The octets the port took are the blocks of the frames `done`, in order, and
`part` of the block of `current`; `rest` is what `current` still waits for. -/
structure OnWire (codec : Codec) (base : UInt64) (e : Egress) (accepted : Bytes)
    (done : List Bytes) (current : Option Bytes) (part rest : Bytes) : Prop where
  dequeued : e.dequeued = done ++ current.toList
  accepted : accepted = done.flatMap (wireBlock codec) ++ part
  framesTx : e.framesTx = base + UInt64.ofNat done.length
  idle : current = none → part = [] ∧ rest = []
  partly : ∀ frame, current = some frame → part ++ rest = wireBlock codec frame ∧ rest ≠ []
  pending : rest = e.pendingWire.bytes.drop e.pendingWire.offset

theorem Framed.onWire (h : Framed codec base e io) :
    ∃ done current part rest, OnWire codec base e io.accepted done current part rest := by
  have hcount := h.framesTx
  rcases h.writes.decompose with ⟨hidle, hsent⟩ | ⟨hpend, blocks, hblocks, hsent⟩
  · rw [if_neg fun hp => hidle (hasPending_iff.1 hp), UInt64.add_zero] at hcount
    refine ⟨e.dequeued, none, [], _, by simp, ?_, hcount,
      fun _ => ⟨rfl, BlockStream.rest_eq_nil.2 hidle⟩, nofun, rfl⟩
    rw [List.append_nil, List.flatMap_def]
    exact hsent
  · rw [if_pos (hasPending_iff.2 hpend)] at hcount
    obtain ⟨done, last, hdeq, rfl, hlast⟩ := List.map_eq_append_iff.1 hblocks
    obtain ⟨frame, rfl, hframe⟩ := List.map_eq_singleton_iff.1 hlast
    refine ⟨done, some frame, (wireStream e io).block.take (wireStream e io).offset, _, hdeq, ?_, ?_,
      nofun, ?_, rfl⟩
    · rw [List.flatMap_def]
      exact hsent
    · rw [hdeq, List.length_append, List.length_singleton, UInt64.ofNat_add,
        ← UInt64.add_assoc] at hcount
      exact (UInt64.add_left_inj _).1 hcount
    · rintro frame' ⟨rfl⟩
      refine ⟨(List.take_append_drop _ _).trans hframe.symm, fun hnil => ?_⟩
      have hrest : (wireStream e io).rest = [] := hnil
      exact BlockStream.rest_eq_nil.1 hrest hpend

/-- The counter moves with the last octet of a block and at no other `write`. -/
theorem pump_framesTx (port : WriteFn World) (e : Egress) (io : ByteIO World) :
    (pumpPendingWireFrame port e io).1.framesTx = e.framesTx +
      if e.hasPendingWireFrame ∧
        (wireStream e io).rest.length ≤ (port io.world (wireStream e io).rest).2 then 1 else 0 := by
  by_cases hpend : e.hasPendingWireFrame = true
  · have hpos : 0 < (wireStream e io).rest.length := by
      rw [List.length_pos_iff]
      exact fun hnil => BlockStream.rest_eq_nil.1 hnil (hasPending_iff.1 hpend)
    cases hp : pumpPendingWireFrame port e io with
    | mk e' out =>
      obtain ⟨io', result⟩ := out
      obtain ⟨-, ⟨h0, rfl, -⟩ | ⟨-, hlt, rfl, -⟩ | ⟨hle, rfl, -⟩⟩ := pump_cases hpend hp
      · rw [if_neg (by omega), UInt64.add_zero]
        unfold Egress.countStall
        split <;> rfl
      · rw [if_neg (by omega), UInt64.add_zero]
        rfl
      · rw [if_pos ⟨hpend, hle⟩]
  · rw [if_neg fun h => hpend h.1, UInt64.add_zero, pumpPendingWireFrame,
      Bool.eq_false_iff.2 hpend]
    rfl

/-- In every run of a session the octets the port took are the blocks of the
dequeued frames, in order, and part of the block in progress. Each block is a
delimiter, the encoding of its frame without one, and a delimiter. -/
theorem run_onWire {codec : Codec} (laws : CobsLaws codec) (port : WriteFn World) (e : Egress)
    (world : World) (ops : List (TxOp World)) :
    let s := runTx codec port (startSession e, { world }) ops
    (∃ done current part rest,
      OnWire codec e.framesTx s.1 s.2.accepted done current part rest) ∧
    (∀ frame ∈ s.1.dequeued, ∃ encoded, codec.cobsEncode frame kMaxCobsBytes = some encoded ∧
      0 ∉ encoded ∧ wireBlock codec frame = 0 :: encoded ++ [0]) ∧
    ((pumpPendingWireFrame port s.1 s.2).1.framesTx = s.1.framesTx +
      if s.1.hasPendingWireFrame ∧
        (wireStream s.1 s.2).rest.length ≤ (port s.2.world (wireStream s.1 s.2).rest).2
      then 1 else 0) := by
  intro s
  have h : Framed codec e.framesTx s.1 s.2 :=
    Framed.run laws ops (s := (startSession e, { world })) (startSession_framed e world)
  refine ⟨h.onWire, fun frame hmem => ?_, pump_framesTx port s.1 s.2⟩
  obtain ⟨encoded, henc⟩ := cobsEncode_eq_some laws (h.dequeued frame hmem)
  exact ⟨encoded, henc, laws.no_zero _ _ _ henc, by simp [wireBlock, henc]⟩

/-- The reference encoder behind the buffer check of the library. -/
def referenceCodec : Codec where
  decode _ _ := .error .other
  encode _ _ _ := none
  cobsEncode data outCapacity :=
    if (Cobs.encode data).length ≤ outCapacity then some (Cobs.encode data) else none

theorem referenceCodec_laws : CobsLaws referenceCodec where
  succeeds data outCapacity _ hcap := by
    have := Cobs.length_encode_le data
    simp only [referenceCodec, if_pos (Nat.le_trans this hcap), Option.isSome_some]
  no_zero data outCapacity encoded h := by
    simp only [referenceCodec, Option.ite_none_right_eq_some] at h
    obtain ⟨-, h⟩ := h
    cases h
    exact Cobs.zero_notMem_encode data

/-- A port that takes three octets a call: a telemetry frame is half out when a
session frame arrives. -/
def twoFrames : List (TxOp Nat) :=
  [.enqueue .telemetry ⟨[7, 0, 8], by decide⟩, .drain, .enqueue .session ⟨[9], by decide⟩, .drain]

theorem run_onWire_twoFrames :
    CobsLaws referenceCodec ∧
    let s := runTx referenceCodec (fun room _ => (room, room)) (startSession {}, { world := 3 }) twoFrames
    s.2.accepted = [0, 2, 7, 2, 8, 0, 0, 2, 9] ∧
    ∃ done current part rest,
      OnWire referenceCodec 0 s.1 s.2.accepted done current part rest :=
  ⟨referenceCodec_laws, by decide,
    (run_onWire referenceCodec_laws (fun room _ => (room, room)) {} 3 twoFrames).1⟩

end BallyDongle.SerialMux
