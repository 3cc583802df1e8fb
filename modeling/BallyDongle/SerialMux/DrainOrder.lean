import BallyDongle.SerialMux.WireFraming

/-!
# The order of a drain

One `drainTx` call resumes the pending frame, then takes from the queues by
priority, each class up to its burst, until a `write` does not complete a frame.
`recording` is a port that keeps a log of its calls; the drain cannot tell it
from the port it wraps.
-/

namespace BallyDongle.SerialMux

open Btp SerialSession

/-- One call of `write`. -/
structure Write where
  offered : Bytes
  taken : Nat

/-- The port took what was left of the frame. -/
def Write.Completes (w : Write) : Prop := w.offered.length ≤ w.taken

variable {World : Type} {codec : Codec} {port : WriteFn World}

def recording (port : WriteFn World) : WriteFn (World × List Write) := fun log data =>
  let (world, sent) := port log.1 data
  ((world, log.2 ++ [{ offered := data, taken := sent }]), sent)

def ByteIO.erase (io : ByteIO (World × List Write)) : ByteIO World :=
  { world := io.world.1, accepted := io.accepted }

/-! ## The log is invisible -/

theorem pump_erase (e : Egress) (io : ByteIO (World × List Write)) :
    pumpPendingWireFrame port e io.erase =
      ((pumpPendingWireFrame (recording port) e io).1,
        (pumpPendingWireFrame (recording port) e io).2.1.erase,
        (pumpPendingWireFrame (recording port) e io).2.2) := by
  simp only [pumpPendingWireFrame, ByteIO.write, recording, ByteIO.erase]
  by_cases hpend : e.hasPendingWireFrame = true
  · by_cases hzero : (port io.world.1 (e.pendingWire.bytes.drop e.pendingWire.offset)).2 = 0
    · simp [hpend, hzero]
    · by_cases hmore : (e.advance (port io.world.1
        (e.pendingWire.bytes.drop e.pendingWire.offset)).2).hasPendingWireFrame = true
      · simp [hpend, hzero, hmore]
      · simp [hpend, hzero, hmore]
  · simp [hpend]

theorem drainQueueClass_erase (cls : PriorityClass) (maxItems : Nat) (e : Egress)
    (io : ByteIO (World × List Write)) :
    drainQueueClass codec port cls maxItems e io.erase =
      ((drainQueueClass codec (recording port) cls maxItems e io).1,
        (drainQueueClass codec (recording port) cls maxItems e io).2.1.erase,
        (drainQueueClass codec (recording port) cls maxItems e io).2.2) := by
  induction maxItems generalizing e io with
  | zero => rfl
  | succ maxItems ih =>
    rw [drainQueueClass, drainQueueClass]
    cases (e.queues cls).receive with
    | none => rfl
    | some taken =>
      obtain ⟨item, queue⟩ := taken
      dsimp only
      cases stageFrameCobs codec { e.setQueue cls queue with dequeued := e.dequeued ++ [item.bytes] }
        item.bytes with
      | mk staged more =>
        cases more with
        | false => rfl
        | true =>
          dsimp only
          rw [pump_erase]
          cases pumpPendingWireFrame (recording port) staged io with
          | mk pumped out =>
            obtain ⟨ioPumped, result⟩ := out
            cases result with
            | completed => exact ih pumped ioPumped
            | idle => rfl
            | pending => rfl

theorem drainClasses_erase (order : List (PriorityClass × Nat)) (e : Egress)
    (io : ByteIO (World × List Write)) :
    drainClasses codec port order e io.erase =
      ((drainClasses codec (recording port) order e io).1,
        (drainClasses codec (recording port) order e io).2.erase) := by
  induction order generalizing e io with
  | nil => rfl
  | cons entry order ih =>
    obtain ⟨cls, maxItems⟩ := entry
    rw [drainClasses, drainClasses, drainQueueClass_erase]
    cases drainQueueClass codec (recording port) cls maxItems e io with
    | mk drained out =>
      obtain ⟨ioDrained, more⟩ := out
      cases more with
      | true => exact ih drained ioDrained
      | false => rfl

theorem drainTx_erase (e : Egress) (io : ByteIO (World × List Write)) :
    drainTx codec port e io.erase =
      ((drainTx codec (recording port) e io).1, (drainTx codec (recording port) e io).2.erase) := by
  rw [drainTx, drainTx]
  split
  · rw [pump_erase]
    cases pumpPendingWireFrame (recording port) e io with
    | mk pumped out =>
      obtain ⟨ioPumped, result⟩ := out
      cases result with
      | completed => exact drainClasses_erase drainOrder pumped ioPumped
      | idle => rfl
      | pending => rfl
  · exact drainClasses_erase drainOrder e io

/-! ## What is written -/

/-- `stageFrameCobs` takes the frame. -/
def Stages (codec : Codec) (frame : Bytes) : Prop :=
  frame ≠ [] ∧ (codec.cobsEncode frame kMaxCobsBytes).isSome = true

/-- The frames of a drain and the writes of their blocks: one for each, all of them
complete but for the last. `more` says that the port took everything. -/
inductive Sent (codec : Codec) : (frames : List Bytes) → List Write → (more : Bool) → Prop
  | done : Sent codec [] [] true
  | unstaged {frame} (h : ¬Stages codec frame) : Sent codec [frame] [] false
  | stalled {frame w} (offered : w.offered = wireBlock codec frame) (h : ¬w.Completes) :
      Sent codec [frame] [w] false
  | next {frame frames w writes more} (offered : w.offered = wireBlock codec frame)
      (h : w.Completes) (rest : Sent codec frames writes more) :
      Sent codec (frame :: frames) (w :: writes) more

variable {frames frames' : List Bytes} {writes writes' : List Write} {more : Bool}

theorem Sent.append (h : Sent codec frames writes true) (h' : Sent codec frames' writes' more) :
    Sent codec (frames ++ frames') (writes ++ writes') more := by
  generalize htrue : true = b at h
  induction h with
  | done => exact h'
  | unstaged => cases htrue
  | stalled => cases htrue
  | next offered hfull _ ih => exact .next offered hfull (ih htrue)

theorem Sent.offered (h : Sent codec frames writes more) :
    writes.map Write.offered <+: frames.map (wireBlock codec) := by
  induction h with
  | done => exact List.prefix_refl []
  | unstaged => exact List.nil_prefix
  | stalled hoffered => exact ⟨[], by simp [hoffered]⟩
  | next hoffered _ _ ih =>
    rw [List.map_cons, List.map_cons, hoffered]
    exact List.cons_prefix_cons.2 ⟨rfl, ih⟩

theorem Sent.written (h : Sent codec frames writes more) (hstages : ∀ f ∈ frames, Stages codec f) :
    writes.length = frames.length := by
  induction h with
  | done => rfl
  | unstaged hnot => exact absurd (hstages _ List.mem_cons_self) hnot
  | stalled => rfl
  | next _ _ _ ih =>
    rw [List.length_cons, List.length_cons, ih fun f hf => hstages f (List.mem_cons_of_mem _ hf)]

/-- Nothing is taken after a write that does not complete its frame. -/
theorem Sent.stops (h : Sent codec frames writes more) {before after : List Write} {w : Write}
    (hsplit : writes = before ++ w :: after) (hw : ¬w.Completes) :
    after = [] ∧ frames.length = before.length + 1 := by
  induction h generalizing before with
  | done => simp at hsplit
  | unstaged => simp at hsplit
  | stalled =>
    cases before with
    | nil =>
      cases hsplit
      exact ⟨rfl, rfl⟩
    | cons _ before => simp at hsplit
  | next _ hfull _ ih =>
    cases before with
    | nil =>
      cases hsplit
      exact absurd hfull hw
    | cons first before =>
      obtain ⟨hafter, hlen⟩ := ih (List.cons.inj hsplit).2
      exact ⟨hafter, by rw [List.length_cons, List.length_cons, hlen]⟩

/-! ## One write, one class -/

variable {e : Egress} {io : ByteIO (World × List Write)}

@[simp] theorem countStall_queues (e : Egress) : e.countStall.queues = e.queues := by
  unfold Egress.countStall
  split <;> rfl

@[simp] theorem countStall_dequeued (e : Egress) : e.countStall.dequeued = e.dequeued := by
  unfold Egress.countStall
  split <;> rfl

theorem pump_io {io : ByteIO World} (hpend : e.hasPendingWireFrame = true) :
    (pumpPendingWireFrame port e io).2.1 =
      (io.write port (e.pendingWire.bytes.drop e.pendingWire.offset)).1 := by
  rw [pumpPendingWireFrame]
  cases hw : io.write port (e.pendingWire.bytes.drop e.pendingWire.offset) with
  | mk io' sent =>
    simp only [hpend, Bool.not_true, Bool.false_eq_true, if_false, hw]
    split
    · rfl
    · split <;> rfl

/-- A pending block is offered once: it completes, or it is pending still. -/
theorem pump_recording (hpend : e.hasPendingWireFrame = true) {e' : Egress}
    {io' : ByteIO (World × List Write)} {result : WirePumpResult}
    (hp : pumpPendingWireFrame (recording port) e io = (e', io', result)) :
    ∃ w : Write, w.offered = e.pendingWire.bytes.drop e.pendingWire.offset ∧
      io'.world.2 = io.world.2 ++ [w] ∧ e'.queues = e.queues ∧ e'.dequeued = e.dequeued ∧
      (w.Completes ∧ result = .completed ∧ e'.hasPendingWireFrame = false ∨
        ¬w.Completes ∧ result = .pending) := by
  have hlog : (pumpPendingWireFrame (recording port) e io).2.1.world.2 = io.world.2 ++
      [⟨e.pendingWire.bytes.drop e.pendingWire.offset,
        (port io.world.1 (e.pendingWire.bytes.drop e.pendingWire.offset)).2⟩] := by
    rw [pump_io hpend]
    rfl
  have hlt : e.pendingWire.offset < e.pendingWire.bytes.length := of_decide_eq_true hpend
  obtain ⟨-, ⟨hzero, rfl, rfl⟩ | ⟨-, hsent, rfl, rfl⟩ | ⟨hsent, rfl, rfl⟩⟩ := pump_cases hpend hp
  · rw [hp] at hlog
    refine ⟨_, rfl, hlog, countStall_queues e, countStall_dequeued e, .inr ⟨?_, rfl⟩⟩
    have htaken : (port io.world.1 (e.pendingWire.bytes.drop e.pendingWire.offset)).2 = 0 := hzero
    simp only [Write.Completes, htaken, List.length_drop]
    omega
  · rw [hp] at hlog
    exact ⟨_, rfl, hlog, rfl, rfl, .inr ⟨Nat.not_le.2 hsent, rfl⟩⟩
  · rw [hp] at hlog
    exact ⟨_, rfl, hlog, rfl, rfl, .inl ⟨hsent, rfl, by simp [Egress.hasPendingWireFrame]⟩⟩

theorem stage_cases (hidle : e.hasPendingWireFrame = false) (frame : Bytes) :
    (Stages codec frame ∧ stageFrameCobs codec e frame =
      ({ e with pendingWire := { bytes := wireBlock codec frame } }, true)) ∨
    (¬Stages codec frame ∧ ∃ e', stageFrameCobs codec e frame = (e', false) ∧
      e'.queues = e.queues ∧ e'.dequeued = e.dequeued) := by
  by_cases hne : frame = []
  · exact .inr ⟨fun h => h.1 hne, e, by simp [stageFrameCobs, hne], rfl, rfl⟩
  · cases henc : codec.cobsEncode frame kMaxCobsBytes with
    | some encoded =>
      exact .inl ⟨⟨hne, by rw [henc]; rfl⟩, stageFrameCobs_eq hidle hne henc⟩
    | none =>
      refine .inr ⟨fun h => ?_, { e with pendingWire := {} }, ?_, rfl, rfl⟩
      · rw [Stages, henc] at h
        cases h.2
      · simp [stageFrameCobs, hidle, hne, henc]

/-- What draining one class did: `frames` left its queue, in order. -/
structure DrainedClass (codec : Codec) (cls : PriorityClass) (maxItems : Nat) (e e' : Egress)
    (frames : List Bytes) (writes : List Write) (more : Bool) : Prop where
  sent : Sent codec frames writes more
  taken : e.queues.frames cls = frames ++ e'.queues.frames cls
  others : ∀ other, other ≠ cls → e'.queues other = e.queues other
  dequeued : e'.dequeued = e.dequeued ++ frames
  burst : frames.length ≤ maxItems
  idle : more = true → e'.hasPendingWireFrame = false
  spent : more = true → e'.queues.frames cls = [] ∨ frames.length = maxItems

theorem setQueue_queues_of_ne (e : Egress) {cls other : PriorityClass}
    (queue : BoundedQueue (QueuedFrame cls) (kQueueDepth cls)) (h : other ≠ cls) :
    (e.setQueue cls queue).queues other = e.queues other := Function.update_of_ne h _ _

/-- A frame whose block was completed, and the rest of the burst. -/
theorem DrainedClass.next {cls : PriorityClass} {maxItems : Nat} {e₁ e' : Egress} {frame : Bytes}
    {w : Write} {queue : BoundedQueue (QueuedFrame cls) (kQueueDepth cls)}
    (hframes : e.queues.frames cls = frame :: queue.items.map QueuedFrame.bytes)
    (hqueues : e₁.queues = (e.setQueue cls queue).queues)
    (hdequeued : e₁.dequeued = e.dequeued ++ [frame]) (hoffered : w.offered = wireBlock codec frame)
    (hfull : w.Completes) (h : DrainedClass codec cls maxItems e₁ e' frames writes more) :
    DrainedClass codec cls (maxItems + 1) e e' (frame :: frames) (w :: writes) more where
  sent := .next hoffered hfull h.sent
  taken := by
    have htaken := h.taken
    rw [hqueues, setQueue_frames_self] at htaken
    rw [hframes, htaken, List.cons_append]
  others other hne := by rw [h.others other hne, hqueues, setQueue_queues_of_ne e queue hne]
  dequeued := by rw [h.dequeued, hdequeued, List.append_assoc, List.singleton_append]
  burst := Nat.succ_le_succ h.burst
  idle := h.idle
  spent hmore := (h.spent hmore).imp_right fun hlen => by rw [List.length_cons, hlen]

/-- A frame whose block was not completed ends the drain. -/
theorem DrainedClass.single {cls : PriorityClass} {maxItems : Nat} {e' : Egress} {frame : Bytes}
    {queue : BoundedQueue (QueuedFrame cls) (kQueueDepth cls)}
    (hframes : e.queues.frames cls = frame :: queue.items.map QueuedFrame.bytes)
    (hqueues : e'.queues = (e.setQueue cls queue).queues)
    (hdequeued : e'.dequeued = e.dequeued ++ [frame]) (hsent : Sent codec [frame] writes false) :
    DrainedClass codec cls (maxItems + 1) e e' [frame] writes false where
  sent := hsent
  taken := by rw [hqueues, setQueue_frames_self, hframes, List.singleton_append]
  others other hne := by rw [hqueues, setQueue_queues_of_ne e queue hne]
  dequeued := hdequeued
  burst := by simp
  idle := nofun
  spent := nofun

theorem drainQueueClass_drained (cls : PriorityClass) (maxItems : Nat)
    (hidle : e.hasPendingWireFrame = false) {e' : Egress} {io' : ByteIO (World × List Write)}
    (hd : drainQueueClass codec (recording port) cls maxItems e io = (e', io', more)) :
    ∃ frames writes, io'.world.2 = io.world.2 ++ writes ∧
      DrainedClass codec cls maxItems e e' frames writes more := by
  induction maxItems generalizing e io with
  | zero =>
    cases hd
    exact ⟨[], [], (List.append_nil _).symm, .done, rfl, fun _ _ => rfl, (List.append_nil _).symm,
      Nat.le_refl 0, fun _ => hidle, fun _ => .inr rfl⟩
  | succ maxItems ih =>
    rw [drainQueueClass] at hd
    cases hr : (e.queues cls).receive with
    | none =>
      have hempty : e.queues.frames cls = [] := by
        rw [Queues.frames, BoundedQueue.receive_eq_none.1 hr, List.map_nil]
      rw [hr] at hd
      cases hd
      exact ⟨[], [], (List.append_nil _).symm, .done, rfl, fun _ _ => rfl,
        (List.append_nil _).symm, Nat.zero_le _, fun _ => hidle, fun _ => .inl hempty⟩
    | some taken =>
      obtain ⟨item, queue⟩ := taken
      have hframes : e.queues.frames cls = item.bytes :: queue.items.map QueuedFrame.bytes := by
        rw [Queues.frames, BoundedQueue.receive_eq_some hr, List.map_cons]
      rw [hr] at hd
      dsimp only at hd
      obtain ⟨hstages, hs⟩ | ⟨hnot, staged, hs, hqueues, hdequeued⟩ :=
        @stage_cases codec { e.setQueue cls queue with
          dequeued := e.dequeued ++ [item.bytes] } hidle item.bytes
      · rw [hs] at hd
        dsimp only at hd
        cases hp : pumpPendingWireFrame (recording port)
          { e.setQueue cls queue with
            dequeued := e.dequeued ++ [item.bytes]
            pendingWire := { bytes := wireBlock codec item.bytes } } io with
        | mk pumped out =>
          obtain ⟨ioPumped, result⟩ := out
          have hpend : Egress.hasPendingWireFrame { e.setQueue cls queue with
              dequeued := e.dequeued ++ [item.bytes]
              pendingWire := { bytes := wireBlock codec item.bytes } } = true :=
            decide_eq_true (List.length_pos_of_ne_nil (wireBlock_ne_nil codec item.bytes))
          obtain ⟨w, hoffered, hlog, hqueues, hdequeued, ⟨hfull, rfl, hfree⟩ | ⟨hpart, rfl⟩⟩ :=
            pump_recording hpend hp
          · rw [hp] at hd
            obtain ⟨frames, writes, hlog', h⟩ := ih hfree hd
            refine ⟨item.bytes :: frames, w :: writes, ?_,
              .next hframes hqueues hdequeued hoffered hfull h⟩
            rw [hlog', hlog, List.append_assoc, List.singleton_append]
          · rw [hp] at hd
            cases hd
            exact ⟨[item.bytes], [w], hlog,
              .single hframes hqueues hdequeued (.stalled hoffered hpart)⟩
      · rw [hs] at hd
        cases hd
        exact ⟨[item.bytes], [], (List.append_nil _).symm,
          .single hframes hqueues hdequeued (.unstaged hnot)⟩

/-! ## All classes -/

/-- The frames a drain started, class after class. -/
def inTurn (order : List (PriorityClass × Nat)) (started : PriorityClass → List Bytes) :
    List Bytes := order.flatMap fun entry => started entry.1

/-- What draining the classes of `order` did: `started` names the frames taken of
each class. -/
structure DrainedOrder (codec : Codec) (order : List (PriorityClass × Nat)) (e e' : Egress)
    (started : PriorityClass → List Bytes) (writes : List Write) (more : Bool) : Prop where
  sent : Sent codec (inTurn order started) writes more
  taken : ∀ cls, e.queues.frames cls = started cls ++ e'.queues.frames cls
  dequeued : e'.dequeued = e.dequeued ++ inTurn order started
  burst : ∀ entry ∈ order, (started entry.1).length ≤ entry.2
  absent : ∀ cls, cls ∉ order.map Prod.fst → started cls = []
  priority : order.Pairwise fun higher lower => started lower.1 ≠ [] →
    e'.queues.frames higher.1 = [] ∨ (started higher.1).length = higher.2

variable {order : List (PriorityClass × Nat)} {started : PriorityClass → List Bytes}

theorem update_of_new {cls : PriorityClass} (hnew : cls ∉ order.map Prod.fst)
    (started : PriorityClass → List Bytes) (frames : List Bytes) :
    ∀ entry ∈ order, Function.update started cls frames entry.1 = started entry.1 := by
  intro entry hentry
  refine Function.update_of_ne (fun heq => hnew ?_) _ _
  rw [← heq]
  exact List.mem_map_of_mem hentry

theorem DrainedOrder.start (e : Egress) :
    DrainedOrder codec order e e (fun _ => []) [] true where
  sent := by
    rw [inTurn, List.flatMap_eq_nil_iff.2 fun _ _ => rfl]
    exact .done
  taken _ := rfl
  dequeued := by rw [inTurn, List.flatMap_eq_nil_iff.2 fun _ _ => rfl, List.append_nil]
  burst _ _ := Nat.zero_le _
  absent _ _ := rfl
  priority := List.pairwise_of_forall fun _ _ h => absurd rfl h

/-- A class drained in front of the rest. -/
theorem DrainedClass.cons {cls : PriorityClass} {maxItems : Nat} {e₁ e' : Egress}
    (hclass : DrainedClass codec cls maxItems e e₁ frames writes true)
    (h : DrainedOrder codec order e₁ e' started writes' more) (hnew : cls ∉ order.map Prod.fst) :
    DrainedOrder codec ((cls, maxItems) :: order) e e' (Function.update started cls frames)
      (writes ++ writes') more := by
  have hother := update_of_new hnew started frames
  have hturn : inTurn ((cls, maxItems) :: order) (Function.update started cls frames) =
      frames ++ inTurn order started := by
    rw [inTurn, List.flatMap_cons, Function.update_self, inTurn, List.flatMap_congr hother]
  have hkept : e'.queues.frames cls = e₁.queues.frames cls := by
    rw [h.taken cls, h.absent cls hnew, List.nil_append]
  refine
    { sent := ?_, taken := fun other => ?_, dequeued := ?_, burst := ?_, absent := fun other hno => ?_
      priority := ?_ }
  · rw [hturn]
    exact hclass.sent.append h.sent
  · by_cases hcls : other = cls
    · rw [hcls, Function.update_self, hkept]
      exact hclass.taken
    · rw [Function.update_of_ne hcls, ← h.taken other, Queues.frames, ← hclass.others other hcls]
      rfl
  · rw [hturn, h.dequeued, hclass.dequeued, List.append_assoc]
  · refine List.forall_mem_cons.2 ⟨?_, fun entry hentry => ?_⟩
    · rw [Function.update_self]
      exact hclass.burst
    · rw [hother entry hentry]
      exact h.burst entry hentry
  · rw [List.map_cons, List.mem_cons, not_or] at hno
    rw [Function.update_of_ne hno.1]
    exact h.absent other hno.2
  · refine List.pairwise_cons.2 ⟨fun lower _ _ => ?_, ?_⟩
    · rw [Function.update_self, hkept]
      exact hclass.spent rfl
    · refine h.priority.imp_of_mem fun {higher lower} hhigher hlower hspent hstarted => ?_
      rw [hother higher hhigher]
      rw [hother lower hlower] at hstarted
      exact hspent hstarted

/-- A class that ended the drain. -/
theorem DrainedClass.last {cls : PriorityClass} {maxItems : Nat} {e' : Egress}
    (hclass : DrainedClass codec cls maxItems e e' frames writes false)
    (hnew : cls ∉ order.map Prod.fst) :
    DrainedOrder codec ((cls, maxItems) :: order) e e' (Function.update (fun _ => []) cls frames)
      writes false := by
  have hother := update_of_new hnew (fun _ => []) frames
  have hturn : inTurn ((cls, maxItems) :: order) (Function.update (fun _ => []) cls frames) =
      frames := by
    rw [inTurn, List.flatMap_cons, Function.update_self, List.flatMap_eq_nil_iff.2 hother,
      List.append_nil]
  refine
    { sent := ?_, taken := fun other => ?_, dequeued := ?_, burst := ?_, absent := fun other hno => ?_
      priority := ?_ }
  · rw [hturn]
    exact hclass.sent
  · by_cases hcls : other = cls
    · rw [hcls, Function.update_self]
      exact hclass.taken
    · rw [Function.update_of_ne hcls, Queues.frames, Queues.frames, hclass.others other hcls]
      rfl
  · rw [hturn, hclass.dequeued]
  · refine List.forall_mem_cons.2 ⟨?_, fun entry hentry => ?_⟩
    · rw [Function.update_self]
      exact hclass.burst
    · rw [hother entry hentry]
      exact Nat.zero_le _
  · rw [List.map_cons, List.mem_cons, not_or] at hno
    exact Function.update_of_ne hno.1 _ _
  · refine List.pairwise_cons.2 ⟨fun lower hlower hstarted => ?_, ?_⟩
    · exact absurd (hother lower hlower) hstarted
    · exact List.pairwise_of_forall_mem_list fun _ _ lower hlower hstarted =>
        absurd (hother lower hlower) hstarted

theorem drainClasses_drained (hidle : e.hasPendingWireFrame = false)
    (hnodup : (order.map Prod.fst).Nodup) :
    ∃ started writes more,
      (drainClasses codec (recording port) order e io).2.world.2 = io.world.2 ++ writes ∧
        DrainedOrder codec order e (drainClasses codec (recording port) order e io).1 started writes
          more := by
  induction order generalizing e io with
  | nil => exact ⟨fun _ => [], [], true, (List.append_nil _).symm, .start e⟩
  | cons entry order ih =>
    obtain ⟨cls, maxItems⟩ := entry
    obtain ⟨hnew, hnodup⟩ := List.nodup_cons.1 hnodup
    rw [drainClasses]
    cases hd : drainQueueClass codec (recording port) cls maxItems e io with
    | mk drained out =>
      obtain ⟨ioDrained, more⟩ := out
      obtain ⟨frames, writes, hlog, hclass⟩ := drainQueueClass_drained cls maxItems hidle hd
      cases more with
      | true =>
        obtain ⟨started, writes', more', hlog', h⟩ := @ih drained ioDrained (hclass.idle rfl) hnodup
        refine ⟨_, _, _, ?_, hclass.cons h hnew⟩
        dsimp only
        rw [hlog', hlog, List.append_assoc]
      | false => exact ⟨_, _, _, hlog, hclass.last hnew⟩

/-! ## One call -/

/-- The blocks of a call: what is left of the pending one, then those of the frames
it starts. -/
def toWrite (codec : Codec) (e : Egress) (frames : List Bytes) : List Bytes :=
  (if e.hasPendingWireFrame then [e.pendingWire.bytes.drop e.pendingWire.offset] else []) ++
    frames.map (wireBlock codec)

/-- The calls of `write` in one `drainTx`. -/
def drainWrites (codec : Codec) (port : WriteFn World) (e : Egress) (io : ByteIO World) :
    List Write :=
  (drainTx codec (recording port) e
    { world := (io.world, []), accepted := io.accepted }).2.world.2

/-- From `e` to `e'` frames are started by priority, each class in order and within
its burst: one of a class only when every higher class has nothing left or spent its
burst. The blocks are offered one for each write, and after a write that does not
complete its block there is no other and no frame is taken. -/
structure InOrder (codec : Codec) (e e' : Egress) (writes : List Write)
    (started : PriorityClass → List Bytes) : Prop where
  dequeued : e'.dequeued = e.dequeued ++ inTurn drainOrder started
  fifo : ∀ cls, e.queues.frames cls = started cls ++ e'.queues.frames cls
  burst : ∀ entry ∈ drainOrder, (started entry.1).length ≤ entry.2
  priority : drainOrder.Pairwise fun higher lower => started lower.1 ≠ [] →
    e'.queues.frames higher.1 = [] ∨ (started higher.1).length = higher.2
  offered : writes.map Write.offered <+: toWrite codec e (inTurn drainOrder started)
  written : (∀ f ∈ inTurn drainOrder started, Stages codec f) →
    writes.length = (toWrite codec e (inTurn drainOrder started)).length
  stops : ∀ before w after, writes = before ++ w :: after → ¬w.Completes →
    after = [] ∧ (toWrite codec e (inTurn drainOrder started)).length = before.length + 1

/-- Nothing is pending: the call is the drain of the classes. -/
theorem DrainedOrder.inOrder {e' : Egress} (hidle : e.hasPendingWireFrame = false)
    (h : DrainedOrder codec drainOrder e e' started writes more) :
    InOrder codec e e' writes started := by
  have hblocks : toWrite codec e (inTurn drainOrder started) =
      (inTurn drainOrder started).map (wireBlock codec) := by
    rw [toWrite, hidle]
    rfl
  refine
    { dequeued := h.dequeued, fifo := h.taken, burst := h.burst, priority := h.priority
      offered := ?_, written := fun hstages => ?_, stops := fun before w after hsplit hw => ?_ }
  · rw [hblocks]
    exact h.sent.offered
  · rw [hblocks, List.length_map]
    exact h.sent.written hstages
  · rw [hblocks, List.length_map]
    exact h.sent.stops hsplit hw

/-- The pending block completed first. -/
theorem DrainedOrder.resumed {e₁ e' : Egress} {w : Write} (hpend : e.hasPendingWireFrame = true)
    (hw : w.offered = e.pendingWire.bytes.drop e.pendingWire.offset) (hfull : w.Completes)
    (hqueues : e₁.queues = e.queues) (hdequeued : e₁.dequeued = e.dequeued)
    (h : DrainedOrder codec drainOrder e₁ e' started writes more) :
    InOrder codec e e' (w :: writes) started := by
  have hblocks : toWrite codec e (inTurn drainOrder started) =
      w.offered :: (inTurn drainOrder started).map (wireBlock codec) := by
    rw [toWrite, hpend, hw]
    rfl
  refine
    { dequeued := by rw [h.dequeued, hdequeued], fifo := by rw [← hqueues]; exact h.taken
      burst := h.burst, priority := h.priority
      offered := ?_, written := fun hstages => ?_, stops := fun before first after hsplit hpart => ?_ }
  · rw [hblocks, List.map_cons]
    exact List.cons_prefix_cons.2 ⟨rfl, h.sent.offered⟩
  · rw [hblocks, List.length_cons, List.length_cons, List.length_map, h.sent.written hstages]
  · rw [hblocks, List.length_cons, List.length_map]
    cases before with
    | nil =>
      cases hsplit
      exact absurd hfull hpart
    | cons _ before =>
      obtain ⟨hafter, hlen⟩ := h.sent.stops (List.cons.inj hsplit).2 hpart
      exact ⟨hafter, by rw [hlen, List.length_cons]⟩

/-- The pending block did not complete: the call ends. -/
theorem inOrder_stalled {e' : Egress} {w : Write} (hpend : e.hasPendingWireFrame = true)
    (hw : w.offered = e.pendingWire.bytes.drop e.pendingWire.offset)
    (hqueues : e'.queues = e.queues) (hdequeued : e'.dequeued = e.dequeued) :
    InOrder codec e e' [w] fun _ => [] := by
  have hblocks : toWrite codec e (inTurn drainOrder fun _ => []) = [w.offered] := by
    rw [toWrite, hpend, hw]
    rfl
  refine
    { dequeued := ?_, fifo := fun cls => ?_, burst := fun _ _ => Nat.zero_le _
      priority := List.pairwise_of_forall fun _ _ h => absurd rfl h
      offered := ?_, written := fun _ => ?_, stops := fun before first after hsplit _ => ?_ }
  · rw [hdequeued]
    exact (List.append_nil _).symm
  · rw [hqueues, List.nil_append]
  · rw [hblocks]
    exact List.prefix_refl _
  · rw [hblocks]
    rfl
  · cases before with
    | nil =>
      cases hsplit
      exact ⟨rfl, by rw [hblocks]; rfl⟩
    | cons _ before => simp at hsplit

/-- One `drainTx` call, whatever the queues hold, is pending, and the port takes. -/
theorem drainTx_inOrder (codec : Codec) (port : WriteFn World) (e : Egress) (io : ByteIO World) :
    ∃ started,
      InOrder codec e (drainTx codec port e io).1 (drainWrites codec port e io) started := by
  have herase := @drainTx_erase _ codec port e
    { world := (io.world, []), accepted := io.accepted }
  have hstate : (drainTx codec port e io).1 = (drainTx codec (recording port) e
      { world := (io.world, []), accepted := io.accepted }).1 := congrArg Prod.fst herase
  have hnodup : (drainOrder.map Prod.fst).Nodup := by decide
  rw [hstate, drainWrites, drainTx]
  cases hpend : e.hasPendingWireFrame with
  | false =>
    obtain ⟨started, writes, more, hlog, h⟩ := @drainClasses_drained _ codec port _
      { world := (io.world, []), accepted := io.accepted } _ hpend hnodup
    rw [List.nil_append] at hlog
    refine ⟨started, ?_⟩
    rw [if_neg (by decide), hlog]
    exact h.inOrder hpend
  | true =>
    rw [if_pos rfl]
    cases hp : pumpPendingWireFrame (recording port) e
      { world := (io.world, []), accepted := io.accepted } with
    | mk pumped out =>
      obtain ⟨ioPumped, result⟩ := out
      obtain ⟨w, hw, hlog, hqueues, hdequeued, ⟨hfull, rfl, hfree⟩ | ⟨hpart, rfl⟩⟩ :=
        pump_recording hpend hp
      · obtain ⟨started, writes, more, hlog', h⟩ := @drainClasses_drained _ codec port _
          ioPumped _ hfree hnodup
        refine ⟨started, ?_⟩
        dsimp only
        rw [hlog', hlog]
        exact h.resumed hpend hw hfull hqueues hdequeued
      · refine ⟨fun _ => [], ?_⟩
        dsimp only
        rw [hlog]
        exact inOrder_stalled hpend hw hqueues hdequeued

end BallyDongle.SerialMux
