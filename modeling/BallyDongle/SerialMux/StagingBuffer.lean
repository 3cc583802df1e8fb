import BallyDongle.Lib.Run
import BallyDongle.SerialMux.State

/-!
# The staging buffer

`enqueueOwn` encodes into one static array and queues a copy of it. The main loop
calls it, and so does the `espnow_rx` worker, which writes the result of a command
to the terminal: what a call queues is what the array holds at its second step.
-/

namespace BallyDongle.SerialMux

open Btp SerialSession

/-! ## What enqueuing does to the queues -/

/-- The frame is in the queue of its class once, behind what is left there of the
older ones. -/
def Places (before after : Queues) (cls : PriorityClass) (frame : Bytes) : Prop :=
  (∃ kept, kept <:+ before.frames cls ∧ after.frames cls = kept ++ [frame]) ∧
    ∀ other, other ≠ cls → after other = before other

theorem Places.newest {before after : Queues} {cls : PriorityClass} {frame : Bytes}
    (h : Places before after cls frame) : (after.frames cls).getLast? = some frame := by
  obtain ⟨⟨kept, -, hafter⟩, -⟩ := h
  rw [hafter, List.getLast?_concat]

theorem setQueue_places {e : Egress} {cls : PriorityClass} {item : QueuedFrame cls}
    {queue kept : BoundedQueue (QueuedFrame cls) (kQueueDepth cls)}
    (hkept : kept.items <:+ (e.queues cls).items) (hsend : kept.send item = some queue) :
    Places e.queues (e.setQueue cls queue).queues cls item.bytes := by
  refine ⟨⟨kept.items.map QueuedFrame.bytes, hkept.map _, ?_⟩, fun other hne => ?_⟩
  · have hitems := BoundedQueue.send_eq_some hsend
    simp [Queues.frames, Egress.setQueue, hitems]
  · simp [Egress.setQueue, Function.update_of_ne hne]

/-- A frame reported as queued is queued, and no other frame changes place. -/
theorem enqueueFrameBytes_places {e : Egress} {cls : PriorityClass} {frame : Bytes}
    (h : (enqueueFrameBytes e cls frame).2 = true) :
    Places e.queues (enqueueFrameBytes e cls frame).1.queues cls frame := by
  unfold enqueueFrameBytes at h ⊢
  split at h
  · rename_i hcap
    rw [dif_pos hcap]
    dsimp only at h ⊢
    cases hsend : (e.queues cls).send ⟨frame, hcap⟩ with
    | some queue => exact setQueue_places (List.suffix_refl _) hsend
    | none =>
      rw [hsend] at h
      dsimp only at h ⊢
      cases hevicts : evicts cls with
      | false =>
        rw [hevicts] at h
        cases h
      | true =>
        rw [if_pos rfl]
        cases hagain : (e.queues cls).discard.send ⟨frame, hcap⟩ with
        | some queue => exact setQueue_places (List.tail_suffix _) hagain
        | none =>
          rw [hevicts, if_pos rfl, hagain] at h
          cases h
  · cases h

theorem kQueueDepth_pos (cls : PriorityClass) : 0 < kQueueDepth cls := by
  cases cls <;> decide

/-- A frame reported as refused leaves the queues alone. -/
theorem enqueueFrameBytes_refuses {e : Egress} {cls : PriorityClass} {frame : Bytes}
    (h : (enqueueFrameBytes e cls frame).2 = false) :
    (enqueueFrameBytes e cls frame).1.queues = e.queues := by
  unfold enqueueFrameBytes at h ⊢
  split at h
  · rename_i hcap
    rw [dif_pos hcap]
    dsimp only at h ⊢
    cases hsend : (e.queues cls).send ⟨frame, hcap⟩ with
    | some queue =>
      rw [hsend] at h
      cases h
    | none =>
      rw [hsend] at h
      dsimp only at h ⊢
      cases hevicts : evicts cls with
      | false => rfl
      | true =>
        -- the place of the frame discarded is free
        rw [hevicts, if_pos rfl] at h
        cases hagain : (e.queues cls).discard.send ⟨frame, hcap⟩ with
        | some queue =>
          rw [hagain] at h
          cases h
        | none => exact absurd hagain (BoundedQueue.send_discard (kQueueDepth_pos cls))
  · rename_i hcap
    rw [dif_neg hcap]

namespace Staging

/-- The tasks that call `enqueueOwn`. -/
inductive Task
  | mainLoop | espNowRx
  deriving DecidableEq, Repr

/-- The arguments of an `enqueueOwn`. -/
structure Call where
  type : MessageType
  objectId : UInt16
  payload : Bytes
  frameSourceId : UInt32 := 0

/-- A call between its two steps. `encoded` records what its first step wrote; the
second one does not read it. -/
structure InFlight where
  call : Call
  frameSize : Nat
  encoded : Bytes

structure State (P : Platform) where
  mux : Mux P
  frameBytes : Bytes := List.replicate kMaxFrameBytes 0
  inFlight : Task → Option InFlight := fun _ => none

variable {P : Platform}

namespace State

/-- Encode into the buffer: the first step of a call. It returns a result when the
call ends there; `left` is what a refused encoding left in the buffer. -/
def encodeOwnFrame (s : State P) (task : Task) (call : Call) (left : Bytes) :
    State P × Option Bool :=
  match s.mux.encodeOwnFrame call.type call.objectId call.payload kMaxFrameBytes
      call.frameSourceId with
  | (mux, none) => ({ s with mux, frameBytes := left }, some false)
  | (mux, some frame) =>
    ({ mux
       frameBytes := frame ++ s.frameBytes.drop frame.length
       inFlight := Function.update s.inFlight task (some ⟨call, frame.length, frame⟩) }, none)

/-- Queue a copy of the buffer: the second step of a call in flight. -/
def enqueueFrameBytes (s : State P) (task : Task) (p : InFlight) : State P × Bool :=
  let (mux, queued) :=
    s.mux.enqueueFrame (classify p.call.type p.call.objectId) (s.frameBytes.take p.frameSize)
  ({ s with mux, inFlight := Function.update s.inFlight task none }, queued)

/-- A call whose two steps nothing comes between. -/
def enqueueOwn (s : State P) (task : Task) (call : Call) (left : Bytes) : State P × Bool :=
  match s.encodeOwnFrame task call left with
  | (s, some ended) => (s, ended)
  | (s, none) =>
    match s.inFlight task with
    | none => (s, false)
    | some p => s.enqueueFrameBytes task p

end State

/-- A step of a task. `elsewhere` is whatever else happens to the multiplexer: frames
relayed or sent, sessions begun and ended, time passing. -/
inductive Event (P : Platform)
  | encode (task : Task) (call : Call) (left : Bytes)
  | enqueue (task : Task)
  | elsewhere (mux : Mux P)

/-- A task makes one call at a time. -/
def step (s : State P) : Event P → State P
  | .encode task call left =>
    match s.inFlight task with
    | none => (s.encodeOwnFrame task call left).1
    | some _ => s
  | .enqueue task =>
    match s.inFlight task with
    | none => s
    | some p => (s.enqueueFrameBytes task p).1
  | .elsewhere mux => { s with mux }

/-- Both steps with nothing between them are the call of the multiplexer. -/
theorem enqueueOwn_eq (s : State P) (task : Task) (call : Call) (left : Bytes) :
    let out := s.enqueueOwn task call left
    (out.1.mux, out.2) =
      s.mux.enqueueOwn call.type call.objectId call.payload call.frameSourceId := by
  unfold State.enqueueOwn State.encodeOwnFrame Mux.enqueueOwn
  generalize s.mux.encodeOwnFrame call.type call.objectId call.payload kMaxFrameBytes
    call.frameSourceId = encoded
  obtain ⟨mux, _ | frame⟩ := encoded
  · rfl
  · dsimp only
    rw [Function.update_self]
    dsimp only [State.enqueueFrameBytes]
    rw [List.take_left' rfl]

/-! ## What a call places -/

/-- A second step places the frame its call encoded, once, if it reports success, and
nothing otherwise. -/
def PlacesOwn (s : State P) : Event P → Prop
  | .enqueue task => ∀ p, s.inFlight task = some p →
      match s.enqueueFrameBytes task p with
      | (s', true) => Places s.mux.egress.queues s'.mux.egress.queues
          (classify p.call.type p.call.objectId) p.encoded
      | (s', false) => s'.mux.egress.queues = s.mux.egress.queues
  | .encode _ _ _ | .elsewhere _ => True

/-- A first step while no other task is between its two. -/
def Exclusive (s : State P) : Event P → Prop
  | .encode task _ _ => s.inFlight task = none → ∀ other, other ≠ task → s.inFlight other = none
  | .enqueue _ | .elsewhere _ => True

/-- The buffer holds the frame of every call in flight. -/
def Holds (s : State P) : Prop :=
  ∀ task p, s.inFlight task = some p → s.frameBytes.take p.frameSize = p.encoded

variable {s : State P}

theorem encodeOwnFrame_holds {task : Task} (call : Call) (left : Bytes)
    (hfree : s.inFlight task = none) (halone : ∀ other, other ≠ task → s.inFlight other = none) :
    Holds (s.encodeOwnFrame task call left).1 := by
  have hnone : ∀ other, s.inFlight other = none := by
    intro other
    by_cases he : other = task
    · rw [he, hfree]
    · exact halone other he
  unfold State.encodeOwnFrame
  split
  · intro other p hp
    rw [hnone other] at hp
    cases hp
  · intro other p hp
    dsimp only at hp ⊢
    by_cases he : other = task
    · subst he
      rw [Function.update_self] at hp
      cases hp
      exact List.take_left' rfl
    · rw [Function.update_of_ne he, hnone other] at hp
      cases hp

theorem enqueueFrameBytes_holds (h : Holds s) (task : Task) (p : InFlight) :
    Holds (s.enqueueFrameBytes task p).1 := by
  intro other q hq
  unfold State.enqueueFrameBytes at hq ⊢
  dsimp only at hq ⊢
  by_cases he : other = task
  · rw [he, Function.update_self] at hq
    cases hq
  · rw [Function.update_of_ne he] at hq
    exact h other q hq

theorem Holds.step (h : Holds s) {event : Event P} (hexclusive : Exclusive s event) :
    Holds (step s event) := by
  unfold Staging.step
  cases event with
  | encode task call left =>
    dsimp only
    cases hfree : s.inFlight task with
    | none => exact encodeOwnFrame_holds call left hfree (hexclusive hfree)
    | some p => exact h
  | enqueue task =>
    dsimp only
    cases s.inFlight task with
    | none => exact h
    | some p => exact enqueueFrameBytes_holds h task p
  | elsewhere mux => exact h

theorem Holds.placesOwn (h : Holds s) (event : Event P) : PlacesOwn s event := by
  cases event with
  | encode task call left => trivial
  | elsewhere mux => trivial
  | enqueue task =>
    intro p hp
    have hown := h task p hp
    unfold State.enqueueFrameBytes Mux.enqueueFrame
    rw [hown]
    dsimp only
    split
    · rename_i heq
      obtain ⟨rfl, hqueued⟩ := Prod.mk.inj heq
      exact enqueueFrameBytes_places hqueued
    · rename_i heq
      obtain ⟨rfl, hrefused⟩ := Prod.mk.inj heq
      exact enqueueFrameBytes_refuses hrefused

/-- While no task encodes between the two steps of another's call, every call places
its own frame. -/
theorem run_placesOwn (s₀ : State P) (hidle : ∀ task, s₀.inFlight task = none)
    (events : List (Event P)) (hexclusive : Run.AllSteps step Exclusive s₀ events) :
    Run.AllSteps step PlacesOwn s₀ events := by
  have hstart : Holds s₀ := by
    intro task p hp
    rw [hidle task] at hp
    cases hp
  exact Run.AllSteps.of_invariant (fun _ _ h => h.step) (fun _ event h _ => h.placesOwn event)
    hstart hexclusive

/-- A STATUS of the main loop, and a line of the terminal of the worker. -/
def benchStatus : Call := { type := .control, objectId := kStatusObjectId, payload := [0x51] }

def benchTerminal : Call := { type := .terminal, objectId := kTerminalOutObjectId, payload := [0x54] }

def benchStart : State bench := { mux := benchMux HubRegistry.init BtpTransport.PeerTable.init }

theorem run_placesOwn_turns :
    Run.AllSteps step PlacesOwn benchStart
      [.encode .mainLoop benchStatus [], .enqueue .mainLoop, .encode .espNowRx benchTerminal [],
        .enqueue .espNowRx] := by
  refine run_placesOwn benchStart (fun _ => rfl) _ ⟨fun _ _ _ => rfl, trivial, fun _ other hne => ?_,
    trivial, trivial⟩
  cases other with
  | mainLoop => rfl
  | espNowRx => exact absurd rfl hne

/-- The worker's line encoded between the two steps of a STATUS takes its place. -/
theorem encoded_between :
    ¬ Run.AllSteps step PlacesOwn benchStart
      [.encode .mainLoop benchStatus [], .encode .espNowRx benchTerminal [],
        .enqueue .mainLoop] := by
  rintro ⟨-, -, hplaces, -⟩
  exact absurd (Places.newest (hplaces _ rfl)) (by decide)

end Staging

end BallyDongle.SerialMux
