import BallyDongle.Lib.Run
import BallyDongle.SerialMux.Egress
import Mathlib.Algebra.BigOperators.Group.List.Basic
import Mathlib.Algebra.GroupWithZero.Nat

/-!
# Drop accounting under interleaving

A call of `enqueueFrameBytes` makes up to three operations on its queue, each of
them atomic and none of them together: it sends, and where the class evicts and the
queue is full it receives and sends again. The radio task and the main loop make
such calls, and the drain receives, in any order. A call counts one drop when its
first send fails. That is what was lost only if its second send finds room just when
its receive found a frame.
-/

namespace BallyDongle.SerialMux

open Btp SerialSession

/-- What a call does next. -/
inductive Stage
  | send
  | evict
  | retry (evicted : Bool)
  | count (queued : Bool)
  deriving DecidableEq

/-- A call of `enqueueFrameBytes` in progress. -/
structure Enqueue where
  cls : PriorityClass
  item : QueuedFrame cls
  stage : Stage := .send

/-- One operation of a call: what is left of it, or what it returns. -/
def Enqueue.operate (e : Egress) (call : Enqueue) : Egress × (Enqueue ⊕ Bool) :=
  match call.stage with
  | .send =>
    match (e.queues call.cls).send call.item with
    | some queue => (e.setQueue call.cls queue, .inr true)
    | none => (e, .inl { call with stage := if evicts call.cls then .evict else .count false })
  | .evict =>
    match (e.queues call.cls).receive with
    | some (_, queue) => (e.setQueue call.cls queue, .inl { call with stage := .retry true })
    | none => (e, .inl { call with stage := .retry false })
  | .retry _ =>
    match (e.queues call.cls).send call.item with
    | some queue => (e.setQueue call.cls queue, .inl { call with stage := .count true })
    | none => (e, .inl { call with stage := .count false })
  | .count queued => (e.countDrop call.cls, .inr queued)

/-- The calls in progress, with the frames of each class that were offered within
the class's cap and those the drain took. -/
structure Traffic where
  egress : Egress := {}
  calls : List Enqueue := []
  offered : PriorityClass → Nat := fun _ => 0
  drained : PriorityClass → Nat := fun _ => 0

inductive Action
  | enqueueFrameBytes (cls : PriorityClass) (frameBytes : Bytes)
  | operate (index : Nat)
  | drain (cls : PriorityClass)
  deriving DecidableEq

/-- A call that is too large returns at once. -/
def Traffic.act (s : Traffic) : Action → Traffic
  | .enqueueFrameBytes cls frameBytes =>
    if h : frameBytes.length ≤ kClassFrameCap cls then
      { s with
        calls := s.calls ++ [{ cls, item := ⟨frameBytes, h⟩ }]
        offered := Function.update s.offered cls (s.offered cls + 1) }
    else s
  | .operate index =>
    match s.calls[index]? with
    | none => s
    | some call =>
      match call.operate s.egress with
      | (egress, .inl call) => { s with egress, calls := s.calls.set index call }
      | (egress, .inr _) => { s with egress, calls := s.calls.eraseIdx index }
  | .drain cls =>
    match (s.egress.queues cls).receive with
    | none => s
    | some (item, queue) =>
      { s with
        egress :=
          { s.egress.setQueue cls queue with dequeued := s.egress.dequeued ++ [item.bytes] }
        drained := Function.update s.drained cls (s.drained cls + 1) }

/-- No call of the class is in progress. -/
def Traffic.Quiet (s : Traffic) (cls : PriorityClass) : Prop := ∀ call ∈ s.calls, call.cls ≠ cls

/-- Of the frames offered each was drained, is queued or was lost, and the losses
are what the counter says. -/
def Traffic.Exact (s : Traffic) (cls : PriorityClass) : Prop :=
  ∃ lost, s.offered cls = s.drained cls + (s.egress.queues cls).items.length + lost ∧
    s.egress.droppedByClass cls = UInt64.ofNat lost

/-- The second send of a call finds room just when its receive found a frame. -/
def Traffic.RoomMade (s : Traffic) : Action → Prop
  | .operate index =>
    ∀ call ∈ s.calls[index]?, ∀ evicted, call.stage = .retry evicted →
      (evicted = true ↔ (s.egress.queues call.cls).items.length < kQueueDepth call.cls)
  | _ => True

/-! ## One operation -/

/-- How many of the lost frames a call in progress has yet to account for. A call
that evicted a frame and has not sent its own again stands for both. -/
def Stage.due : Stage → Nat
  | .retry true => 2
  | _ => 1

/-- What a call leaves due after an operation. -/
def Enqueue.left : Enqueue ⊕ Bool → Nat
  | .inl call => call.stage.due
  | .inr _ => 0

section operate

variable {e : Egress} {call : Enqueue} {cls : PriorityClass}

@[simp] theorem setQueue_self (e : Egress) (cls : PriorityClass)
    (queue : BoundedQueue (QueuedFrame cls) (kQueueDepth cls)) :
    (e.setQueue cls queue).queues cls = queue := Function.update_self ..

@[simp] theorem setQueue_droppedByClass (e : Egress) (cls : PriorityClass)
    (queue : BoundedQueue (QueuedFrame cls) (kQueueDepth cls)) :
    (e.setQueue cls queue).droppedByClass = e.droppedByClass := rfl

@[simp] theorem countDrop_queues (e : Egress) (cls : PriorityClass) :
    (e.countDrop cls).queues = e.queues := rfl

@[simp] theorem countDrop_self (e : Egress) (cls : PriorityClass) :
    (e.countDrop cls).droppedByClass cls = e.droppedByClass cls + 1 := Function.update_self ..

theorem operate_other (h : cls ≠ call.cls) :
    (call.operate e).1.queues cls = e.queues cls ∧
      (call.operate e).1.droppedByClass cls = e.droppedByClass cls := by
  unfold Enqueue.operate
  split
  · split
    · exact ⟨Function.update_of_ne h .., rfl⟩
    · exact ⟨rfl, rfl⟩
  · split
    · exact ⟨Function.update_of_ne h .., rfl⟩
    · exact ⟨rfl, rfl⟩
  · split
    · exact ⟨Function.update_of_ne h .., rfl⟩
    · exact ⟨rfl, rfl⟩
  · exact ⟨rfl, Function.update_of_ne h ..⟩

theorem operate_cls {rest : Enqueue} (h : (call.operate e).2 = .inl rest) : rest.cls = call.cls := by
  unfold Enqueue.operate at h
  split at h
  · split at h
    · cases h
    · cases h; rfl
  · split at h <;> cases h <;> rfl
  · split at h <;> cases h <;> rfl
  · cases h

/-- What an operation adds to the queue and the counter it takes from what its call
has due. -/
theorem operate_account
    (hroom : ∀ evicted, call.stage = .retry evicted →
      (evicted = true ↔ (e.queues call.cls).items.length < kQueueDepth call.cls)) :
    ∃ counted, (call.operate e).1.droppedByClass call.cls =
        e.droppedByClass call.cls + UInt64.ofNat counted ∧
      ((call.operate e).1.queues call.cls).items.length + counted +
          Enqueue.left (call.operate e).2 =
        (e.queues call.cls).items.length + call.stage.due := by
  obtain ⟨cls, item, stage⟩ := call
  unfold Enqueue.operate
  cases stage with
  | send =>
    dsimp only
    cases hsend : (e.queues cls).send item with
    | some queue =>
      refine ⟨0, by simp, ?_⟩
      rw [setQueue_self, BoundedQueue.send_eq_some hsend, List.length_append]
      rfl
    | none =>
      refine ⟨0, by simp, ?_⟩
      cases evicts cls <;> rfl
  | evict =>
    dsimp only
    cases hreceive : (e.queues cls).receive with
    | some taken =>
      refine ⟨0, by simp, ?_⟩
      rw [setQueue_self, BoundedQueue.receive_eq_some hreceive, List.length_cons]
      rfl
    | none => exact ⟨0, by simp, rfl⟩
  | retry evicted =>
    have hmade := hroom evicted rfl
    dsimp only at hmade ⊢
    cases hsend : (e.queues cls).send item with
    | some queue =>
      refine ⟨0, by simp, ?_⟩
      have hlt : (e.queues cls).items.length < kQueueDepth cls := by
        refine Nat.lt_of_le_of_ne (e.queues cls).length_le fun h => ?_
        rw [BoundedQueue.send_eq_none.2 h] at hsend
        cases hsend
      rw [hmade.2 hlt, setQueue_self, BoundedQueue.send_eq_some hsend, List.length_append]
      rfl
    | none =>
      refine ⟨0, by simp, ?_⟩
      have hfull : ¬(e.queues cls).items.length < kQueueDepth cls := by
        rw [BoundedQueue.send_eq_none.1 hsend]
        exact Nat.lt_irrefl _
      rw [Bool.eq_false_iff.2 fun h => hfull (hmade.1 h)]
      rfl
  | count queued => exact ⟨1, by simp, rfl⟩

end operate

/-! ## The calls in progress -/

def Enqueue.dueTo (cls : PriorityClass) (call : Enqueue) : Nat :=
  if call.cls = cls then call.stage.due else 0

/-- What the calls in progress have yet to account for. -/
def Traffic.due (s : Traffic) (cls : PriorityClass) : Nat := (s.calls.map (Enqueue.dueTo cls)).sum

/-- The books balance with what is due included. -/
def Traffic.Balanced (s : Traffic) (cls : PriorityClass) : Prop :=
  ∃ counted, s.offered cls =
      s.drained cls + (s.egress.queues cls).items.length + counted + s.due cls ∧
    s.egress.droppedByClass cls = UInt64.ofNat counted

theorem Traffic.Balanced.exact {s : Traffic} {cls : PriorityClass} (h : s.Balanced cls)
    (hquiet : s.Quiet cls) : s.Exact cls := by
  obtain ⟨counted, hoffered, hdropped⟩ := h
  have hdue : s.due cls = 0 := by
    refine List.sum_eq_zero fun due hmem => ?_
    obtain ⟨call, hcall, rfl⟩ := List.mem_map.1 hmem
    exact if_neg (hquiet call hcall)
  exact ⟨counted, by rw [hoffered, hdue, Nat.add_zero], hdropped⟩

theorem sum_set_add {f : Enqueue → Nat} {calls : List Enqueue} {index : Nat} {call rest : Enqueue}
    (h : calls[index]? = some call) :
    ((calls.set index rest).map f).sum + f call = (calls.map f).sum + f rest := by
  induction calls generalizing index with
  | nil => cases h
  | cons head calls ih =>
    cases index with
    | zero =>
      cases h
      simp only [List.set_cons_zero, List.map_cons, List.sum_cons]
      omega
    | succ index =>
      have := ih h
      simp only [List.set_cons_succ, List.map_cons, List.sum_cons]
      omega

theorem sum_eraseIdx_add {f : Enqueue → Nat} {calls : List Enqueue} {index : Nat} {call : Enqueue}
    (h : calls[index]? = some call) :
    ((calls.eraseIdx index).map f).sum + f call = (calls.map f).sum := by
  induction calls generalizing index with
  | nil => cases h
  | cons head calls ih =>
    cases index with
    | zero =>
      cases h
      simp only [List.eraseIdx_cons_zero, List.map_cons, List.sum_cons]
      omega
    | succ index =>
      have := ih h
      simp only [List.eraseIdx_cons_succ, List.map_cons, List.sum_cons]
      omega

theorem ofNat_add (m n : Nat) : UInt64.ofNat m + UInt64.ofNat n = UInt64.ofNat (m + n) :=
  (UInt64.ofNat_add m n).symm

/-- An operation of the `index`-th call moves what is due by what the call itself
has due. -/
theorem due_operate {s : Traffic} {index : Nat} {call : Enqueue} {cls : PriorityClass}
    (h : s.calls[index]? = some call) :
    (s.act (.operate index)).egress = (call.operate s.egress).1 ∧
      (s.act (.operate index)).offered = s.offered ∧ (s.act (.operate index)).drained = s.drained ∧
      (s.act (.operate index)).due cls + call.dueTo cls =
        s.due cls + if call.cls = cls then Enqueue.left (call.operate s.egress).2 else 0 := by
  rw [Traffic.act, h]
  dsimp only
  rcases hop : call.operate s.egress with ⟨egress, rest | queued⟩
  · refine ⟨rfl, rfl, rfl, (sum_set_add h).trans ?_⟩
    have hcls : rest.cls = call.cls := operate_cls (congrArg Prod.snd hop)
    rw [Enqueue.dueTo, hcls]
    rfl
  · refine ⟨rfl, rfl, rfl, (sum_eraseIdx_add h).trans ?_⟩
    show s.due cls = s.due cls + if call.cls = cls then 0 else 0
    rw [ite_self, Nat.add_zero]

theorem act_balanced {s : Traffic} {cls : PriorityClass} (hs : s.Balanced cls) {action : Action}
    (hroom : s.RoomMade action) : (s.act action).Balanced cls := by
  obtain ⟨counted, hoffered, hdropped⟩ := hs
  cases action with
  | enqueueFrameBytes other frameBytes =>
    rw [Traffic.act]
    split
    · refine ⟨counted, ?_, hdropped⟩
      rw [Traffic.due, List.map_append, List.sum_append]
      dsimp only
      rw [← Traffic.due]
      by_cases hcls : other = cls
      · subst hcls
        rw [Function.update_self, hoffered]
        simp only [Enqueue.dueTo, if_true, Stage.due, List.map_cons, List.map_nil, List.sum_cons,
          List.sum_nil]
        omega
      · rw [Function.update_of_ne (Ne.symm hcls), hoffered]
        simp only [Enqueue.dueTo, if_neg hcls, List.map_cons, List.map_nil, List.sum_cons,
          List.sum_nil]
        omega
    · exact ⟨counted, hoffered, hdropped⟩
  | operate index =>
    cases hget : s.calls[index]? with
    | none =>
      rw [Traffic.act, hget]
      exact ⟨counted, hoffered, hdropped⟩
    | some call =>
      obtain ⟨hegress, hoff, hdrained, hdue⟩ := @due_operate _ _ _ cls hget
      obtain ⟨more, hcount, hlength⟩ := operate_account (e := s.egress) (hroom call hget)
      by_cases hcls : call.cls = cls
      · subst hcls
        rw [if_pos rfl, Enqueue.dueTo, if_pos rfl] at hdue
        refine ⟨counted + more, ?_, ?_⟩
        · rw [hoff, hdrained, hegress]
          omega
        · rw [hegress, hcount, hdropped, ofNat_add]
      · obtain ⟨hqueue, hdrop⟩ := operate_other (e := s.egress) (Ne.symm hcls)
        rw [if_neg hcls, Enqueue.dueTo, if_neg hcls] at hdue
        refine ⟨counted, ?_, ?_⟩
        · rw [hoff, hdrained, hegress, hqueue]
          omega
        · rw [hegress, hdrop, hdropped]
  | drain other =>
    rw [Traffic.act]
    cases hreceive : (s.egress.queues other).receive with
    | none => exact ⟨counted, hoffered, hdropped⟩
    | some taken =>
      refine ⟨counted, ?_, hdropped⟩
      show s.offered cls = Function.update s.drained other (s.drained other + 1) cls +
        (Function.update s.egress.queues other taken.2 cls).items.length + counted + s.due cls
      by_cases hcls : other = cls
      · subst hcls
        rw [Function.update_self, Function.update_self, hoffered,
          BoundedQueue.receive_eq_some hreceive, List.length_cons]
        omega
      · rw [Function.update_of_ne (Ne.symm hcls), Function.update_of_ne (Ne.symm hcls), hoffered]

/-! ## Runs -/

/-- The counter is exact at every point of a run where no call of the class is in
progress, whatever the order of the operations, as long as each second send finds
room just when its call made it. -/
theorem run_exact (cls : PriorityClass) (actions : List Action)
    (h : Run.AllSteps Traffic.act Traffic.RoomMade {} actions) :
    Run.Throughout Traffic.act (fun s => s.Quiet cls → s.Exact cls) {} actions := by
  have hstart : Traffic.Balanced {} cls := ⟨0, rfl, rfl⟩
  have hall : Run.Throughout Traffic.act (fun s => s.Balanced cls) {} actions :=
    Run.Throughout.of_allSteps (fun _ _ hs hroom => act_balanced hs hroom) hstart h
  exact hall.imp fun s hs hquiet => hs.exact hquiet

/-! ## A call by itself -/

/-- Operate a call until it returns. -/
def Enqueue.finish : (operations : Nat) → Egress → Enqueue → Egress × Bool
  | 0, e, _ => (e, false)
  | operations + 1, e, call =>
    match call.operate e with
    | (e, .inl rest) => finish operations e rest
    | (e, .inr queued) => (e, queued)

/-- A call nothing comes between is the function the rest of the development
runs as one step. -/
theorem finish_eq_enqueueFrameBytes (e : Egress) {cls : PriorityClass} {frameBytes : Bytes}
    (h : frameBytes.length ≤ kClassFrameCap cls) :
    Enqueue.finish 4 e { cls, item := ⟨frameBytes, h⟩ } = enqueueFrameBytes e cls frameBytes := by
  rw [enqueueFrameBytes, dif_pos h, Enqueue.finish, Enqueue.operate]
  dsimp only
  cases hsend : (e.queues cls).send ⟨frameBytes, h⟩ with
  | some queue => rfl
  | none =>
    cases hevicts : evicts cls with
    | false => rfl
    | true =>
      have hfull : (e.queues cls).items ≠ [] := by
        have hdepth : 0 < kQueueDepth cls := by cases cls <;> decide
        refine List.ne_nil_of_length_pos ?_
        rw [BoundedQueue.send_eq_none.1 hsend]
        exact hdepth
      obtain ⟨oldest, hreceive⟩ := BoundedQueue.receive_of_ne_nil hfull
      dsimp only
      rw [if_pos rfl, if_pos rfl, Enqueue.finish, Enqueue.operate]
      dsimp only
      rw [hreceive]
      dsimp only
      rw [Enqueue.finish, Enqueue.operate]
      dsimp only
      rw [setQueue_self]
      cases (e.queues cls).discard.send ⟨frameBytes, h⟩ with
      | none => rfl
      | some queue =>
        have hset : (e.setQueue cls (e.queues cls).discard).setQueue cls queue =
            e.setQueue cls queue := by
          rw [Egress.setQueue, Egress.setQueue, Egress.setQueue, Function.update_idem]
        dsimp only
        rw [hset]
        rfl

section bench

instance (s : Traffic) : ∀ action, Decidable (s.RoomMade action)
  | .enqueueFrameBytes _ _ | .drain _ => .isTrue trivial
  | .operate index =>
    inferInstanceAs (Decidable (∀ call ∈ s.calls[index]?, ∀ evicted, call.stage = .retry evicted →
      (evicted = true ↔ (s.egress.queues call.cls).items.length < kQueueDepth call.cls)))

/-- One more log frame than the queue holds, one call after the other, then a drain. -/
theorem run_exact_full :
    Run.Throughout Traffic.act (fun s => s.Quiet .logStatus → s.Exact .logStatus) {}
      ((List.replicate 7 [.enqueueFrameBytes .logStatus [], .operate 0]).flatten ++
        [.operate 0, .operate 0, .operate 0, .drain .logStatus]) :=
  run_exact .logStatus _ (by decide)

/-- Six frames fill the log queue. A seventh call evicts the oldest, an eighth takes
the room, and the seventh loses its own frame too: two are lost and one is counted. -/
theorem drop_hidden :
    ¬∀ actions, Run.Throughout Traffic.act (fun s => s.Quiet .logStatus → s.Exact .logStatus) {}
      actions := by
  intro h
  have hlast := (h ((List.replicate 6 [.enqueueFrameBytes .logStatus [], .operate 0]).flatten ++
    [.enqueueFrameBytes .logStatus [], .operate 0, .operate 0,
      .enqueueFrameBytes .logStatus [], .operate 1, .operate 0, .operate 0])).final
  obtain ⟨lost, hoffered, hdropped⟩ := hlast (List.forall_mem_nil _)
  have htwo : lost = 2 := by
    have height : 8 = 0 + 6 + lost := hoffered
    omega
  rw [htwo] at hdropped
  exact absurd hdropped (by decide)

end bench

end BallyDongle.SerialMux
