import BallyDongle.EspNowManager.Requests
import BallyDongle.Lib.Run

/-!
# What becomes of a request

A ledger kept beside a run: for each class the requests its queue accepted, in order,
and the requests the worker is done with, each with what became of it. Between the
two stand the one the worker holds and those still in the queue, and nothing else; and the
driver was offered just the frames of which the ledger says so.
-/

namespace BallyDongle.EspNowManager.TxWorker

open Btp BtpTransport RadioTxScheduler WrapClock

/-- The driver took the frame or rejected it; or the worker dropped it because its slot
is no longer the caller's, or because its time was up. -/
inductive Fate
  | handed | rejected | cancelled | expired
  deriving DecidableEq

structure Settlement where
  priority : Priority
  request : TxRequest
  fate : Fate
  deriving DecidableEq

/-- `holding` is the class of the request in the worker's hand. -/
structure Ledger where
  accepted : Priority → List TxRequest := fun _ => []
  holding : Option Priority := none
  settled : List Settlement := []

/-- What `esp_now_send` answered, if it was asked. -/
def Fate.answer : Fate → Option Bool
  | .handed => some true
  | .rejected => some false
  | .cancelled | .expired => none

def Settlement.offer (settlement : Settlement) : Option (TxRequest × Bool) :=
  settlement.fate.answer.map (settlement.request, ·)

namespace Ledger

variable (l : Ledger)

def accept (p : Priority) (request : TxRequest) : Ledger :=
  { l with accepted := Function.update l.accepted p (l.accepted p ++ [request]) }

def settle (request : TxRequest) (fate : Fate) : Ledger :=
  { l with
    holding := none
    settled := l.settled ++ l.holding.toList.map ({ priority := ·, request, fate }) }

def settledOf (p : Priority) : List TxRequest :=
  (l.settled.filter (·.priority = p)).map (·.request)

/-- The frames the driver was offered, by the settlements. -/
def offered : List (TxRequest × Bool) := l.settled.filterMap Settlement.offer

end Ledger

/-- The worker has not come to a decision about the request it took. -/
def WorkPhase.undecided : WorkPhase → Bool
  | .checking | .timing | .clearing | .sending => true
  | _ => false

namespace Radio

variable (s : Radio)

/-- The request `sendToMac` makes. -/
def asyncRequest (mac : Mac) (data : Bytes) : TxRequest where
  mac := mac
  data := data
  enqueuedMs := s.millis
  timeoutMs := kAsyncCallbackTimeoutMs
  enqueuedAt := s.now

/-- The request a step offers to a queue. -/
def offers : Action → Option (Priority × TxRequest)
  | .sendToMac mac data p =>
    match mac, data with
    | some mac', some data' =>
      if s.accepts mac data then some (p, s.asyncRequest mac' data') else none
    | _, _ => none
  | .call i =>
    if (s.calls i).phase = .enqueuing then some ((s.calls i).priority, (s.calls i).request i)
    else none
  | _ => none

/-- What a step offers is accepted if `enqueueRequest` takes it. -/
def recordOffer (l : Ledger) (action : Action) : Ledger :=
  match s.offers action with
  | some (p, request) => if (s.enqueueRequest request p).isSome then l.accept p request else l
  | none => l

def recordDequeue (l : Ledger) (available : Priority → Bool) : Ledger :=
  let selected := choose available s.worker.scheduleCursor
  if s.worker.phase = .idle ∧ s.mayShow available ∧ selected.found ∧
      (s.queues selected.priority).items ≠ [] then
    { l with holding := some selected.priority }
  else l

def recordWork (l : Ledger) (accepted : Bool) : Ledger :=
  let request := s.worker.request
  match s.worker.phase with
  | .checking => if s.completionStillActive request then l else l.settle request .cancelled
  | .timing =>
    if request.completion ≠ none ∧ request.timeoutMs ≤ s.millis - request.enqueuedMs then
      l.settle request .expired
    else l
  | .sending =>
    if accepted then l.settle request .handed else l.settle request .rejected
  | _ => l

/-- The ledger after a step in the state `s`. -/
def record (l : Ledger) : Action → Ledger
  | .dequeue available => s.recordDequeue l available
  | .work accepted => s.recordWork l accepted
  | action => s.recordOffer l action

/-- What of a class is in the worker's hand. -/
def inHand (l : Ledger) (p : Priority) : List TxRequest :=
  if l.holding = some p then [s.worker.request] else []

end Radio

def recordStep (sl : Radio × Ledger) (action : Action) : Radio × Ledger :=
  (sl.1.step action, sl.1.record sl.2 action)

/-- The ledger does not take part in the run. -/
theorem foldl_recordStep (s : Radio) (l : Ledger) (actions : List Action) :
    (actions.foldl recordStep (s, l)).1 = actions.foldl Radio.step s := by
  induction actions generalizing s l with
  | nil => rfl
  | cons action actions ih => exact ih _ _

structure Balanced (s : Radio) (l : Ledger) : Prop where
  books : ∀ p, l.accepted p = l.settledOf p ++ s.inHand l p ++ (s.queues p).items
  holding : l.holding.isSome = s.worker.phase.undecided
  offered : s.offered = l.offered

section balanced

variable {s s' : Radio} {l l' : Ledger}

/-! ## Entries -/

theorem enqueueRequest_eq_some {request : TxRequest} {p : Priority}
    (h : s.enqueueRequest request p = some s') :
    ∀ p', (s'.queues p').items = (s.queues p').items ++ if p' = p then [request] else [] := by
  obtain ⟨queue, hqueue, rfl⟩ := Option.map_eq_some_iff.1 h
  intro p'
  by_cases hp : p' = p
  · subst hp
    rw [if_pos rfl]
    simpa using BoundedQueue.send_eq_some hqueue
  · rw [if_neg hp, List.append_nil]
    simp [Function.update_of_ne hp]

theorem getD_enqueueRequest_keeps (request : TxRequest) (p : Priority) :
    ((s.enqueueRequest request p).getD s).worker = s.worker ∧
      ((s.enqueueRequest request p).getD s).offered = s.offered := by
  cases hsend : s.enqueueRequest request p with
  | none => exact ⟨rfl, rfl⟩
  | some queued =>
    obtain ⟨queue, -, rfl⟩ := Option.map_eq_some_iff.1 hsend
    exact ⟨rfl, rfl⟩

/-- A step that is not the worker's leaves the worker alone and offers the driver nothing, and
of the queues it changes the one it offers a request to. -/
theorem step_offers (s : Radio) {action : Action} (hdequeue : ∀ available, action ≠ .dequeue available)
    (hwork : ∀ accepted, action ≠ .work accepted) :
    (s.step action).worker = s.worker ∧ (s.step action).offered = s.offered ∧
      (s.step action).queues = match s.offers action with
        | some (p, request) => ((s.enqueueRequest request p).getD s).queues
        | none => s.queues := by
  cases action with
  | elapse ms => exact ⟨rfl, rfl, rfl⟩
  | sendToMac mac data p =>
    cases mac with
    | none => exact ⟨rfl, rfl, rfl⟩
    | some mac =>
      cases data with
      | none => exact ⟨rfl, rfl, rfl⟩
      | some data =>
        unfold Radio.step Radio.sendToMac Radio.offers
        by_cases haccepts : s.accepts (some mac) (some data) = true
        · simp only [if_pos haccepts]
          obtain ⟨hworker, hoffered⟩ := @getD_enqueueRequest_keeps s
            (s.asyncRequest mac data) p
          exact ⟨hworker, hoffered, rfl⟩
        · simp only [if_neg haccepts]
          exact ⟨trivial, trivial, trivial⟩
  | sendToMacWithStatus i mac data timeoutMs p =>
    rw [Radio.step]
    obtain e | ⟨c, -, e, -⟩ := sendToMacWithStatus_effect s i mac data timeoutMs p <;> rw [e]
    · exact ⟨rfl, rfl, rfl⟩
    · exact ⟨rfl, rfl, rfl⟩
  | call i =>
    have hframe := (callStep_effect s i).frame
    refine ⟨hframe.worker, hframe.offered, ?_⟩
    unfold Radio.offers
    dsimp only
    by_cases hphase : (s.calls i).phase = .enqueuing
    · rw [if_pos hphase]
      unfold Radio.step Radio.callStep
      simp only [hphase]
      cases hsend : s.enqueueRequest ((s.calls i).request i) (s.calls i).priority <;> rfl
    · rw [if_neg hphase]
      have heffect := callStep_effect s i
      rw [Radio.step]
      generalize s.callStep i = s' at heffect ⊢
      cases heffect with
      | refused hat hfull => exact absurd hat hphase
      | enqueues hat queue hqueue => exact absurd hat hphase
      | _ => rfl
  | dequeue available => exact absurd rfl (hdequeue available)
  | work accepted => exact absurd rfl (hwork accepted)
  | callback success =>
    rw [Radio.step]
    split <;> exact ⟨rfl, rfl, rfl⟩
  | overdueCallback index success =>
    rw [Radio.step]
    split <;> exact ⟨rfl, rfl, rfl⟩

theorem accept_accepted (p p' : Priority) (request : TxRequest) :
    (l.accept p request).accepted p' = l.accepted p' ++ if p' = p then [request] else [] := by
  unfold Ledger.accept
  by_cases hp : p' = p
  · subst hp
    simp
  · simp [hp]

/-- What a queue takes at its end goes into the books at their end. -/
theorem Balanced.enter (h : Balanced s l) (request : TxRequest) (p : Priority)
    (hqueues : s'.queues = ((s.enqueueRequest request p).getD s).queues)
    (hworker : s'.worker = s.worker) (hoffered : s'.offered = s.offered) :
    Balanced s' (if (s.enqueueRequest request p).isSome then l.accept p request else l) := by
  cases hsend : s.enqueueRequest request p with
  | none =>
    rw [hsend, Option.getD_none] at hqueues
    refine ⟨fun p' => ?_, by rw [hworker]; exact h.holding, hoffered.trans h.offered⟩
    rw [Radio.inHand, hworker, hqueues]
    exact h.books p'
  | some queued =>
    rw [hsend, Option.getD_some] at hqueues
    refine ⟨fun p' => ?_, by rw [hworker]; exact h.holding, hoffered.trans h.offered⟩
    have hbooks := h.books p'
    have hitems := enqueueRequest_eq_some hsend p'
    rw [Option.isSome_some, if_pos rfl, accept_accepted, hbooks, hqueues, hitems,
      ← List.append_assoc, Radio.inHand, Radio.inHand, hworker]
    rfl

theorem settledOf_settle (request : TxRequest) (fate : Fate) (p : Priority) :
    (l.settle request fate).settledOf p =
      l.settledOf p ++ if l.holding = some p then [request] else [] := by
  unfold Ledger.settle Ledger.settledOf
  cases hholding : l.holding with
  | none => simp
  | some p' => by_cases hp : p' = p <;> simp [hp]

theorem offered_settle (request : TxRequest) (fate : Fate) (hholding : l.holding.isSome = true) :
    (l.settle request fate).offered =
      l.offered ++ (fate.answer.map (request, ·)).toList := by
  obtain ⟨p, hp⟩ := Option.isSome_iff_exists.1 hholding
  unfold Ledger.settle Ledger.offered
  rw [hp, List.filterMap_append]
  cases fate <;> rfl

/-- What leaves the worker's hand goes to the settled requests. -/
theorem Balanced.settle (h : Balanced s l) {fate : Fate} (hqueues : s'.queues = s.queues)
    (p : Priority) :
    (l.settle s.worker.request fate).accepted p =
      (l.settle s.worker.request fate).settledOf p ++
        s'.inHand (l.settle s.worker.request fate) p ++ (s'.queues p).items := by
  have hbooks := h.books p
  rw [settledOf_settle, hqueues]
  show l.accepted p = _
  rw [hbooks, Radio.inHand, Radio.inHand]
  simp [Ledger.settle]

/-- The worker decides, and the driver is offered the frame or is not. -/
theorem Balanced.decided (h : Balanced s l) {fate : Fate}
    (hundecided : s.worker.phase.undecided = true) (hqueues : s'.queues = s.queues)
    (hphase : s'.worker.phase.undecided = false)
    (hoffered : s'.offered = s.offered ++ (fate.answer.map (s.worker.request, ·)).toList) :
    Balanced s' (l.settle s.worker.request fate) := by
  refine ⟨h.settle hqueues, hphase.symm ▸ rfl, ?_⟩
  rw [offered_settle _ _ (h.holding.trans hundecided), hoffered, h.offered]

/-- Nothing the ledger speaks of has changed. -/
theorem Balanced.same (h : Balanced s l) (hqueues : s'.queues = s.queues)
    (hphase : s'.worker.phase.undecided = s.worker.phase.undecided)
    (hrequest : s.worker.phase.undecided = true → s'.worker.request = s.worker.request)
    (hoffered : s'.offered = s.offered) : Balanced s' l := by
  refine ⟨fun p => ?_, h.holding.trans hphase.symm, hoffered.trans h.offered⟩
  have hhand : s'.inHand l p = s.inHand l p := by
    unfold Radio.inHand
    by_cases hp : l.holding = some p
    · rw [if_pos hp, if_pos hp, hrequest (by rw [← h.holding, hp]; rfl)]
    · rw [if_neg hp, if_neg hp]
  rw [hhand, hqueues]
  exact h.books p

/-! ## Steps -/

theorem not_undecided_next (w : Worker) : w.next.undecided = false := by
  obtain hnext | hnext := next_cases w <;> rw [hnext] <;> rfl

theorem not_undecided_of_inGrace {phase : WorkPhase} (h : phase.inGrace = true) :
    phase.undecided = false := by
  revert h
  cases phase <;> decide

/-- A step of the worker past its decision. -/
theorem Balanced.past (h : Balanced s l) (heffect : WorkEffect s s')
    (hdecided : s.worker.phase.undecided = false) : Balanced s' l := by
  have hoffered : s'.offered = s.offered := by
    cases heffect with
    | sends hphase | rejects hphase =>
      rw [hphase] at hdecided
      cases hdecided
    | _ => rfl
  refine h.same heffect.frame.queues ?_ (fun hwas => absurd hwas (by rw [hdecided]; decide)) hoffered
  rw [hdecided]
  cases heffect with
  | stays => exact hdecided
  | gives | resumes => exact not_undecided_next s.worker
  | graces _ w hw => exact not_undecided_of_inGrace hw
  | graceTakes _ status queue _ phase hnext => exact not_undecided_of_inGrace hnext
  | active hphase | budgets hphase | inTime hphase | clears hphase =>
    rw [hphase] at hdecided
    cases hdecided
  | _ => rfl

theorem Balanced.offer (h : Balanced s l) {action : Action}
    (hdequeue : ∀ available, action ≠ .dequeue available)
    (hwork : ∀ accepted, action ≠ .work accepted) :
    Balanced (s.step action) (s.recordOffer l action) := by
  obtain ⟨hworker, hoffered, hqueues⟩ := step_offers s hdequeue hwork
  unfold Radio.recordOffer
  cases hoffers : s.offers action with
  | none =>
    simp only [hoffers] at hqueues
    exact h.same hqueues (by rw [hworker]) (fun _ => by rw [hworker]) hoffered
  | some offer =>
    simp only [hoffers] at hqueues
    exact h.enter offer.2 offer.1 hqueues hworker hoffered

/-- The worker takes the oldest request of the class it chose. -/
theorem Balanced.dequeue (h : Balanced s l) (available : Priority → Bool) :
    Balanced (s.dequeueScheduled available) (s.recordDequeue l available) := by
  unfold Radio.dequeueScheduled Radio.recordDequeue
  dsimp only
  by_cases hguard : s.worker.phase ≠ .idle ∨ (!s.mayShow available) = true
  · rw [if_pos hguard, if_neg]
    · exact h
    · rintro ⟨hidle, hshow, -⟩
      obtain hnot | hnot := hguard
      · exact hnot hidle
      · rw [hshow] at hnot
        cases hnot
  rw [if_neg hguard]
  obtain ⟨hidle, hshow⟩ := not_or.1 hguard
  rw [not_ne_iff] at hidle
  rw [Bool.not_eq_true, Bool.not_eq_false'] at hshow
  have hundecided : s.worker.phase.undecided = false := by rw [hidle]; rfl
  have hnone : l.holding = none := by
    rw [← Option.not_isSome_iff_eq_none, h.holding, hundecided]
    decide
  generalize hselected : choose available s.worker.scheduleCursor = selected
  cases hreceive : (s.queues selected.priority).receive with
  | none =>
    rw [BoundedQueue.receive_eq_none] at hreceive
    rw [if_neg fun hall => hall.2.2.2 hreceive]
    split
    · contradiction
    · exact h.same rfl rfl (fun _ => rfl) rfl
  | some taken =>
    obtain ⟨request, queue⟩ := taken
    have hitems := BoundedQueue.receive_eq_some hreceive
    cases hfound : selected.found with
    | false =>
      rw [if_neg fun hall => by cases hall.2.2.1]
      exact h.same rfl rfl (fun _ => rfl) rfl
    | true =>
      rw [if_pos ⟨hidle, hshow, rfl, by rw [hitems]; exact List.cons_ne_nil _ _⟩]
      refine ⟨fun p => ?_, rfl, h.offered⟩
      have hbooks := h.books p
      unfold Radio.inHand at hbooks ⊢
      rw [hnone, if_neg nofun, List.append_nil] at hbooks
      show l.accepted p = l.settledOf p ++ _ ++ (Function.update s.queues selected.priority queue p).items
      rw [hbooks, List.append_assoc]
      by_cases hp : selected.priority = p
      · subst hp
        simp [hitems, Radio.setWorker]
      · simp [hp, Function.update_of_ne (Ne.symm hp)]

theorem recordWork_of_decided (hdecided : s.worker.phase.undecided = false) (accepted : Bool) :
    s.recordWork l accepted = l := by
  unfold Radio.recordWork
  cases hphase : s.worker.phase <;> dsimp only
  case checking | timing | sending =>
    rw [hphase] at hdecided
    cases hdecided

theorem Balanced.work (h : Balanced s l) (accepted : Bool) :
    Balanced (s.workStep accepted) (s.recordWork l accepted) := by
  cases hdecided : s.worker.phase.undecided with
  | false =>
    rw [recordWork_of_decided hdecided]
    exact h.past (workStep_effect s accepted) hdecided
  | true =>
    unfold Radio.recordWork Radio.workStep
    dsimp only
    cases hphase : s.worker.phase <;> dsimp only
    case checking =>
      split
      · exact h.same rfl hdecided.symm (fun _ => rfl) rfl
      · exact h.decided hdecided rfl rfl (List.append_nil _).symm
    case timing =>
      by_cases hnone : s.worker.request.completion = none
      · rw [if_pos hnone, if_neg fun hlate => hlate.1 hnone]
        exact h.same rfl hdecided.symm (fun _ => rfl) rfl
      · rw [if_neg hnone]
        split
        · rename_i hlate
          rw [if_pos ⟨hnone, hlate⟩]
          exact h.decided hdecided rfl rfl (List.append_nil _).symm
        · rename_i hlate
          rw [if_neg fun hboth => hlate hboth.2]
          exact h.same rfl hdecided.symm (fun _ => rfl) rfl
    case clearing => exact h.same rfl hdecided.symm (fun _ => rfl) rfl
    case sending => cases accepted <;> exact h.decided hdecided rfl rfl rfl
    all_goals
      rw [hphase] at hdecided
      cases hdecided

theorem step_balanced (h : Balanced s l) (action : Action) :
    Balanced (s.step action) (s.record l action) := by
  cases action with
  | dequeue available => exact h.dequeue available
  | work accepted => exact h.work accepted
  | _ => exact h.offer (fun _ => nofun) (fun _ => nofun)

theorem init_balanced : Balanced {} {} := ⟨fun _ => rfl, rfl, rfl⟩

end balanced

/-- In every run, of each class: what its queue accepted is what the worker is done with,
what it holds and what waits, in this order. It holds a request while it has yet to decide;
and the driver was offered, with its answers, just the frames the settlements say. -/
theorem run_books (actions : List Action) (p : Priority) :
    let run := actions.foldl recordStep ({}, {})
    run.1 = actions.foldl Radio.step {} ∧
      run.2.accepted p = run.2.settledOf p ++ run.1.inHand run.2 p ++ (run.1.queues p).items ∧
      run.2.holding.isSome = run.1.worker.phase.undecided ∧
      run.1.offered = run.2.offered := by
  intro run
  have hrun : Balanced run.1 run.2 :=
    Run.foldl_keeps recordStep (fun sl => Balanced sl.1 sl.2)
      (fun sl action h => step_balanced h action) init_balanced actions
  exact ⟨foldl_recordStep {} {} actions, hrun.books p, hrun.holding, hrun.offered⟩

/-! ## Requests withheld from the driver -/

/-- What must have happened for a request to end so: `esp_now_send` took or refused its
frame, its caller has returned, or its caller's deadline has passed. -/
def Settlement.Explained (s : Radio) (settlement : Settlement) : Prop :=
  match settlement.fate with
  | .handed => (settlement.request, true) ∈ s.offered
  | .rejected => (settlement.request, false) ∈ s.offered
  | .cancelled => ∃ i ∈ settlement.request.sender, (s.calls i).phase = .returned
  | .expired => settlement.request.sender ≠ none ∧ settlement.request.deadline ≤ s.now

/-- A request that asks for its status is of a call. -/
def TxRequest.Signed (request : TxRequest) : Prop := request.completion ≠ none → request.sender ≠ none

structure Audited (sl : Radio × Ledger) : Prop where
  owned : Owned sl.1
  made : Made sl.1
  timed : Timed sl.1
  balanced : Balanced sl.1 sl.2
  signed : ∀ p, ∀ request ∈ sl.2.accepted p, request.Signed
  explained : ∀ settlement ∈ sl.2.settled, settlement.Explained sl.1

section audited

variable {s s' : Radio} {l : Ledger}

theorem returned_keeps {i : Nat} (h : (s.calls i).phase = .returned) (action : Action) :
    ((s.step action).calls i).phase = .returned := by
  by_cases hcaller : action.caller = some i
  · cases action with
    | call j =>
      cases hcaller
      rw [Radio.step, Radio.callStep]
      simp only [h]
    | sendToMacWithStatus j mac data timeoutMs p =>
      cases hcaller
      rw [Radio.step, Radio.sendToMacWithStatus, if_pos (by rw [h]; decide)]
      exact h
    | _ => cases hcaller
  · rw [step_other hcaller]
    exact h

/-- Time does not go back, and what the driver was offered stays on record. -/
theorem step_lasts (s : Radio) (action : Action) :
    s.now ≤ (s.step action).now ∧ ∀ frame ∈ s.offered, frame ∈ (s.step action).offered := by
  cases action with
  | elapse ms => exact ⟨Nat.le_add_right _ _, fun _ => id⟩
  | sendToMac mac data p =>
    rw [Radio.step]
    obtain e | ⟨request, -, -, queue, -, e⟩ := sendToMac_effect s mac data p <;> rw [e]
    · exact ⟨Nat.le_refl _, fun _ => id⟩
    · exact ⟨Nat.le_refl _, fun _ => id⟩
  | sendToMacWithStatus i mac data timeoutMs p =>
    rw [Radio.step]
    obtain e | ⟨c, -, e, -⟩ := sendToMacWithStatus_effect s i mac data timeoutMs p <;> rw [e]
    · exact ⟨Nat.le_refl _, fun _ => id⟩
    · exact ⟨Nat.le_refl _, fun _ => id⟩
  | call i =>
    have hframe := (callStep_effect s i).frame
    exact ⟨Nat.le_of_eq hframe.now.symm, fun _ hmem => by rw [Radio.step, hframe.offered]; exact hmem⟩
  | dequeue available =>
    rw [Radio.step]
    obtain e | ⟨-, ⟨cursor, e⟩ | ⟨p, request, queue, cursor, -, e⟩⟩ :=
      dequeueScheduled_effect s available <;> rw [e] <;> exact ⟨Nat.le_refl _, fun _ => id⟩
  | work accepted =>
    have heffect := workStep_effect s accepted
    refine ⟨Nat.le_of_eq heffect.frame.now.symm, ?_⟩
    rw [Radio.step]
    generalize s.workStep accepted = s' at heffect ⊢
    cases heffect with
    | sends | rejects => exact fun frame hmem => List.mem_append_left _ hmem
    | _ => exact fun _ => id
  | callback success =>
    rw [Radio.step]
    split
    · exact ⟨Nat.le_refl _, fun _ => id⟩
    · exact ⟨Nat.le_refl _, fun _ => id⟩
  | overdueCallback index success =>
    rw [Radio.step]
    split
    · exact ⟨Nat.le_refl _, fun _ => id⟩
    · exact ⟨Nat.le_refl _, fun _ => id⟩

/-- An explanation stays one. -/
theorem Settlement.Explained.step {settlement : Settlement} (h : settlement.Explained s)
    (action : Action) : settlement.Explained (s.step action) := by
  obtain ⟨hnow, hoffered⟩ := step_lasts s action
  unfold Settlement.Explained at *
  cases hfate : settlement.fate <;> simp only [hfate] at h ⊢
  case handed | rejected => exact hoffered _ h
  case cancelled =>
    obtain ⟨i, hi, hreturned⟩ := h
    exact ⟨i, hi, returned_keeps hreturned action⟩
  case expired => exact ⟨h.1, Nat.le_trans h.2 hnow⟩

/-! ### What the ledger takes up -/

theorem mem_settle {request : TxRequest} {fate : Fate} {settlement : Settlement}
    (hmem : settlement ∈ (l.settle request fate).settled) :
    settlement ∈ l.settled ∨ settlement.request = request ∧ settlement.fate = fate := by
  obtain hmem | hmem := List.mem_append.1 hmem
  · exact .inl hmem
  · obtain ⟨p, -, rfl⟩ := List.mem_map.1 hmem
    exact .inr ⟨rfl, rfl⟩

theorem recordOffer_settled (action : Action) : (s.recordOffer l action).settled = l.settled := by
  unfold Radio.recordOffer
  split
  · split <;> rfl
  · rfl

theorem offers_signed {action : Action} {p : Priority} {request : TxRequest}
    (h : s.offers action = some (p, request)) : request.Signed := by
  unfold Radio.offers at h
  split at h
  · split at h
    · split at h
      · cases h
        exact fun hsome => absurd rfl hsome
      · cases h
    · cases h
  · split at h
    · cases h
      exact fun _ => Option.some_ne_none _
    · cases h
  · cases h

theorem recordOffer_signed (h : ∀ p, ∀ request ∈ l.accepted p, request.Signed) (action : Action)
    (p : Priority) : ∀ request ∈ (s.recordOffer l action).accepted p, request.Signed := by
  intro request hmem
  unfold Radio.recordOffer at hmem
  split at hmem
  · rename_i hoffers
    split at hmem
    · rw [accept_accepted] at hmem
      obtain hmem | hmem := List.mem_append.1 hmem
      · exact h p request hmem
      · split at hmem
        · rw [List.mem_singleton.1 hmem]
          exact offers_signed hoffers
        · cases hmem
    · exact h p request hmem
  · exact h p request hmem

theorem recordWork_accepted (accepted : Bool) : (s.recordWork l accepted).accepted = l.accepted := by
  unfold Radio.recordWork
  dsimp only
  split
  · split <;> rfl
  · split <;> rfl
  · split <;> rfl
  · rfl

theorem recordDequeue_keeps (available : Priority → Bool) :
    (s.recordDequeue l available).accepted = l.accepted ∧
      (s.recordDequeue l available).settled = l.settled := by
  unfold Radio.recordDequeue
  dsimp only
  split <;> exact ⟨rfl, rfl⟩

theorem record_signed (h : ∀ p, ∀ request ∈ l.accepted p, request.Signed) (action : Action) :
    ∀ p, ∀ request ∈ (s.record l action).accepted p, request.Signed := by
  cases action with
  | dequeue available =>
    rw [Radio.record, (recordDequeue_keeps available).1]
    exact h
  | work accepted =>
    rw [Radio.record, recordWork_accepted]
    exact h
  | _ => exact recordOffer_signed h _

/-- A request in the worker's hand was accepted. -/
theorem Balanced.holds_accepted (h : Balanced s l) (hundecided : s.worker.phase.undecided = true) :
    ∃ p, s.worker.request ∈ l.accepted p := by
  have hsome := h.holding.trans hundecided
  obtain ⟨p, hp⟩ := Option.isSome_iff_exists.1 hsome
  refine ⟨p, ?_⟩
  rw [h.books p, Radio.inHand, if_pos hp]
  simp

theorem underWay_of_undecided (hundecided : s.worker.phase.undecided = true) :
    s.worker.request ∈ s.underWay := by
  have hbusy : s.worker.phase.busy = true → s.worker.request ∈ s.requests WorkPhase.busy := mem_requests
  refine hbusy ?_
  revert hundecided
  cases s.worker.phase <;> decide

theorem completion_of_inactive (h : s.completionStillActive s.worker.request = false) :
    s.worker.request.completion ≠ none := by
  intro hnone
  simp only [Radio.completionStillActive, hnone] at h
  cases h

/-- A caller whose slot has gone on has returned. -/
theorem returned_of_inactive (howned : Owned s) (hmade : Made s)
    (hmem : s.worker.request ∈ s.underWay) {i : Nat} (hi : i ∈ s.worker.request.sender)
    (hinactive : s.completionStillActive s.worker.request = false) :
    (s.calls i).phase = .returned := by
  obtain ⟨hown, hpast⟩ := hmade.own _ hmem i hi
  cases hholds : (s.calls i).phase.holds with
  | false =>
    revert hholds hpast
    cases (s.calls i).phase <;> decide
  | true =>
    obtain ⟨huse, hgeneration⟩ := howned.active hholds
    rw [hown] at hinactive
    simp only [Radio.completionStillActive, Call.request, huse, hgeneration, Bool.true_and,
      beq_self_eq_true] at hinactive
    cases hinactive

/-- What the worker settles in a step is explained by it. -/
theorem explained_recordWork (h : Audited (s, l)) (accepted : Bool) {settlement : Settlement}
    (hmem : settlement ∈ (s.recordWork l accepted).settled) :
    settlement.Explained (s.workStep accepted) := by
  have hold : settlement ∈ l.settled → settlement.Explained (s.workStep accepted) := fun hmem =>
    (h.explained settlement hmem).step (.work accepted)
  cases hdecided : s.worker.phase.undecided with
  | false => exact hold (by rwa [recordWork_of_decided hdecided] at hmem)
  | true =>
    have hway := underWay_of_undecided hdecided
    have hsigned : s.worker.request.Signed := by
      obtain ⟨p, hp⟩ := h.balanced.holds_accepted hdecided
      exact h.signed p _ hp
    unfold Radio.recordWork at hmem
    dsimp only at hmem
    cases hphase : s.worker.phase <;> simp only [hphase] at hmem
    case checking =>
      split at hmem
      · exact hold hmem
      · rename_i hinactive
        obtain hmem | ⟨hrequest, hfate⟩ := mem_settle hmem
        · exact hold hmem
        · rw [Bool.not_eq_true] at hinactive
          obtain ⟨i, hi⟩ := Option.ne_none_iff_exists'.1 (hsigned (completion_of_inactive hinactive))
          unfold Settlement.Explained
          rw [hfate, hrequest]
          refine ⟨i, hi, ?_⟩
          rw [(workStep_effect s accepted).frame.calls]
          exact returned_of_inactive h.owned h.made hway hi hinactive
    case timing =>
      split at hmem
      · rename_i hlate
        obtain hmem | ⟨hrequest, hfate⟩ := mem_settle hmem
        · exact hold hmem
        · obtain ⟨i, hi⟩ := Option.ne_none_iff_exists'.1 (hsigned hlate.1)
          obtain ⟨henqueued, hnow, -⟩ := request_clock h.made h.timed.clock hway hi
          unfold Settlement.Explained
          rw [hfate, hrequest]
          refine ⟨hsigned hlate.1, ?_⟩
          rw [(workStep_effect s accepted).frame.now]
          rw [henqueued] at hlate
          exact le_now_of_budget_le hnow (Nat.le_refl _) hlate.2
      · exact hold hmem
    case sending =>
      split at hmem <;> rename_i hanswer
      · obtain hmem | ⟨hrequest, hfate⟩ := mem_settle hmem
        · exact hold hmem
        · unfold Settlement.Explained Radio.workStep
          simp only [hfate, hrequest, hphase, if_pos hanswer]
          exact List.mem_append_right _ (.head _)
      · obtain hmem | ⟨hrequest, hfate⟩ := mem_settle hmem
        · exact hold hmem
        · unfold Settlement.Explained Radio.workStep
          simp only [hfate, hrequest, hphase, if_neg hanswer]
          exact List.mem_append_right _ (.head _)
    all_goals exact hold hmem

theorem step_audited {sl : Radio × Ledger} (h : Audited sl) (action : Action) :
    Audited (recordStep sl action) where
  owned := step_owned h.owned action
  made := step_made h.made action
  timed := step_timed h.made h.timed action
  balanced := step_balanced h.balanced action
  signed := record_signed h.signed action
  explained settlement hmem := by
    have hold : settlement ∈ sl.2.settled → settlement.Explained (sl.1.step action) := fun hmem =>
      (h.explained settlement hmem).step action
    change settlement ∈ (sl.1.record sl.2 action).settled at hmem
    cases action with
    | work accepted => exact explained_recordWork h accepted hmem
    | dequeue available => exact hold (by rwa [Radio.record, (recordDequeue_keeps available).2] at hmem)
    | _ =>
      change settlement ∈ (sl.1.recordOffer sl.2 _).settled at hmem
      exact hold (by rwa [recordOffer_settled] at hmem)

theorem init_audited : Audited ({}, {}) where
  owned := init_owned
  made := ⟨.nil, nofun, nofun, nofun⟩
  timed := ⟨fun _ => Nat.le_refl 0, nofun, fun _ => trivial⟩
  balanced := init_balanced
  signed := nofun
  explained := nofun

end audited

/-- In every run each request a queue accepted waits, is in the worker's hand, where the worker
has yet to decide, or is settled; and a settled one was offered to the driver, unless it is of
a call that has returned or whose deadline has passed. -/
theorem run_withheld (actions : List Action) (p : Priority) :
    let run := actions.foldl recordStep ({}, {})
    run.1 = actions.foldl Radio.step {} ∧
      run.2.accepted p = run.2.settledOf p ++ run.1.inHand run.2 p ++ (run.1.queues p).items ∧
      run.2.holding.isSome = run.1.worker.phase.undecided ∧
      ∀ settlement ∈ run.2.settled,
        settlement.Explained run.1 ∧
          (settlement.request.sender = none →
            settlement.fate = .handed ∨ settlement.fate = .rejected) := by
  intro run
  have haudited : Audited run :=
    Run.foldl_keeps recordStep Audited (fun sl action h => step_audited h action) init_audited actions
  refine ⟨foldl_recordStep {} {} actions, haudited.balanced.books p, haudited.balanced.holding,
    fun settlement hmem => ?_⟩
  have hexplained := haudited.explained settlement hmem
  refine ⟨hexplained, fun hnone => ?_⟩
  unfold Settlement.Explained at hexplained
  cases hfate : settlement.fate <;> simp only [hfate] at hexplained
  case handed => exact .inl rfl
  case rejected => exact .inr rfl
  case cancelled =>
    obtain ⟨i, hi, -⟩ := hexplained
    rw [hnone] at hi
    cases hi
  case expired => exact absurd hnone hexplained.1

end BallyDongle.EspNowManager.TxWorker
