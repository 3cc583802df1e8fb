import BallyDongle.EspNowManager.TxWorker

/-!
# What a step of the transmit worker's system can do

One constructor for each branch of a call's and of the worker's next step.
-/

namespace BallyDongle.EspNowManager.TxWorker

open Btp BtpTransport RadioTxScheduler

variable {s : Radio} {i : Nat}

/-! ## A call -/

inductive CallEffect (s : Radio) (i : Nat) : Radio → Prop
  | stays : CallEffect s i s
  | noSlot (hphase : (s.calls i).phase = .acquiring) (hfree : s.freeSlot = none) :
    CallEffect s i (s.setCall i { s.calls i with phase := .returned, noSlot := true })
  | acquires (hphase : (s.calls i).phase = .acquiring) (k : Fin kCompletionSlotCount)
    (hfree : s.freeSlot = some k) :
    CallEffect s i ((s.acquire k).setCall i
      { s.calls i with
        phase := .draining, slot := k, generation := nextGeneration (s.slots k).generation
        acquired := (s.calls i).acquired + 1 })
  | drains (hphase : (s.calls i).phase = .draining)
    (hsignal : (s.slots (s.calls i).slot).signal = true) :
    CallEffect s i (s.setSignal (s.calls i).slot false)
  | drained (hphase : (s.calls i).phase = .draining)
    (hsignal : (s.slots (s.calls i).slot).signal = false) :
    CallEffect s i (s.setCall i { s.calls i with phase := .building })
  | builds (hphase : (s.calls i).phase = .building) :
    CallEffect s i (s.setCall i { s.calls i with phase := .enqueuing, enqueuedAt := s.now })
  | refused (hphase : (s.calls i).phase = .enqueuing)
    (hfull : (s.queues (s.calls i).priority).send ((s.calls i).request i) = none) :
    CallEffect s i (s.setCall i { s.calls i with phase := .releasing, queueFull := true })
  | enqueues (hphase : (s.calls i).phase = .enqueuing)
    (queue : BoundedQueue TxRequest (kTxQueueDepth (s.calls i).priority))
    (hqueue : (s.queues (s.calls i).priority).send ((s.calls i).request i) = some queue) :
    CallEffect s i
      ({ s with queues := Function.update s.queues (s.calls i).priority queue }.setCall i
        { s.calls i with phase := .awaiting })
  | sleeps (hphase : (s.calls i).phase = .awaiting) :
    CallEffect s i (s.setCall i
      { s.calls i with phase := .blocked, expiresAt := s.now + (s.calls i).timeoutMs.toNat })
  | wakes (hphase : (s.calls i).phase = .blocked)
    (hsignal : (s.slots (s.calls i).slot).signal = true) :
    CallEffect s i
      ((s.setSignal (s.calls i).slot false).setCall i { s.calls i with phase := .reading })
  | expires (hphase : (s.calls i).phase = .blocked)
    (hsignal : (s.slots (s.calls i).slot).signal = false)
    (htime : (s.calls i).expiresAt ≤ s.now) :
    CallEffect s i (s.setCall i { s.calls i with phase := .releasing })
  | reads (hphase : (s.calls i).phase = .reading)
    (hactive : (s.slots (s.calls i).slot).inUse = true ∧
      (s.slots (s.calls i).slot).generation = (s.calls i).generation) :
    CallEffect s i (s.setCall i
      { s.calls i with
        phase := .releasing, callbackReceived := (s.slots (s.calls i).slot).callbackReceived
        outDelivered := (s.slots (s.calls i).slot).delivered })
  | readsStale (hphase : (s.calls i).phase = .reading)
    (hactive : ¬((s.slots (s.calls i).slot).inUse = true ∧
      (s.slots (s.calls i).slot).generation = (s.calls i).generation)) :
    CallEffect s i (s.setCall i { s.calls i with phase := .releasing })
  | releases (hphase : (s.calls i).phase = .releasing)
    (hactive : (s.slots (s.calls i).slot).inUse = true ∧
      (s.slots (s.calls i).slot).generation = (s.calls i).generation) :
    CallEffect s i ((s.release (s.calls i).slot).setCall i
      { s.calls i with phase := .returned, released := (s.calls i).released + 1 })
  | releasesStale (hphase : (s.calls i).phase = .releasing)
    (hactive : ¬((s.slots (s.calls i).slot).inUse = true ∧
      (s.slots (s.calls i).slot).generation = (s.calls i).generation)) :
    CallEffect s i (s.setCall i { s.calls i with phase := .returned })

theorem callStep_effect (s : Radio) (i : Nat) : CallEffect s i (s.callStep i) := by
  unfold Radio.callStep
  dsimp only
  cases hphase : (s.calls i).phase <;> dsimp only
  case idle | returned => exact .stays
  case acquiring =>
    cases hfree : s.freeSlot with
    | none => exact .noSlot hphase hfree
    | some k => exact .acquires hphase k hfree
  case draining =>
    cases hsignal : (s.slots (s.calls i).slot).signal with
    | true => exact .drains hphase hsignal
    | false => exact .drained hphase hsignal
  case building => exact .builds hphase
  case enqueuing =>
    cases henqueue : s.enqueueRequest ((s.calls i).request i) (s.calls i).priority with
    | none => exact .refused hphase (Option.map_eq_none_iff.1 henqueue)
    | some s' =>
      obtain ⟨queue, hqueue, rfl⟩ := Option.map_eq_some_iff.1 henqueue
      exact .enqueues hphase queue hqueue
  case awaiting => exact .sleeps hphase
  case blocked =>
    cases hsignal : (s.slots (s.calls i).slot).signal with
    | true => exact .wakes hphase hsignal
    | false =>
      rw [if_neg Bool.false_ne_true]
      split
      · exact .expires hphase hsignal (And.right ‹_›)
      · exact .stays
  case reading =>
    split
    · exact .reads hphase (by assumption)
    · exact .readsStale hphase (by assumption)
  case releasing =>
    split
    · exact .releases hphase (by assumption)
    · exact .releasesStale hphase (by assumption)

/-! ## The other parties -/

theorem sendToMac_effect (s : Radio) (mac : Option Mac) (data : Option Bytes) (p : Priority) :
    s.sendToMac mac data p = s ∨
      ∃ request : TxRequest, request.completion = none ∧ request.sender = none ∧
        ∃ queue, (s.queues p).send request = some queue ∧
          s.sendToMac mac data p = { s with queues := Function.update s.queues p queue } := by
  unfold Radio.sendToMac Radio.enqueueRequest
  split
  · split
    · cases hqueue : (s.queues p).send _ with
      | none => exact .inl rfl
      | some queue => exact .inr ⟨_, rfl, rfl, queue, hqueue, rfl⟩
    · exact .inl rfl
  · exact .inl rfl

theorem sendToMacWithStatus_effect (s : Radio) (i : Nat) (mac : Option Mac) (data : Option Bytes)
    (timeoutMs : UInt32) (p : Priority) :
    s.sendToMacWithStatus i mac data timeoutMs p = s ∨
      ∃ c : Call, (s.calls i).phase = .idle ∧ s.sendToMacWithStatus i mac data timeoutMs p = s.setCall i c ∧
        (c = { phase := .returned, invalid := true } ∨
          ∃ mac data, c = { phase := .acquiring, mac, data, timeoutMs, priority := p }) := by
  unfold Radio.sendToMacWithStatus
  split
  · exact .inl rfl
  · rename_i hidle
    refine .inr ?_
    split
    · exact ⟨_, not_ne_iff.1 hidle, rfl, .inr ⟨_, _, rfl⟩⟩
    · exact ⟨_, not_ne_iff.1 hidle, rfl, .inl rfl⟩

theorem dequeueScheduled_effect (s : Radio) (available : Priority → Bool) :
    s.dequeueScheduled available = s ∨ s.worker.phase = .idle ∧
      ((∃ scheduleCursor,
          s.dequeueScheduled available = s.setWorker { s.worker with scheduleCursor }) ∨
        ∃ p request queue scheduleCursor, (s.queues p).receive = some (request, queue) ∧
          s.dequeueScheduled available =
            { s with queues := Function.update s.queues p queue }.setWorker
              { s.worker with phase := .checking, request, scheduleCursor }) := by
  unfold Radio.dequeueScheduled
  split
  · exact .inl rfl
  · rename_i hguard
    refine .inr ⟨by simpa using (not_or.1 hguard).1, ?_⟩
    dsimp only
    split
    · rename_i hreceive
      exact .inr ⟨_, _, _, _, hreceive, rfl⟩
    · exact .inl ⟨_, rfl⟩

/-! ## The worker -/

/-- The worker is past `completeRequest` for a frame nobody has reported on. -/
def WorkPhase.inGrace : WorkPhase → Bool
  | .graceStarting | .gracePolling | .graceMeasuring | .graceReceiving | .closing => true
  | _ => false

theorem next_cases (w : Worker) : w.next = .graceStarting ∨ w.next = .idle := by
  unfold Worker.next
  split
  · exact .inl rfl
  · exact .inr rfl

inductive WorkEffect (s : Radio) : Radio → Prop
  | stays : WorkEffect s s
  | active (hphase : s.worker.phase = .checking)
    (hactive : s.completionStillActive s.worker.request = true) : WorkEffect s (s.goto .timing)
  | cancels (hphase : s.worker.phase = .checking)
    (hactive : s.completionStillActive s.worker.request = false) : WorkEffect s (s.goto .idle)
  | budgets (hphase : s.worker.phase = .timing) (hnone : s.worker.request.completion = none) :
    WorkEffect s (s.setWorker
      { s.worker with phase := .clearing, callbackBudgetMs := kAsyncCallbackTimeoutMs })
  | late (hphase : s.worker.phase = .timing)
    (hlate : s.worker.request.timeoutMs ≤ s.millis - s.worker.request.enqueuedMs) :
    WorkEffect s (s.complete false false false)
  | inTime (hphase : s.worker.phase = .timing)
    (hlate : ¬s.worker.request.timeoutMs ≤ s.millis - s.worker.request.enqueuedMs) :
    WorkEffect s (s.setWorker
      { s.worker with
        phase := .clearing
        callbackBudgetMs := s.worker.request.timeoutMs - (s.millis - s.worker.request.enqueuedMs) })
  | clears (hphase : s.worker.phase = .clearing) :
    WorkEffect s ({ s with driverStatusQueue := .empty }.goto .sending)
  | sends (hphase : s.worker.phase = .sending) : WorkEffect s (s.sendFrame.goto .starting)
  | rejects (hphase : s.worker.phase = .sending) :
    WorkEffect s (s.rejectFrame.complete false false false)
  | starts (hphase : s.worker.phase = .starting) : WorkEffect s (s.startWait .polling)
  | polls (hphase : s.worker.phase = .polling) : WorkEffect s (s.goto .measuring)
  | pollsOut (hphase : s.worker.phase = .polling)
    (hover : s.worker.callbackBudgetMs ≤ s.millis - s.worker.startedMs) :
    WorkEffect s (s.complete false false true)
  | measures (hphase : s.worker.phase = .measuring) :
    WorkEffect s (s.waitRest s.worker.callbackBudgetMs .receiving)
  | takesOther (hphase : s.worker.phase = .receiving) (status : DriverStatus)
    (queue : BoundedQueue DriverStatus kDriverStatusDepth)
    (hreceive : s.driverStatusQueue.receive = some (status, queue)) :
    WorkEffect s ({ s with driverStatusQueue := queue }.goto .polling)
  | takes (hphase : s.worker.phase = .receiving) (status : DriverStatus)
    (queue : BoundedQueue DriverStatus kDriverStatusDepth)
    (hreceive : s.driverStatusQueue.receive = some (status, queue)) :
    WorkEffect s ({ s with driverStatusQueue := queue }.complete true status.success false)
  | timesOut (hphase : s.worker.phase = .receiving)
    (hempty : s.driverStatusQueue.receive = none) (hover : s.waitOver s.worker.wakesAt = true) :
    WorkEffect s (s.complete false false true)
  | stores (hphase : s.worker.phase = .completing) (k : Fin kCompletionSlotCount)
    (generation : UInt32) (hcompletion : s.worker.request.completion = some (k, generation))
    (huse : (s.slots k).inUse = true) (hgen : (s.slots k).generation = generation) :
    WorkEffect s
      ((s.setSlot k
        { s.slots k with
          callbackReceived := s.worker.callbackReceived, delivered := s.worker.delivered }).setWorker
        { s.worker with phase := .giving, signal := true })
  | storesNot (hphase : s.worker.phase = .completing)
    (hstale : s.completionStillActive s.worker.request = false) :
    WorkEffect s (s.setWorker { s.worker with phase := .giving, signal := false })
  | gives (hphase : s.worker.phase = .giving) (k : Fin kCompletionSlotCount) (generation : UInt32)
    (hcompletion : s.worker.request.completion = some (k, generation))
    (hsignal : s.worker.signal = true) :
    WorkEffect s ((s.setSignal k true).goto s.worker.next)
  | resumes (hphase : s.worker.phase = .completing ∨ s.worker.phase = .giving) :
    WorkEffect s (s.goto s.worker.next)
  | graces (hphase : s.worker.phase.inGrace = true) (w : Worker) (hw : w.phase.inGrace = true)
    (hrequest : w.request = s.worker.request) : WorkEffect s (s.setWorker w)
  | graceTakes (hphase : s.worker.phase.inGrace = true) (status : DriverStatus)
    (queue : BoundedQueue DriverStatus kDriverStatusDepth)
    (hreceive : s.driverStatusQueue.receive = some (status, queue)) (phase : WorkPhase)
    (hnext : phase.inGrace = true) :
    WorkEffect s ({ s with driverStatusQueue := queue }.goto phase)
  | closes (hphase : s.worker.phase = .closing) : WorkEffect s (s.closeWindow.goto .idle)

theorem store_effect (hphase : s.worker.phase = .completing) : WorkEffect s s.store := by
  unfold Radio.store
  dsimp only
  cases hcompletion : s.worker.request.completion with
  | none => exact .resumes (.inl hphase)
  | some ticket =>
    obtain ⟨k, generation⟩ := ticket
    dsimp only
    split
    · rename_i hactive
      rw [Radio.completionStillActive, hcompletion] at hactive
      simp only [Bool.and_eq_true, beq_iff_eq] at hactive
      exact .stores hphase k generation hcompletion hactive.1 hactive.2
    · rename_i hactive
      exact .storesNot hphase (Bool.eq_false_iff.2 hactive)

theorem give_effect (hphase : s.worker.phase = .giving) : WorkEffect s s.give := by
  unfold Radio.give
  dsimp only
  split
  · exact .gives hphase _ _ (by assumption) (by assumption)
  · exact .resumes (.inr hphase)

theorem workStep_effect (s : Radio) (accepted : Bool) : WorkEffect s (s.workStep accepted) := by
  unfold Radio.workStep
  dsimp only
  cases hphase : s.worker.phase <;> dsimp only
  case idle => exact .stays
  case checking =>
    cases hactive : s.completionStillActive s.worker.request with
    | false => exact .cancels hphase hactive
    | true => exact .active hphase hactive
  case timing =>
    split
    · exact .budgets hphase (by assumption)
    · split
      · exact .late hphase (by assumption)
      · exact .inTime hphase (by assumption)
  case clearing => exact .clears hphase
  case sending =>
    cases accepted with
    | false => exact .rejects hphase
    | true => exact .sends hphase
  case starting => exact .starts hphase
  case polling =>
    split
    · exact .polls hphase
    · exact .pollsOut hphase (Std.not_lt.1 ‹_›)
  case measuring => exact .measures hphase
  case receiving =>
    split
    · rename_i hreceive
      split
      · exact .takesOther hphase _ _ hreceive
      · exact .takes hphase _ _ hreceive
    · split
      · exact .timesOut hphase (by assumption) (by assumption)
      · exact .stays
  case completing => exact store_effect hphase
  case giving => exact give_effect hphase
  case graceStarting | graceMeasuring => exact .graces (by rw [hphase]; rfl) _ rfl rfl
  case gracePolling => exact .graces (by rw [hphase]; rfl) _ (by split <;> rfl) rfl
  case graceReceiving =>
    have hgrace : s.worker.phase.inGrace = true := by rw [hphase]; rfl
    split
    · exact .graceTakes hgrace _ _ (by assumption) _ (by split <;> rfl)
    · split
      · exact .graces hgrace _ rfl rfl
      · exact .stays
  case closing => exact .closes hphase

end BallyDongle.EspNowManager.TxWorker
