import BallyDongle.EspNowManager.Completion

/-!
# Requests and deadlines

A call makes one request, and until its completion has been handed over the request is
in one place. The worker gives up on it for want of a callback only when its deadline
has passed, although it computes with readings of a clock that wraps.
-/

namespace BallyDongle.EspNowManager.TxWorker

open Btp BtpTransport RadioTxScheduler WrapClock

/-- The call has made its request. -/
def CallPhase.past : CallPhase → Bool
  | .awaiting | .blocked | .reading | .releasing | .returned => true
  | _ => false

/-- The worker has yet to hand over the completion of the request it took. -/
def WorkPhase.busy (phase : WorkPhase) : Bool := phase.inHand || phase == .giving

def Radio.underWay (s : Radio) : List TxRequest := s.requests WorkPhase.busy

/-- The two requests are not of one call. -/
def Apart (a b : TxRequest) : Prop := ∀ i, a.sender = some i → b.sender ≠ some i

structure Made (s : Radio) : Prop where
  apart : s.underWay.Pairwise Apart
  own : ∀ request ∈ s.underWay, ∀ i ∈ request.sender,
    request = (s.calls i).request i ∧ (s.calls i).phase.past = true
  sent : ∀ frame ∈ s.onAir.toList ++ s.overdue, ∀ i ∈ frame.sender,
    (s.calls i).phase.past = true
  reported : ∀ report ∈ s.reports, (s.calls report.call).phase.past = true

section made

variable {s s' : Radio} {i : Nat}

theorem Apart.symm {a b : TxRequest} (h : Apart a b) : Apart b a := fun i hb ha => h i ha hb

theorem Made.of_same (h : Made s) (hcalls : s'.calls = s.calls)
    (hrequests : s'.underWay.Subperm s.underWay)
    (hframes : ∀ frame ∈ s'.onAir.toList ++ s'.overdue, frame ∈ s.onAir.toList ++ s.overdue ∨
      frame ∈ s.underWay)
    (hreports : s'.reports = s.reports) : Made s' where
  apart := by
    obtain ⟨requests, hperm, hsublist⟩ := hrequests
    exact (hperm.pairwise_iff Apart.symm).1 (h.apart.sublist hsublist)
  own request hmem := by
    rw [hcalls]
    exact h.own request (hrequests.subset hmem)
  sent frame hmem i hi := by
    rw [hcalls]
    exact (hframes frame hmem).elim (h.sent frame · i hi) fun hway => (h.own frame hway i hi).2
  reported := by
    rw [hcalls, hreports]
    exact h.reported

/-- A call that has made its request keeps to it. -/
theorem Made.move (h : Made s) {c : Call}
    (hkeep : (s.calls i).phase.past = true →
      c.request i = (s.calls i).request i ∧ c.phase.past = true) : Made (s.setCall i c) := by
  have hpast : ∀ j, (s.calls j).phase.past = true → ((s.setCall i c).calls j).phase.past = true := by
    intro j hj
    by_cases hji : j = i
    · subst hji
      rw [setCall_self]
      exact (hkeep hj).2
    · rwa [setCall_of_ne c hji]
  refine ⟨h.apart, fun request hmem j hj => ?_, fun frame hmem j hj => ?_, fun report hmem => ?_⟩
  · obtain ⟨hown, hwas⟩ := h.own request hmem j hj
    refine ⟨?_, hpast j hwas⟩
    by_cases hji : j = i
    · subst hji
      rw [setCall_self, (hkeep hwas).1]
      exact hown
    · rwa [setCall_of_ne c hji]
  · exact hpast j (h.sent frame hmem j hj)
  · exact hpast _ (h.reported report hmem)

theorem Made.enqueue (h : Made s) {p : Priority} {new : TxRequest}
    {queue : BoundedQueue TxRequest (kTxQueueDepth p)} (hsend : (s.queues p).send new = some queue)
    {c : Call} (hnew : new = c.request i) (hpast : (s.calls i).phase.past = false)
    (hc : c.phase.past = true) :
    Made ({ s with queues := Function.update s.queues p queue }.setCall i c) := by
  have hnot : ∀ request ∈ s.underWay, request.sender ≠ some i := by
    intro request hmem hi
    rw [(h.own request hmem i hi).2] at hpast
    cases hpast
  have hmoved := h.move (i := i) (c := c) fun hwas => absurd hwas (by rw [hpast]; exact nofun)
  have hperm : ({ s with queues := Function.update s.queues p queue }.setCall i c).underWay.Perm
      (new :: s.underWay) := requests_enqueue hsend
  refine ⟨(hperm.pairwise_iff Apart.symm).2 (.cons (fun request hmem j hj => ?_) h.apart),
    fun request hmem j hj => ?_, hmoved.sent, hmoved.reported⟩
  · rw [hnew] at hj
    cases hj
    exact hnot request hmem
  · obtain rfl | hmem := List.mem_cons.1 (hperm.mem_iff.1 hmem)
    · rw [hnew] at hj
      cases hj
      rw [setCall_self]
      exact ⟨hnew, hc⟩
    · exact hmoved.own request hmem j hj

theorem Made.setSlot (h : Made s) (k : Fin kCompletionSlotCount) (slot : CompletionSlot) :
    Made (s.setSlot k slot) := h.of_same rfl (.refl _) (fun _ => .inl) rfl

theorem CallEffect.made (heffect : CallEffect s i s') (h : Made s) : Made s' := by
  cases heffect with
  | stays => exact h
  | acquires hphase k =>
    refine (h.setSlot k _).move fun hwas => ?_
    change (s.calls i).phase.past = true at hwas
    rw [hphase] at hwas
    cases hwas
  | drains => exact h.setSlot _ _
  | enqueues hphase queue hqueue => exact h.enqueue hqueue rfl (by rw [hphase]; rfl) rfl
  | wakes | releases => exact (h.setSlot _ _).move fun _ => ⟨rfl, rfl⟩
  | noSlot hphase | drained hphase | builds hphase | refused hphase =>
    exact h.move fun hwas => by rw [hphase] at hwas; cases hwas
  | sleeps | expires | reads | readsStale | releasesStale => exact h.move fun _ => ⟨rfl, rfl⟩

theorem not_busy_of_inGrace {phase : WorkPhase} (h : phase.inGrace = true) : phase.busy ≠ true := by
  revert h
  cases phase <;> decide

theorem WorkEffect.underWay_sublist (heffect : WorkEffect s s') :
    s'.underWay.Sublist s.underWay := by
  refine requests_work heffect.frame.queues fun hbusy => ?_
  cases heffect with
  | stays => exact ⟨hbusy, rfl⟩
  | cancels | closes => cases hbusy
  | gives | resumes =>
    change s.worker.next.busy = true at hbusy
    obtain hnext | hnext := next_cases s.worker <;> rw [hnext] at hbusy <;> cases hbusy
  | graces _ w hw => exact absurd hbusy (not_busy_of_inGrace hw)
  | graceTakes _ status queue _ phase hnext => exact absurd hbusy (not_busy_of_inGrace hnext)
  | active hphase | budgets hphase | late hphase | inTime hphase | clears hphase | sends hphase
  | rejects hphase | starts hphase | polls hphase | pollsOut hphase | measures hphase
  | takesOther hphase | takes hphase | timesOut hphase | stores hphase | storesNot hphase =>
    exact ⟨by rw [hphase]; rfl, rfl⟩

theorem WorkEffect.made (heffect : WorkEffect s s') (h : Made s) : Made s' := by
  refine h.of_same heffect.frame.calls heffect.underWay_sublist.subperm (fun frame hmem => ?_) ?_
  · cases heffect with
    | sends hphase =>
      obtain hmem | hmem := List.mem_append.1 hmem
      · obtain rfl := List.mem_singleton.1 hmem
        exact .inr (mem_requests (by rw [hphase]; rfl))
      · exact .inl (List.mem_append.2 (List.mem_append.1 hmem).symm)
    | closes =>
      change frame ∈ s.overdue ++ s.onAir.toList at hmem
      exact .inl (List.mem_append.2 (List.mem_append.1 hmem).symm)
    | _ => exact .inl hmem
  · cases heffect <;> rfl

theorem Made.callback (h : Made s) {request : TxRequest} {success : Bool} {onAir : Option TxRequest}
    {overdue : List TxRequest} (hrequest : request ∈ s.onAir.toList ++ s.overdue)
    (hframes : ∀ frame ∈ onAir.toList ++ overdue, frame ∈ s.onAir.toList ++ s.overdue) :
    Made ({ s with onAir, overdue }.handleSend request success) where
  apart := h.apart
  own := h.own
  sent frame hmem := h.sent frame (hframes frame hmem)
  reported report hmem := by
    obtain hmem | hmem := List.mem_append.1 hmem
    · exact h.reported report hmem
    · obtain ⟨i, hi, rfl⟩ := List.mem_map.1 hmem
      exact h.sent request hrequest i (Option.mem_toList.1 hi)

theorem step_made (h : Made s) (action : Action) : Made (s.step action) := by
  cases action with
  | elapse ms => exact h.of_same rfl (.refl _) (fun _ => .inl) rfl
  | sendToMac mac data p =>
    rw [Radio.step]
    obtain e | ⟨new, -, hnone, queue, hqueue, e⟩ := sendToMac_effect s mac data p <;> rw [e]
    · exact h
    · have hperm : { s with queues := Function.update s.queues p queue }.underWay.Perm
          (new :: s.underWay) := requests_enqueue hqueue
      refine ⟨(hperm.pairwise_iff Apart.symm).2 (.cons (fun request _ j hj => ?_) h.apart),
        fun request hmem j hj => ?_, h.sent, h.reported⟩
      · rw [hnone] at hj
        cases hj
      · obtain rfl | hmem := List.mem_cons.1 (hperm.mem_iff.1 hmem)
        · rw [hnone] at hj
          cases hj
        · exact h.own request hmem j hj
  | sendToMacWithStatus i mac data timeoutMs p =>
    rw [Radio.step]
    obtain e | ⟨c, hidle, e, -⟩ := sendToMacWithStatus_effect s i mac data timeoutMs p <;> rw [e]
    · exact h
    · exact h.move fun hwas => by rw [hidle] at hwas; cases hwas
  | call i => exact (callStep_effect s i).made h
  | dequeue available =>
    rw [Radio.step]
    obtain e | ⟨hidle, ⟨cursor, e⟩ | ⟨p, request, queue, cursor, hreceive, e⟩⟩ :=
      dequeueScheduled_effect s available <;> rw [e]
    · exact h
    · exact h.of_same rfl (.refl _) (fun _ => .inl) rfl
    · exact h.of_same rfl (requests_dequeue hreceive (by rw [hidle]; rfl) rfl).subperm
        (fun _ => .inl) rfl
  | work accepted => exact (workStep_effect s accepted).made h
  | callback success =>
    rw [Radio.step]
    cases honAir : s.onAir with
    | none => exact h
    | some request =>
      refine h.callback ?_ fun frame hmem => List.mem_append_right _ hmem
      rw [honAir]
      exact .head _
  | overdueCallback index success =>
    rw [Radio.step]
    cases hget : s.overdue[index]? with
    | none => exact h
    | some request =>
      refine h.callback (List.mem_append_right _ (List.mem_of_getElem? hget)) fun frame hmem => ?_
      exact (List.mem_append.1 hmem).elim (List.mem_append_left _)
        fun hmem => List.mem_append_right _ (List.mem_of_mem_eraseIdx hmem)

end made

/-! ## Deadlines -/

def Call.deadline (c : Call) : Nat := c.enqueuedAt + c.timeoutMs.toNat

def TxRequest.deadline (request : TxRequest) : Nat := request.enqueuedAt + request.timeoutMs.toNat

/-- The budget of the wait for a callback reaches to the request's deadline. -/
structure Started (s : Radio) : Prop where
  reading : s.worker.startedMs = reading s.worker.startedAt
  startedAt_le : s.worker.startedAt ≤ s.now
  deadline_le : s.worker.request.deadline ≤
    s.worker.startedAt + s.worker.callbackBudgetMs.toNat

/-- The worker does not give up on its request before the deadline. -/
def OnTime (s : Radio) : Prop :=
  match s.worker.phase with
  | .clearing | .sending | .starting =>
    s.worker.request.deadline ≤ s.now + s.worker.callbackBudgetMs.toNat
  | .polling | .measuring => Started s
  | .receiving => Started s ∧ ∀ wakesAt ∈ s.worker.wakesAt, s.worker.request.deadline ≤ wakesAt
  | .completing => s.worker.callbackReceived = false → ∀ i ∈ s.worker.request.sender,
      i ∈ s.rejected ∨ s.worker.request.deadline ≤ s.now
  | _ => True

structure Timed (s : Radio) : Prop where
  clock : ∀ i, (s.calls i).enqueuedAt ≤ s.now
  blocked : ∀ i, (s.calls i).phase = .blocked → (s.calls i).deadline ≤ (s.calls i).expiresAt
  onTime : s.worker.request.sender ≠ none → OnTime s

section timed

variable {s s' : Radio} {i : Nat}

/-- Of a request under way the reading is of its instant, which has been. -/
theorem request_clock (hmade : Made s) (h : ∀ i, (s.calls i).enqueuedAt ≤ s.now)
    {request : TxRequest} (hmem : request ∈ s.underWay) (hi : i ∈ request.sender) :
    request.enqueuedMs = reading request.enqueuedAt ∧ request.enqueuedAt ≤ s.now ∧
      request.completion ≠ none := by
  rw [(hmade.own request hmem i hi).1]
  exact ⟨rfl, h i, nofun⟩

/-- The end of a wait for the rest of the budget. -/
theorem Started.deadline_le_waitEnd (h : Started s) {wakesAt : Nat}
    (hwakes : wakesAt ∈ s.waitEnd
      (if 0 < s.worker.callbackBudgetMs - (s.millis - s.worker.startedMs) then
        s.worker.callbackBudgetMs - (s.millis - s.worker.startedMs) else 1)) :
    s.worker.request.deadline ≤ wakesAt := by
  have hleft := le_now_add_left h.startedAt_le h.deadline_le
  rw [← h.reading] at hleft
  change _ ≤ s.now + (s.worker.callbackBudgetMs - (s.millis - s.worker.startedMs)).toNat at hleft
  generalize s.worker.callbackBudgetMs - (s.millis - s.worker.startedMs) = remainingMs at *
  have hticks : remainingMs.toNat ≤ (if 0 < remainingMs then remainingMs else 1).toNat := by
    split
    · exact Nat.le_refl _
    · rename_i hzero
      rw [Std.not_lt, UInt32.le_iff_toNat_le] at hzero
      exact Nat.le_trans hzero (Nat.zero_le _)
  generalize (if 0 < remainingMs then remainingMs else 1) = ticks at *
  rw [Radio.waitEnd] at hwakes
  split at hwakes
  · cases hwakes
  · have hwakesAt := Option.some.inj hwakes
    omega

theorem WorkEffect.request (heffect : WorkEffect s s') : s'.worker.request = s.worker.request := by
  cases heffect with
  | graces _ w _ hrequest => exact hrequest
  | _ => rfl

theorem onTime_of_inGrace (h : s.worker.phase.inGrace = true) : OnTime s := by
  unfold OnTime
  split <;> first | trivial | (rename_i hphase; rw [hphase] at h; cases h)

theorem WorkEffect.onTime (heffect : WorkEffect s s') (hmade : Made s)
    (hclock : ∀ i, (s.calls i).enqueuedAt ≤ s.now) (hsync : s.worker.request.sender ≠ none)
    (h : OnTime s) : OnTime s' := by
  obtain ⟨i, hi⟩ := Option.ne_none_iff_exists'.1 hsync
  have hrequest : s.worker.phase.busy = true →
      s.worker.request.enqueuedMs = reading s.worker.request.enqueuedAt ∧
        s.worker.request.enqueuedAt ≤ s.now ∧ s.worker.request.completion ≠ none :=
    fun hbusy => request_clock hmade hclock (mem_requests hbusy) hi
  cases heffect with
  | stays => exact h
  | active | cancels | stores | storesNot | closes => exact trivial
  | budgets hphase hnone => exact absurd hnone (hrequest (by rw [hphase]; rfl)).2.2
  | inTime hphase hlate =>
    obtain ⟨hreading, hwas, -⟩ := hrequest (by rw [hphase]; rfl)
    have hleft := @le_now_add_left _ _ _ s.worker.request.timeoutMs hwas (Nat.le_refl _)
    rw [← hreading] at hleft
    exact hleft
  | late hphase hlate =>
    obtain ⟨hreading, hwas, -⟩ := hrequest (by rw [hphase]; rfl)
    rw [hreading] at hlate
    exact fun _ j _ => .inr (le_now_of_budget_le hwas (Nat.le_refl _) hlate)
  | clears hphase | sends hphase =>
    rw [OnTime, hphase] at h
    exact h
  | rejects hphase => exact fun _ j hj => .inl (List.mem_append_right _ (Option.mem_toList.2 hj))
  | starts hphase =>
    rw [OnTime, hphase] at h
    exact ⟨rfl, Nat.le_refl _, h⟩
  | polls hphase =>
    rw [OnTime, hphase] at h
    exact ⟨h.reading, h.startedAt_le, h.deadline_le⟩
  | pollsOut hphase hover =>
    rw [OnTime, hphase] at h
    rw [h.reading] at hover
    exact fun _ j _ => .inr (le_now_of_budget_le h.startedAt_le h.deadline_le hover)
  | measures hphase =>
    rw [OnTime, hphase] at h
    exact ⟨⟨h.reading, h.startedAt_le, h.deadline_le⟩, fun wakesAt => h.deadline_le_waitEnd⟩
  | takesOther hphase =>
    rw [OnTime, hphase] at h
    exact ⟨h.1.reading, h.1.startedAt_le, h.1.deadline_le⟩
  | takes => exact nofun
  | timesOut hphase _ hover =>
    rw [OnTime, hphase] at h
    cases hwakes : s.worker.wakesAt with
    | none =>
      rw [hwakes] at hover
      cases hover
    | some wakesAt =>
      rw [hwakes] at hover
      exact fun _ j _ => .inr (Nat.le_trans (h.2 wakesAt hwakes) (of_decide_eq_true hover))
  | gives | resumes =>
    obtain hnext | hnext := next_cases s.worker <;> rw [hnext] <;> exact trivial
  | graces _ w hw => exact onTime_of_inGrace hw
  | graceTakes _ status queue _ phase hnext => exact onTime_of_inGrace hnext

theorem OnTime.mono (h : OnTime s) (hworker : s'.worker = s.worker) (hnow : s.now ≤ s'.now)
    (hrejected : s'.rejected = s.rejected) : OnTime s' := by
  have hstarted : Started s → Started s' := fun hs =>
    ⟨by rw [hworker]; exact hs.reading, by rw [hworker]; exact Nat.le_trans hs.startedAt_le hnow,
      by rw [hworker]; exact hs.deadline_le⟩
  unfold OnTime at h ⊢
  rw [hworker, hrejected]
  split at h
  case h_1 | h_2 | h_3 => exact Nat.le_trans h (Nat.add_le_add_right hnow _)
  case h_4 | h_5 => exact hstarted h
  case h_6 => exact ⟨hstarted h.1, h.2⟩
  case h_7 => exact fun hnone j hj => (h hnone j hj).imp id fun hle => Nat.le_trans hle hnow
  case h_8 => exact trivial

theorem Timed.of_same (h : Timed s) (hcalls : s'.calls = s.calls) (hnow : s.now ≤ s'.now)
    (honTime : s'.worker.request.sender ≠ none → OnTime s') : Timed s' where
  clock i := by
    rw [hcalls]
    exact Nat.le_trans (h.clock i) hnow
  blocked := by
    rw [hcalls]
    exact h.blocked
  onTime := honTime

theorem Timed.move (h : Timed s) {c : Call} (hclock : c.enqueuedAt ≤ s.now)
    (hblocked : c.phase = .blocked → c.deadline ≤ c.expiresAt) : Timed (s.setCall i c) := by
  refine ⟨fun j => ?_, fun j => ?_, fun hsync => (h.onTime hsync).mono rfl (Nat.le_refl _) rfl⟩ <;>
    by_cases hj : j = i
  · subst hj
    rw [setCall_self]
    exact hclock
  · rw [setCall_of_ne c hj]
    exact h.clock j
  · subst hj
    rw [setCall_self]
    exact hblocked
  · rw [setCall_of_ne c hj]
    exact h.blocked j

theorem Timed.same (h : Timed s) (hcalls : s'.calls = s.calls) (hworker : s'.worker = s.worker)
    (hnow : s.now ≤ s'.now) (hrejected : s'.rejected = s.rejected) : Timed s' :=
  h.of_same hcalls hnow fun hsync => (h.onTime (hworker ▸ hsync)).mono hworker hnow hrejected

theorem CallEffect.timed (heffect : CallEffect s i s') (h : Timed s) : Timed s' := by
  cases heffect with
  | stays => exact h
  | drains => exact h.same rfl rfl (Nat.le_refl _) rfl
  | acquires => exact (@Timed.same s (s.acquire _) h rfl rfl (Nat.le_refl _) rfl).move (h.clock i) nofun
  | wakes | releases =>
    exact (@Timed.same s (s.setSlot _ _) h rfl rfl (Nat.le_refl _) rfl).move (h.clock i) nofun
  | enqueues hphase queue =>
    have hqueued : Timed { s with queues := Function.update s.queues (s.calls i).priority queue } :=
      h.same rfl rfl (Nat.le_refl _) rfl
    exact hqueued.move (h.clock i) nofun
  | builds => exact h.move (Nat.le_refl _) nofun
  | sleeps => exact h.move (h.clock i) fun _ => Nat.add_le_add_right (h.clock i) _
  | noSlot | drained | refused | expires | reads | readsStale | releasesStale =>
    exact h.move (h.clock i) nofun

theorem step_timed (hmade : Made s) (h : Timed s) (action : Action) : Timed (s.step action) := by
  cases action with
  | elapse ms => exact h.same rfl rfl (Nat.le_add_right _ _) rfl
  | sendToMac mac data p =>
    rw [Radio.step]
    obtain e | ⟨request, -, -, queue, -, e⟩ := sendToMac_effect s mac data p <;> rw [e]
    · exact h
    · exact h.same rfl rfl (Nat.le_refl _) rfl
  | sendToMacWithStatus i mac data timeoutMs p =>
    rw [Radio.step]
    obtain e | ⟨c, -, e, hc⟩ := sendToMacWithStatus_effect s i mac data timeoutMs p <;> rw [e]
    · exact h
    · obtain rfl | ⟨mac, data, rfl⟩ := hc <;> 
        exact h.move (Nat.zero_le _) fun h => by cases h
  | call i => exact (callStep_effect s i).timed h
  | dequeue available =>
    rw [Radio.step]
    obtain e | ⟨hidle, ⟨cursor, e⟩ | ⟨p, request, queue, cursor, -, e⟩⟩ :=
      dequeueScheduled_effect s available <;> rw [e]
    · exact h
    · refine h.of_same rfl (Nat.le_refl _) fun _ => ?_
      unfold OnTime
      dsimp only [Radio.setWorker]
      rw [hidle]
      exact trivial
    · exact h.of_same rfl (Nat.le_refl _) fun _ => trivial
  | work accepted =>
    have heffect := workStep_effect s accepted
    have hframe := heffect.frame
    refine h.of_same hframe.calls (Nat.le_of_eq hframe.now.symm) fun hsync => ?_
    rw [Radio.step, heffect.request] at hsync
    exact heffect.onTime hmade h.clock hsync (h.onTime hsync)
  | callback success =>
    rw [Radio.step]
    split
    · exact h
    · exact h.same rfl rfl (Nat.le_refl _) rfl
  | overdueCallback index success =>
    rw [Radio.step]
    split
    · exact h
    · exact h.same rfl rfl (Nat.le_refl _) rfl

end timed

end BallyDongle.EspNowManager.TxWorker
