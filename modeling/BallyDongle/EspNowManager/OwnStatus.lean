import BallyDongle.EspNowManager.Completion

/-!
# A delivery status is the sender's own

The driver's status queue does not say which frame a status is for. As long as every
callback comes before its frame's window ends, the queue holds statuses of the
worker's own frame only, and what a call is told is what the driver reported of it.
-/

namespace BallyDongle.EspNowManager.TxWorker

open Btp BtpTransport RadioTxScheduler

/-- The driver made a callback for the call's frame. -/
def Reported (s : Radio) (i : Nat) (success : Bool) : Prop :=
  ∃ instant, { call := i, success, instant } ∈ s.reports

/-- What a call may be told: a callback for its own frame, or nothing. -/
def Told (s : Radio) (i : Nat) (callbackReceived delivered : Bool) : Prop :=
  if callbackReceived then Reported s i delivered else delivered = false

/-- No callback comes after its frame's window. -/
def InWindow : Action → Prop
  | .overdueCallback _ _ => False
  | _ => True

/-- The worker may take a status. -/
def WorkPhase.awaits : WorkPhase → Bool
  | .starting | .polling | .measuring | .receiving => true
  | _ => false

/-- The window of the worker's frame is open. -/
def Worker.open (w : Worker) : Bool :=
  w.phase.awaits || w.phase.inGrace || (w.phase == .completing || w.phase == .giving) && w.grace

structure OwnCallback (s : Radio) : Prop where
  completing : s.worker.phase = .completing → ∀ i ∈ s.worker.request.sender,
    Told s i s.worker.callbackReceived s.worker.delivered
  statuses : s.worker.phase.awaits = true → ∀ status ∈ s.driverStatusQueue.items,
    ∀ i ∈ s.worker.request.sender, Reported s i status.success
  cleared : s.worker.phase = .sending → s.driverStatusQueue.items = []
  onAir : ∀ frame ∈ s.onAir, s.worker.open = true ∧ frame = s.worker.request ∧
    s.driverStatusQueue.items = []

section callback

variable {s s' : Radio} {i : Nat}

theorem Told.mono {received delivered : Bool} (h : Told s i received delivered)
    (hreports : ∀ report ∈ s.reports, report ∈ s'.reports) : Told s' i received delivered := by
  unfold Told at h ⊢
  split
  · rename_i hreceived
    rw [if_pos hreceived] at h
    exact h.imp fun instant hmem => hreports _ hmem
  · rename_i hreceived
    rwa [if_neg hreceived] at h

theorem told_nothing (s : Radio) (i : Nat) : Told s i false false := rfl

theorem OwnCallback.of_same (h : OwnCallback s) (hworker : s'.worker = s.worker)
    (hqueue : s'.driverStatusQueue = s.driverStatusQueue) (honAir : s'.onAir = s.onAir)
    (hreports : s'.reports = s.reports) : OwnCallback s' := by
  have hrep : ∀ report ∈ s.reports, report ∈ s'.reports := fun _ hmem => hreports ▸ hmem
  constructor
  · rw [hworker]
    exact fun hphase i hi => (h.completing hphase i hi).mono hrep
  · rw [hworker, hqueue]
    exact fun hphase status hstatus i hi =>
      (h.statuses hphase status hstatus i hi).imp fun _ hmem => hrep _ hmem
  · rw [hworker, hqueue]
    exact h.cleared
  · rw [hworker, hqueue, honAir]
    exact h.onAir

theorem OwnCallback.setSlot (h : OwnCallback s) (k : Fin kCompletionSlotCount)
    (slot : CompletionSlot) : OwnCallback (s.setSlot k slot) := h.of_same rfl rfl rfl rfl

/-- The worker moves on with its request, and keeps the window of a frame on air open. -/
theorem OwnCallback.moved (h : OwnCallback s) {w : Worker} (hrequest : w.request = s.worker.request)
    (hcompleting : w.phase = .completing → ∀ i ∈ s.worker.request.sender,
      Told s i w.callbackReceived w.delivered)
    (hawaits : w.phase.awaits = true → s.worker.phase.awaits = true) (hsending : w.phase ≠ .sending)
    (hopen : s.worker.open = true → w.open = true ∨ s.onAir = none) :
    OwnCallback (s.setWorker w) := by
  constructor
  · show w.phase = _ → ∀ i ∈ w.request.sender, Told s i w.callbackReceived w.delivered
    rw [hrequest]
    exact hcompleting
  · show w.phase.awaits = true → ∀ status ∈ s.driverStatusQueue.items, ∀ i ∈ w.request.sender,
      Reported s i status.success
    rw [hrequest]
    exact fun hphase => h.statuses (hawaits hphase)
  · exact fun hphase => absurd hphase hsending
  · intro frame hframe
    obtain ⟨hwas, hown, hempty⟩ := h.onAir frame hframe
    obtain hw | hnone := hopen hwas
    · exact ⟨hw, hown.trans hrequest.symm, hempty⟩
    · change frame ∈ s.onAir at hframe
      rw [hnone] at hframe
      cases hframe

/-- As long as the queue shows a status the frame is not on air. -/
theorem OwnCallback.not_onAir (h : OwnCallback s) (hne : s.driverStatusQueue.items ≠ []) :
    s.onAir = none := by
  cases honAir : s.onAir with
  | none => rfl
  | some frame => exact absurd (h.onAir frame honAir).2.2 hne

theorem OwnCallback.taken (h : OwnCallback s) {status : DriverStatus}
    {queue : BoundedQueue DriverStatus kDriverStatusDepth}
    (hreceive : s.driverStatusQueue.receive = some (status, queue)) :
    OwnCallback { s with driverStatusQueue := queue } ∧ s.onAir = none := by
  have hitems := BoundedQueue.receive_eq_some hreceive
  have hne : s.driverStatusQueue.items ≠ [] := by
    rw [hitems]
    exact List.cons_ne_nil _ _
  refine ⟨⟨h.completing, fun hphase other hother => ?_, fun hphase => ?_, fun frame hframe => ?_⟩,
    h.not_onAir hne⟩
  · refine h.statuses hphase other ?_
    rw [hitems]
    exact .tail _ hother
  · exact absurd (h.cleared hphase) hne
  · change frame ∈ s.onAir at hframe
    rw [h.not_onAir hne] at hframe
    cases hframe

/-- After `completeRequest` the window is open just when the worker waits on. -/
theorem OwnCallback.resumed (h : OwnCallback s)
    (hphase : s.worker.phase = .completing ∨ s.worker.phase = .giving) :
    OwnCallback (s.goto s.worker.next) := by
  have hgrace : s.worker.open = s.worker.grace := by
    obtain hphase | hphase := hphase <;> rw [Worker.open, hphase] <;> rfl
  cases hnext : s.worker.grace with
  | true =>
    have hstart : s.worker.next = .graceStarting := if_pos hnext
    rw [hstart]
    exact h.moved rfl nofun nofun nofun fun _ => .inl rfl
  | false =>
    have hidle : s.worker.next = .idle := if_neg (by rw [hnext]; exact Bool.false_ne_true)
    rw [hidle]
    refine h.moved rfl nofun nofun nofun fun hopen => ?_
    rw [hgrace, hnext] at hopen
    cases hopen

theorem OwnCallback.graced (h : OwnCallback s) {w : Worker} (hw : w.phase.inGrace = true)
    (hrequest : w.request = s.worker.request) : OwnCallback (s.setWorker w) := by
  have hphase : w.phase ≠ .completing ∧ w.phase.awaits ≠ true ∧ w.phase ≠ .sending := by
    revert hw
    cases w.phase <;> decide
  refine h.moved hrequest (absurd · hphase.1) (absurd · hphase.2.1) hphase.2.2 fun _ => .inl ?_
  rw [Worker.open, hw, Bool.or_true, Bool.true_or]

theorem WorkEffect.ownCallback (heffect : WorkEffect s s') (h : OwnCallback s) :
    OwnCallback s' := by
  have hnothing : ∀ i ∈ s.worker.request.sender, Told s i false false := fun i _ => told_nothing s i
  cases heffect with
  | stays => exact h
  | active hphase | cancels hphase | budgets hphase | inTime hphase =>
    refine h.moved rfl nofun nofun nofun fun hopen => ?_
    rw [Worker.open, hphase] at hopen
    cases hopen
  | late hphase =>
    refine h.moved rfl (fun _ => hnothing) nofun nofun fun hopen => ?_
    rw [Worker.open, hphase] at hopen
    cases hopen
  | rejects hphase =>
    have hrejected : OwnCallback s.rejectFrame := h.of_same rfl rfl rfl rfl
    refine hrejected.moved rfl (fun _ => hnothing) nofun nofun fun hopen => ?_
    change s.worker.open = true at hopen
    rw [Worker.open, hphase] at hopen
    cases hopen
  | clears hphase =>
    refine ⟨nofun, nofun, fun _ => rfl, fun frame hframe => ?_⟩
    have hopen := (h.onAir frame hframe).1
    rw [Worker.open, hphase] at hopen
    cases hopen
  | sends hphase =>
    have hempty := h.cleared hphase
    refine ⟨nofun, fun _ status hstatus => ?_, nofun, fun frame hframe => ?_⟩
    · change status ∈ s.driverStatusQueue.items at hstatus
      rw [hempty] at hstatus
      cases hstatus
    · cases hframe
      exact ⟨rfl, rfl, hempty⟩
  | starts hphase | polls hphase | measures hphase =>
    exact h.moved rfl nofun (fun _ => by rw [hphase]; rfl) nofun fun _ => .inl rfl
  | pollsOut hphase | timesOut hphase =>
    exact h.moved rfl (fun _ => hnothing) nofun nofun fun _ => .inl rfl
  | takesOther hphase status queue hreceive =>
    exact (h.taken hreceive).1.moved rfl nofun (fun _ => by rw [hphase]; rfl) nofun
      fun _ => .inl rfl
  | takes hphase status queue hreceive =>
    refine (h.taken hreceive).1.moved rfl (fun _ i hi => ?_) nofun nofun
      fun _ => .inr (h.taken hreceive).2
    refine h.statuses (by rw [hphase]; rfl) status ?_ i hi
    rw [BoundedQueue.receive_eq_some hreceive]
    exact .head _
  | stores hphase k generation =>
    refine (h.setSlot k _).moved rfl nofun nofun nofun fun hopen => .inl ?_
    change s.worker.open = true at hopen
    rw [Worker.open, hphase] at hopen
    exact hopen
  | storesNot hphase =>
    refine h.moved rfl nofun nofun nofun fun hopen => .inl ?_
    rw [Worker.open, hphase] at hopen
    exact hopen
  | gives hphase k =>
    exact (h.setSlot k _).resumed (.inr hphase)
  | resumes hphase => exact h.resumed hphase
  | graces _ w hw hrequest => exact h.graced hw hrequest
  | graceTakes _ status queue hreceive phase hnext => exact (h.taken hreceive).1.graced hnext rfl
  | closes => exact ⟨nofun, nofun, nofun, nofun⟩

/-! ## What the calls are told -/

structure Truthful (s : Radio) : Prop where
  slot : ∀ i, (s.calls i).phase.holds = true →
    Told s i (s.slots (s.calls i).slot).callbackReceived (s.slots (s.calls i).slot).delivered
  call : ∀ i, Told s i (s.calls i).callbackReceived (s.calls i).outDelivered

theorem Truthful.of_same (h : Truthful s) (hcalls : s'.calls = s.calls)
    (hslots : ∀ k, (s'.slots k).callbackReceived = (s.slots k).callbackReceived ∧
      (s'.slots k).delivered = (s.slots k).delivered)
    (hreports : ∀ report ∈ s.reports, report ∈ s'.reports) : Truthful s' := by
  constructor
  · intro i hholds
    rw [hcalls] at hholds ⊢
    rw [(hslots _).1, (hslots _).2]
    exact (h.slot i hholds).mono hreports
  · rw [hcalls]
    exact fun i => (h.call i).mono hreports

theorem Truthful.setSignal (h : Truthful s) (k : Fin kCompletionSlotCount) (signal : Bool) :
    Truthful (s.setSignal k signal) := by
  refine h.of_same rfl (fun k' => ?_) fun _ => id
  by_cases hk : k' = k
  · subst hk
    rw [Radio.setSignal, setSlot_self]
    exact ⟨rfl, rfl⟩
  · rw [Radio.setSignal, setSlot_of_ne _ hk]
    exact ⟨rfl, rfl⟩

theorem Truthful.setCall (h : Truthful s) {c : Call}
    (hslot : c.phase.holds = true →
      Told s i (s.slots c.slot).callbackReceived (s.slots c.slot).delivered)
    (hc : Told s i c.callbackReceived c.outDelivered) : Truthful (s.setCall i c) := by
  constructor <;> intro j <;> by_cases hj : j = i
  · subst hj
    rw [setCall_self, setCall_slots]
    exact hslot
  · rw [setCall_of_ne c hj]
    exact h.slot j
  · subst hj
    rw [setCall_self]
    exact hc
  · rw [setCall_of_ne c hj]
    exact h.call j

theorem Truthful.setSlot (h : Truthful s) {k : Fin kCompletionSlotCount} {slot : CompletionSlot}
    (hholder : ∀ j, (s.calls j).phase.holds = true → (s.calls j).slot = k →
      Told s j slot.callbackReceived slot.delivered) : Truthful (s.setSlot k slot) := by
  refine ⟨fun j hholds => ?_, h.call⟩
  change (s.calls j).phase.holds = true at hholds
  rw [setSlot_calls]
  by_cases hk : (s.calls j).slot = k
  · rw [hk, setSlot_self]
    exact hholder j hholds hk
  · rw [setSlot_of_ne _ hk]
    exact h.slot j hholds

theorem CallEffect.truthful (heffect : CallEffect s i s') (h : Truthful s) : Truthful s' := by
  cases heffect with
  | stays => exact h
  | noSlot => exact h.setCall (fun h => by cases h) (h.call i)
  | acquires hphase k =>
    have hcleared : Truthful (s.acquire k) := h.setSlot fun j _ _ => told_nothing s j
    refine hcleared.setCall (fun _ => ?_) (h.call i)
    dsimp only
    rw [Radio.acquire, setSlot_self]
    exact told_nothing _ i
  | drains => exact h.setSignal _ _
  | wakes hphase =>
    have hawake := h.setSignal (s.calls i).slot false
    exact hawake.setCall (fun _ => hawake.slot i (by rw [Radio.setSignal, setSlot_calls, hphase]; rfl))
      (h.call i)
  | enqueues hphase queue =>
    have hqueued : Truthful { s with queues := Function.update s.queues (s.calls i).priority queue } :=
      h.of_same rfl (fun _ => ⟨rfl, rfl⟩) fun _ => id
    exact hqueued.setCall (fun _ => hqueued.slot i (by dsimp only; rw [hphase]; rfl)) (h.call i)
  | reads hphase =>
    have htold := h.slot i (by rw [hphase]; rfl)
    exact h.setCall (fun _ => htold) htold
  | releases =>
    have hcleared : Truthful (s.release (s.calls i).slot) := h.setSlot fun j _ _ => told_nothing s j
    exact hcleared.setCall (fun h => by cases h) (h.call i)
  | releasesStale => exact h.setCall (fun h => by cases h) (h.call i)
  | readsStale hphase | drained hphase | builds hphase | refused hphase | sleeps hphase
  | expires hphase =>
    exact h.setCall (fun _ => h.slot i (by rw [hphase]; rfl)) (h.call i)

/-- `completeRequest` writes to the slot of the call whose frame it was. -/
theorem WorkEffect.truthful (heffect : WorkEffect s s') (howned : Owned s)
    (hlinked : ∀ request ∈ s.pending, Linked s request) (hown : OwnCallback s) (h : Truthful s) :
    Truthful s' := by
  have hsame : ∀ {s' : Radio}, s'.calls = s.calls → s'.slots = s.slots → s'.reports = s.reports →
      Truthful s' := fun {s'} hcalls hslots hreports =>
    h.of_same hcalls (fun k => by rw [hslots]; exact ⟨rfl, rfl⟩) fun _ hmem => hreports ▸ hmem
  cases heffect with
  | stores hphase k generation hcompletion huse hgen =>
    have hvalid : s.valid k = some generation := by
      rw [Radio.valid, CompletionSlot.ticket, if_pos huse, hgen]
    have hpending : s.worker.request ∈ s.pending := mem_requests (by rw [hphase]; rfl)
    obtain ⟨i, hsender, hi⟩ := hlinked _ hpending (k, generation) hcompletion hvalid
    have hstored : Truthful (s.setSlot k
        { s.slots k with
          callbackReceived := s.worker.callbackReceived, delivered := s.worker.delivered }) := by
      refine h.setSlot fun j hholds hslot => ?_
      have hj : s.holder j = some (k, (s.calls j).generation) := hslot ▸ holder_of_holds hholds
      rw [howned.held.alone hj hi]
      exact hown.completing hphase i hsender
    exact hstored.of_same rfl (fun _ => ⟨rfl, rfl⟩) fun _ => id
  | gives hphase k => exact (h.setSignal k true).of_same rfl (fun _ => ⟨rfl, rfl⟩) fun _ => id
  | _ => exact hsame rfl rfl rfl

/-! ## The driver -/

theorem mem_reports_handleSend {request : TxRequest} {success : Bool} :
    ∀ report ∈ s.reports, report ∈ (s.handleSend request success).reports :=
  fun _ hmem => List.mem_append_left _ hmem

theorem reported_handleSend {request : TxRequest} {success : Bool} (hi : i ∈ request.sender) :
    Reported (s.handleSend request success) i success := by
  refine ⟨s.now, List.mem_append_right _ (List.mem_map.2 ⟨i, ?_, rfl⟩)⟩
  rw [Option.mem_def.1 hi]
  exact .head _

theorem OwnCallback.callback (h : OwnCallback s) {request : TxRequest} {success : Bool}
    (honAir : s.onAir = some request) :
    OwnCallback ({ s with onAir := none }.handleSend request success) := by
  obtain ⟨hopen, hown, hempty⟩ := h.onAir request honAir
  refine ⟨fun hphase i hi => ?_, fun _ status hstatus i hi => ?_, fun hphase => ?_, nofun⟩
  · exact (h.completing hphase i hi).mono mem_reports_handleSend
  · change status ∈ (s.driverStatusQueue.offer _).items at hstatus
    rw [BoundedQueue.items_offer, hempty] at hstatus
    obtain rfl := List.mem_singleton.1 (List.mem_of_mem_take hstatus)
    exact reported_handleSend (hown ▸ hi)
  · change s.worker.phase = _ at hphase
    rw [Worker.open, hphase] at hopen
    cases hopen

/-! ## Runs -/

/-- What one step keeps. -/
structure Faithful (s : Radio) : Prop where
  owned : Owned s
  linked : ∀ request ∈ s.pending, Linked s request
  ownCallback : OwnCallback s
  truthful : Truthful s

theorem step_ownCallback (h : OwnCallback s) {action : Action} (hwindow : InWindow action) :
    OwnCallback (s.step action) := by
  cases action with
  | elapse ms => exact h.of_same rfl rfl rfl rfl
  | sendToMac mac data p =>
    rw [Radio.step]
    obtain e | ⟨request, -, -, queue, -, e⟩ := sendToMac_effect s mac data p <;> rw [e]
    · exact h
    · exact h.of_same rfl rfl rfl rfl
  | sendToMacWithStatus i mac data timeoutMs p =>
    rw [Radio.step]
    obtain e | ⟨c, -, e, -⟩ := sendToMacWithStatus_effect s i mac data timeoutMs p <;> rw [e]
    · exact h
    · exact h.of_same rfl rfl rfl rfl
  | call i =>
    have hframe := (callStep_effect s i).frame
    exact h.of_same hframe.worker hframe.driverStatusQueue hframe.onAir hframe.reports
  | dequeue available =>
    rw [Radio.step]
    obtain e | ⟨hidle, hmoved⟩ := dequeueScheduled_effect s available
    · rw [e]
      exact h
    · have hnone : ∀ frame ∈ s.onAir, False := by
        intro frame hframe
        have hopen := (h.onAir frame hframe).1
        rw [Worker.open, hidle] at hopen
        cases hopen
      obtain ⟨cursor, e⟩ | ⟨p, request, queue, cursor, -, e⟩ := hmoved <;> rw [e]
      · refine h.moved rfl (fun hphase => h.completing hphase) id ?_ fun hopen => .inl hopen
        dsimp only
        rw [hidle]
        intro hsending
        cases hsending
      · exact ⟨(fun h => by cases h), (fun h => by cases h), (fun h => by cases h),
          fun frame hframe => (hnone frame hframe).elim⟩
  | work accepted => exact (workStep_effect s accepted).ownCallback h
  | callback success =>
    rw [Radio.step]
    cases honAir : s.onAir with
    | none => exact h
    | some request => exact h.callback honAir
  | overdueCallback => cases hwindow

theorem step_truthful (h : Faithful s) (action : Action) : Truthful (s.step action) := by
  have hsame : ∀ {s' : Radio}, s'.calls = s.calls → s'.slots = s.slots →
      (∀ report ∈ s.reports, report ∈ s'.reports) → Truthful s' :=
    fun {s'} hcalls hslots => h.truthful.of_same hcalls fun k => by rw [hslots]; exact ⟨rfl, rfl⟩
  cases action with
  | elapse ms => exact hsame rfl rfl fun _ => id
  | sendToMac mac data p =>
    rw [Radio.step]
    obtain e | ⟨request, -, -, queue, -, e⟩ := sendToMac_effect s mac data p <;> rw [e]
    · exact h.truthful
    · exact hsame rfl rfl fun _ => id
  | sendToMacWithStatus i mac data timeoutMs p =>
    rw [Radio.step]
    obtain e | ⟨c, -, e, hc⟩ := sendToMacWithStatus_effect s i mac data timeoutMs p <;> rw [e]
    · exact h.truthful
    · obtain rfl | ⟨mac, data, rfl⟩ := hc <;> 
        exact h.truthful.setCall (fun h => by cases h) (told_nothing s i)
  | call i => exact (callStep_effect s i).truthful h.truthful
  | dequeue available =>
    rw [Radio.step]
    obtain e | ⟨-, ⟨cursor, e⟩ | ⟨p, request, queue, cursor, -, e⟩⟩ :=
      dequeueScheduled_effect s available <;> rw [e]
    · exact h.truthful
    · exact hsame rfl rfl fun _ => id
    · exact hsame rfl rfl fun _ => id
  | work accepted =>
    exact (workStep_effect s accepted).truthful h.owned h.linked h.ownCallback h.truthful
  | callback success =>
    rw [Radio.step]
    split
    · exact h.truthful
    · exact hsame rfl rfl mem_reports_handleSend
  | overdueCallback index success =>
    rw [Radio.step]
    split
    · exact h.truthful
    · exact hsame rfl rfl mem_reports_handleSend

theorem step_faithful (h : Faithful s) {action : Action} (hwindow : InWindow action)
    (hfresh : Fresh s action) : Faithful (s.step action) where
  owned := step_owned h.owned action
  linked := step_linked h.owned h.linked hfresh
  ownCallback := step_ownCallback h.ownCallback hwindow
  truthful := step_truthful h action

theorem init_faithful : Faithful {} where
  owned := init_owned
  linked := nofun
  ownCallback := ⟨nofun, nofun, nofun, nofun⟩
  truthful := ⟨nofun, fun i => told_nothing {} i⟩

/-- What a call of `sendToMacWithStatus` is entitled to. -/
structure Honest (s : Radio) : Prop where
  success : ∀ i, (s.calls i).phase = .returned → (s.calls i).callbackReceived = true →
    Reported s i (s.calls i).outDelivered
  failure : ∀ i, (s.calls i).phase = .returned → (s.calls i).callbackReceived = false →
    (s.calls i).outDelivered = false
  owned : Owned s

theorem Faithful.honest (h : Faithful s) : Honest s where
  success i _ hreceived := by
    have htold := h.truthful.call i
    rwa [hreceived] at htold
  failure i _ hreceived := by
    have htold := h.truthful.call i
    rwa [hreceived] at htold
  owned := h.owned

/-- Whatever the order of the steps: as long as every callback comes within its
frame's window, and no slot's generation comes round to that of a request under way,
a call that returns true returns the status of its own frame, one that returns false
reports no delivery, and every slot acquired is released once. -/
theorem run_honest (actions : List Action)
    (h : Run.AllSteps Radio.step (fun s action => InWindow action ∧ Fresh s action) {} actions) :
    Run.Throughout Radio.step Honest {} actions := by
  have hall : Run.Throughout Radio.step Faithful {} actions :=
    Run.Throughout.of_allSteps (fun _ _ hs hp => step_faithful hs hp.1 hp.2) init_faithful h
  exact hall.imp fun _ => Faithful.honest

end callback

/-! ## A generation that comes round -/

theorem nextGeneration_ofNat {n : Nat} (h : n + 1 < 2 ^ 32) :
    nextGeneration (UInt32.ofNat n) = UInt32.ofNat (n + 1) := by
  have hadd : UInt32.ofNat n + 1 = UInt32.ofNat (n + 1) := (UInt32.ofNat_add n 1).symm
  rw [nextGeneration, hadd, if_neg]
  intro hzero
  have := congrArg UInt32.toNat hzero
  rw [UInt32.toNat_ofNat_of_lt' h] at this
  cases this

section bench

/-- A device of MAC 02:…:02. -/
def peer : Mac := Vector.replicate 6 2

instance : ∀ action, Decidable (InWindow action)
  | .overdueCallback _ _ => .isFalse id
  | .elapse _ | .sendToMac _ _ _ | .sendToMacWithStatus _ _ _ _ _ | .call _ | .dequeue _
  | .work _ | .callback _ => .isTrue trivial

/-- One call that is told of its frame's delivery. -/
theorem run_honest_delivered :
    Run.Throughout Radio.step Honest {}
      (.sendToMacWithStatus 0 (some peer) (some [1]) 250 .critical :: List.replicate 5 (.call 0) ++
        .dequeue (· == .critical) :: List.replicate 7 (.work true) ++
        .callback true :: List.replicate 3 (.work true) ++ List.replicate 3 (.call 0)) :=
  run_honest _ (by decide +kernel)

/-- The control queue is full. A first call has its callback, but times out before the
worker has stored it; the slot is free again. -/
def overtaken : List Action :=
  List.replicate 4 (.sendToMac (some peer) (some [0]) .control) ++
    .sendToMacWithStatus 0 (some peer) (some [1]) 1 .critical :: List.replicate 5 (.call 0) ++
    .dequeue (· == .critical) :: List.replicate 7 (.work true) ++
    [.callback true, .work true, .elapse 1, .call 0, .call 0]

/-- A call that acquires the slot and finds the control queue full. -/
def spent (i : Nat) : List Action :=
  .sendToMacWithStatus i (some peer) (some [1]) 1 .control :: List.replicate 5 (.call i)

/-- The last call is told what the driver reported of the first. -/
def misled : List Action :=
  .sendToMacWithStatus 1 (some peer) (some [1]) 1000 .data :: List.replicate 5 (.call 1) ++
    List.replicate 2 (.work true) ++ List.replicate 3 (.call 1)

/-- What is left of the call. -/
def spentCall (generation : UInt32) (now : Nat) : Call where
  phase := .returned
  mac := peer
  data := [1]
  timeoutMs := 1
  priority := .control
  slot := ⟨0, Nat.succ_pos 3⟩
  generation
  enqueuedAt := now
  queueFull := true
  acquired := 1
  released := 1

theorem foldl_spent {s : Radio} {i : Nat} {generation : UInt32} (hinit : s.initialized = true)
    (hidle : s.calls i = {}) (hslot : s.slots 0 = { generation })
    (hfull : (s.queues .control).items.length = kTxQueueDepth .control) :
    (spent i).foldl Radio.step s =
      (s.setSlot 0 { generation := nextGeneration generation }).setCall i
        (spentCall (nextGeneration generation) s.now) := by
  have hfree : s.freeSlot = some 0 := by
    rw [Radio.freeSlot, show List.finRange kCompletionSlotCount = [0, 1, 2, 3] from rfl,
      List.find?_cons_of_pos (by rw [hslot]; rfl)]
  let g := nextGeneration generation
  let c1 : Call := { phase := .acquiring, mac := peer, data := [1], timeoutMs := 1, priority := .control }
  let c2 : Call := { c1 with phase := .draining, generation := g, acquired := 1 }
  let c3 : Call := { c2 with phase := .building }
  let c4 : Call := { c3 with phase := .enqueuing, enqueuedAt := s.now }
  let c5 : Call := { c4 with phase := .releasing, queueFull := true }
  let taken : CompletionSlot := { inUse := true, generation := g }
  let s' := s.setSlot 0 taken
  have h1 : s.sendToMacWithStatus i (some peer) (some [1]) 1 .control = s.setCall i c1 := by
    rw [Radio.sendToMacWithStatus, hidle, if_neg (by decide), Radio.accepts, hinit]
    rfl
  have hset : ∀ (s : Radio) (c c' : Call), (s.setCall i c).setCall i c' = s.setCall i c' := by
    intro s c c'
    rw [Radio.setCall, Radio.setCall, Radio.setCall, Function.update_idem]
  have h2 : (s.setCall i c1).callStep i = s'.setCall i c2 := by
    have : (s.setCall i c1).freeSlot = some 0 := hfree
    simp only [Radio.callStep, setCall_self, c1, this, Radio.acquire, setCall_slots, hslot]
    exact hset s' c1 c2
  have h3 : (s'.setCall i c2).callStep i = s'.setCall i c3 := by
    simp only [Radio.callStep, setCall_self, c2, c1, setCall_slots, s', setSlot_self, taken]
    exact hset _ _ _
  have h4 : (s'.setCall i c3).callStep i = s'.setCall i c4 := by
    simp only [Radio.callStep, setCall_self, c3, c2, c1]
    exact hset _ _ _
  have h5 : (s'.setCall i c4).callStep i = s'.setCall i c5 := by
    have hnone : (s'.setCall i c4).enqueueRequest (c4.request i) c4.priority = none :=
      Option.map_eq_none_iff.2 (BoundedQueue.send_eq_none.2 hfull)
    have hphase : c4.phase = .enqueuing := rfl
    simp only [Radio.callStep, setCall_self, hphase, hnone]
    exact hset s' c4 c5
  have hfreed : s'.setSlot 0 { generation := g } = s.setSlot 0 { generation := g } := by
    show { s with slots := Function.update (Function.update s.slots 0 taken) 0 { generation := g } } =
      { s with slots := Function.update s.slots 0 { generation := g } }
    rw [Function.update_idem]
  have h6 : (s'.setCall i c5).callStep i =
      (s.setSlot 0 { generation := g }).setCall i (spentCall g s.now) := by
    simp only [Radio.callStep, setCall_self, c5, c4, c3, c2, c1, setCall_slots, s', setSlot_self,
      taken, and_self, if_true, Radio.release]
    exact (hset (s'.setSlot 0 { generation := g }) c5 (spentCall g s.now)).trans
      (congrArg (Radio.setCall · i _) hfreed)
  simp only [spent, List.replicate, List.foldl_cons, List.foldl_nil, Radio.step, h1, h2, h3, h4, h5,
    h6]
  rfl

/-- After `n` of them. -/
def Radio.after (s : Radio) (n : Nat) (generation : UInt32) : Radio :=
  { s with
    slots := Function.update s.slots ⟨0, Nat.succ_pos 3⟩ { generation }
    calls := fun i => if 2 ≤ i ∧ i < n + 2 then spentCall (UInt32.ofNat i) s.now else s.calls i }

theorem foldl_flatMap_spent {s : Radio} (hinit : s.initialized = true)
    (hslot : s.slots 0 = { generation := 1 }) (hidle : ∀ i ≠ 0, s.calls i = {})
    (hfull : (s.queues .control).items.length = kTxQueueDepth .control) (n : Nat)
    (h : n + 1 < 2 ^ 32) :
    ((List.range n).flatMap fun i => spent (i + 2)).foldl Radio.step s =
      s.after n (UInt32.ofNat (n + 1)) := by
  induction n with
  | zero =>
    have hcalls : (fun i => if 2 ≤ i ∧ i < 0 + 2 then spentCall (UInt32.ofNat i) s.now
        else s.calls i) = s.calls := funext fun i => if_neg (by omega)
    show s = { s with slots := Function.update s.slots 0 { generation := 1 }, calls := _ }
    rw [hcalls, ← hslot, Function.update_eq_self]
  | succ n ih =>
    have hnew : (s.after n (UInt32.ofNat (n + 1))).calls (n + 2) = {} :=
      (if_neg (by omega)).trans (hidle _ (by omega))
    have hfree : (s.after n (UInt32.ofNat (n + 1))).slots 0 = { generation := UInt32.ofNat (n + 1) } := by
      have hslots : (s.after n (UInt32.ofNat (n + 1))).slots =
          Function.update s.slots 0 { generation := UInt32.ofNat (n + 1) } := rfl
      rw [hslots, Function.update_self]
    have hspent := foldl_spent (s := s.after n (UInt32.ofNat (n + 1))) hinit hnew hfree hfull
    rw [List.range_succ, List.flatMap_append, List.foldl_append, ih (by omega),
      List.flatMap_singleton, hspent, nextGeneration_ofNat h]
    have hslots : Function.update
        (Function.update s.slots 0 { generation := UInt32.ofNat (n + 1) }) 0
        { generation := UInt32.ofNat (n + 1 + 1) } =
          Function.update s.slots 0 { generation := UInt32.ofNat (n + 1 + 1) } :=
      Function.update_idem ..
    have hcalls : Function.update (s.after n (UInt32.ofNat (n + 1))).calls (n + 2)
        (spentCall (UInt32.ofNat (n + 2)) s.now) = (s.after (n + 1) 0).calls := by
      funext i
      by_cases hi : i = n + 2
      · subst hi
        rw [Function.update_self]
        exact (if_pos (by omega)).symm
      · rw [Function.update_of_ne hi]
        exact if_congr (by omega) rfl rfl
    exact congrArg₂ (fun slots calls => { s with slots, calls : Radio }) hslots hcalls

theorem foldl_overtaken_calls {i : Nat} (h : i ≠ 0) : (overtaken.foldl Radio.step {}).calls i = {} := by
  have hcaller : ∀ action ∈ overtaken, action.caller = none ∨ action.caller = some 0 := by
    simp [overtaken, Action.caller]
  refine foldl_other fun action hmem hi => ?_
  obtain hnone | hzero := hcaller action hmem
  · rw [hi] at hnone
    cases hnone
  · rw [hi] at hzero
    exact h (Option.some.inj hzero)

theorem inWindow_spent {i : Nat} : ∀ action ∈ spent i, InWindow action := by
  simp [spent, InWindow]

/-- The slot's generation comes round to that of the first call's request. -/
theorem generation_comes_round :
    ¬∀ actions, Run.AllSteps Radio.step (fun _ action => InWindow action) {} actions →
      Run.Throughout Radio.step Honest {} actions := by
  intro h
  let round := (List.range 4294967294).flatMap fun i => spent (i + 2)
  have hrun : (overtaken ++ round ++ misled).foldl Radio.step {} =
      misled.foldl Radio.step ((overtaken.foldl Radio.step {}).after 4294967294 0xFFFFFFFF) := by
    rw [List.foldl_append, List.foldl_append, foldl_flatMap_spent (by decide +kernel)
      (by decide +kernel) (fun i => foldl_overtaken_calls) (by decide +kernel) _ (by decide)]
    rfl
  have hwindow : ∀ action ∈ overtaken ++ round ++ misled, InWindow action := by
    intro action hmem
    rw [List.mem_append, List.mem_append] at hmem
    obtain (hmem | hmem) | hmem := hmem
    · revert action
      simp [overtaken, InWindow]
    · obtain ⟨i, -, hmem⟩ := List.mem_flatMap.1 hmem
      exact inWindow_spent action hmem
    · revert action
      simp [misled, InWindow]
  have hlast := (h (overtaken ++ round ++ misled) (.of_forall_mem fun a ha _ => hwindow a ha)).final
  rw [hrun] at hlast
  obtain ⟨instant, hmem⟩ := hlast.success 1 (by decide +kernel) (by decide +kernel)
  have hreports : (misled.foldl Radio.step
      ((overtaken.foldl Radio.step {}).after 4294967294 0xFFFFFFFF)).reports =
        [{ call := 0, success := true, instant := 0 }] := by decide +kernel
  rw [hreports] at hmem
  simp at hmem
end bench

end BallyDongle.EspNowManager.TxWorker
