import BallyDongle.Lib.Run
import BallyDongle.Lib.Tickets
import BallyDongle.EspNowManager.TxSteps

/-!
# Completion slots

A slot in use belongs to one call, which has its generation and gives it back once.
Only a call's own steps touch the ownership of a slot; the worker writes its result
fields and gives its semaphore.
-/

namespace BallyDongle.EspNowManager.TxWorker

open Btp BtpTransport RadioTxScheduler

/-- The call has a completion slot. -/
def CallPhase.holds : CallPhase → Bool
  | .idle | .acquiring | .returned => false
  | _ => true

def Call.ticket (c : Call) : Option (Fin kCompletionSlotCount × UInt32) :=
  if c.phase.holds then some (c.slot, c.generation) else none

def CompletionSlot.ticket (slot : CompletionSlot) : Option UInt32 :=
  if slot.inUse then some slot.generation else none

def Radio.holder (s : Radio) (i : Nat) : Option (Fin kCompletionSlotCount × UInt32) :=
  (s.calls i).ticket

def Radio.valid (s : Radio) (k : Fin kCompletionSlotCount) : Option UInt32 := (s.slots k).ticket

/-- How often a call in this phase has acquired and released a slot. -/
def Call.Balanced (c : Call) : Prop :=
  match c.phase with
  | .idle | .acquiring => c.acquired = 0 ∧ c.released = 0
  | .returned => c.acquired = c.released ∧ c.acquired ≤ 1
  | _ => c.acquired = 1 ∧ c.released = 0

/-- Every slot in use is held by one live call, and no call has released more or
less than it acquired. -/
structure Owned (s : Radio) : Prop where
  held : Tickets.Held s.holder s.valid
  balanced : ∀ i, (s.calls i).Balanced

/-! ## What the steps change -/

section frame

variable {s : Radio}

@[simp] theorem setCall_self (i : Nat) (c : Call) : (s.setCall i c).calls i = c :=
  Function.update_self ..

theorem setCall_of_ne {i j : Nat} (c : Call) (h : j ≠ i) : (s.setCall i c).calls j = s.calls j :=
  Function.update_of_ne h ..

@[simp] theorem setCall_slots (i : Nat) (c : Call) : (s.setCall i c).slots = s.slots := rfl

@[simp] theorem setSlot_calls (k : Fin kCompletionSlotCount) (slot : CompletionSlot) :
    (s.setSlot k slot).calls = s.calls := rfl

@[simp] theorem setSlot_self (k : Fin kCompletionSlotCount) (slot : CompletionSlot) :
    (s.setSlot k slot).slots k = slot := Function.update_self ..

theorem setSlot_of_ne {k k' : Fin kCompletionSlotCount} (slot : CompletionSlot) (h : k' ≠ k) :
    (s.setSlot k slot).slots k' = s.slots k' := Function.update_of_ne h ..

theorem holder_setCall (i : Nat) (c : Call) :
    (s.setCall i c).holder = Function.update s.holder i c.ticket := by
  funext j
  by_cases hj : j = i
  · subst hj
    rw [Radio.holder, setCall_self, Function.update_self]
  · rw [Radio.holder, setCall_of_ne c hj, Function.update_of_ne hj, Radio.holder]

theorem valid_setSlot (k : Fin kCompletionSlotCount) (slot : CompletionSlot) :
    (s.setSlot k slot).valid = Function.update s.valid k slot.ticket := by
  funext k'
  by_cases hk : k' = k
  · subst hk
    rw [Radio.valid, setSlot_self, Function.update_self]
  · rw [Radio.valid, setSlot_of_ne slot hk, Function.update_of_ne hk, Radio.valid]

/-- The result fields and the semaphore are nobody's ticket. -/
theorem valid_setSlot_of_ticket {k : Fin kCompletionSlotCount} {slot : CompletionSlot}
    (h : slot.ticket = (s.slots k).ticket) : (s.setSlot k slot).valid = s.valid := by
  rw [valid_setSlot, h]
  exact Function.update_eq_self ..

/-- What every step of the worker leaves alone. -/
structure Radio.Frame (s s' : Radio) : Prop where
  calls : s'.calls = s.calls
  queues : s'.queues = s.queues
  now : s'.now = s.now
  valid : s'.valid = s.valid

theorem Radio.Frame.of_slots {s' : Radio} (hcalls : s'.calls = s.calls)
    (hqueues : s'.queues = s.queues) (hnow : s'.now = s.now) (hslots : s'.slots = s.slots) :
    s.Frame s' := ⟨hcalls, hqueues, hnow, by funext k; rw [Radio.valid, hslots, Radio.valid]⟩

theorem WorkEffect.frame {s' : Radio} (h : WorkEffect s s') : s.Frame s' := by
  cases h with
  | stores _ k =>
    exact ⟨rfl, rfl, rfl, valid_setSlot_of_ticket (s := s) (k := k) rfl⟩
  | gives _ k => exact ⟨rfl, rfl, rfl, valid_setSlot_of_ticket (s := s) (k := k) rfl⟩
  | _ => exact .of_slots rfl rfl rfl rfl

/-- What every step of a call leaves alone. -/
structure Radio.CallFrame (s : Radio) (i : Nat) (s' : Radio) : Prop where
  worker : s'.worker = s.worker
  driverStatusQueue : s'.driverStatusQueue = s.driverStatusQueue
  onAir : s'.onAir = s.onAir
  reports : s'.reports = s.reports
  rejected : s'.rejected = s.rejected
  offered : s'.offered = s.offered
  now : s'.now = s.now
  other : ∀ j ≠ i, s'.calls j = s.calls j

theorem CallEffect.frame {i : Nat} {s' : Radio} (h : CallEffect s i s') : s.CallFrame i s' := by
  cases h with
  | stays | drains => exact ⟨rfl, rfl, rfl, rfl, rfl, rfl, rfl, fun _ _ => rfl⟩
  | _ => exact ⟨rfl, rfl, rfl, rfl, rfl, rfl, rfl, fun _ hj => setCall_of_ne _ hj⟩

end frame

/-! ## Ownership -/

section owned

variable {s s' : Radio}

theorem Owned.of_same (h : Owned s) (hcalls : s'.calls = s.calls) (hvalid : s'.valid = s.valid) :
    Owned s' where
  held := by
    have hholder : s'.holder = s.holder := by
      funext i
      rw [Radio.holder, hcalls, Radio.holder]
    rw [hholder, hvalid]
    exact h.held
  balanced i := by
    rw [hcalls]
    exact h.balanced i

theorem balanced_setCall (h : Owned s) {i : Nat} {c : Call} (hc : c.Balanced) (j : Nat) :
    ((s.setCall i c).calls j).Balanced := by
  by_cases hj : j = i
  · subst hj
    rwa [setCall_self]
  · rw [setCall_of_ne c hj]
    exact h.balanced j

/-- A call moves on with what it has. -/
theorem Owned.move (h : Owned s) {i : Nat} {c : Call} (hticket : c.ticket = s.holder i)
    (hc : c.Balanced) : Owned (s.setCall i c) := by
  refine ⟨?_, balanced_setCall h hc⟩
  rw [holder_setCall, hticket, Function.update_eq_self]
  exact h.held

theorem Owned.setSignal (h : Owned s) (k : Fin kCompletionSlotCount) (signal : Bool) :
    Owned (s.setSignal k signal) :=
  h.of_same rfl (valid_setSlot_of_ticket rfl)

theorem freeSlot_free {k : Fin kCompletionSlotCount} (h : s.freeSlot = some k) :
    s.valid k = none := by
  have hfree : (s.slots k).inUse = false := by simpa using List.find?_some h
  rw [Radio.valid, CompletionSlot.ticket, hfree]
  rfl

/-- A call acquires a free slot. -/
theorem Owned.acquire (h : Owned s) {i : Nat} {k : Fin kCompletionSlotCount} {c : Call}
    (hnone : s.holder i = none) (hfree : s.freeSlot = some k)
    (hc : c.ticket = some (k, nextGeneration (s.slots k).generation)) (hbalanced : c.Balanced) :
    Owned ((s.acquire k).setCall i c) := by
  refine ⟨?_, balanced_setCall h hbalanced⟩
  rw [holder_setCall, hc]
  show Tickets.Held _ (s.acquire k).valid
  rw [Radio.acquire, valid_setSlot]
  exact h.held.acquire hnone (freeSlot_free hfree)

/-- A call releases the slot it has. -/
theorem Owned.release (h : Owned s) {i : Nat} {k : Fin kCompletionSlotCount} {generation : UInt32}
    {c : Call} (hholder : s.holder i = some (k, generation)) (hc : c.ticket = none)
    (hbalanced : c.Balanced) : Owned ((s.release k).setCall i c) := by
  refine ⟨?_, balanced_setCall h hbalanced⟩
  rw [holder_setCall, hc]
  show Tickets.Held _ (s.release k).valid
  rw [Radio.release, valid_setSlot]
  exact h.held.release hholder

theorem holder_of_holds {i : Nat} (h : (s.calls i).phase.holds = true) :
    s.holder i = some ((s.calls i).slot, (s.calls i).generation) := if_pos h

/-- What a call has is valid: its own check of the slot never fails. -/
theorem Owned.active (h : Owned s) {i : Nat} (hholds : (s.calls i).phase.holds = true) :
    (s.slots (s.calls i).slot).inUse = true ∧
      (s.slots (s.calls i).slot).generation = (s.calls i).generation := by
  have hvalid := h.held.current (holder_of_holds hholds)
  rw [Radio.valid, CompletionSlot.ticket] at hvalid
  split at hvalid
  · exact ⟨by assumption, Option.some.inj hvalid⟩
  · cases hvalid

theorem balanced_of_holds {c : Call} (h : c.phase.holds = true) :
    c.Balanced ↔ c.acquired = 1 ∧ c.released = 0 := by
  unfold Call.Balanced
  cases hphase : c.phase <;> first | rfl | (rw [hphase] at h; cases h)

/-- A call goes on with the slot it has. -/
theorem Owned.proceed (h : Owned s) {i : Nat} {c : Call}
    (hholds : (s.calls i).phase.holds = true) (hnext : c.phase.holds = true)
    (hslot : c.slot = (s.calls i).slot ∧ c.generation = (s.calls i).generation)
    (hcounts : c.acquired = (s.calls i).acquired ∧ c.released = (s.calls i).released) :
    Owned (s.setCall i c) := by
  refine h.move ?_ ((balanced_of_holds hnext).2 ?_)
  · rw [holder_of_holds hholds, Call.ticket, if_pos hnext, hslot.1, hslot.2]
  · rw [hcounts.1, hcounts.2]
    exact (balanced_of_holds hholds).1 (h.balanced i)

theorem CallEffect.owned (h : Owned s) {i : Nat} (heffect : CallEffect s i s') : Owned s' := by
  have hbalanced := h.balanced i
  have hholder : s.holder i = (s.calls i).ticket := rfl
  cases heffect with
  | stays => exact h
  | noSlot hphase hfree =>
    rw [Call.Balanced, hphase] at hbalanced
    refine h.move ?_ ⟨hbalanced.1.trans hbalanced.2.symm, ?_⟩
    · rw [hholder, Call.ticket, Call.ticket, hphase]
      rfl
    · show (s.calls i).acquired ≤ 1
      rw [hbalanced.1]
      exact Nat.zero_le 1
  | acquires hphase k hfree =>
    rw [Call.Balanced, hphase] at hbalanced
    refine h.acquire ?_ hfree rfl ⟨?_, hbalanced.2⟩
    · rw [hholder, Call.ticket, hphase]
      rfl
    · show (s.calls i).acquired + 1 = 1
      rw [hbalanced.1]
  | drains => exact h.setSignal _ _
  | wakes hphase =>
    have hholds : (s.calls i).phase.holds = true := by rw [hphase]; rfl
    exact (h.setSignal _ _).proceed hholds rfl ⟨rfl, rfl⟩ ⟨rfl, rfl⟩
  | enqueues hphase queue =>
    have hholds : (s.calls i).phase.holds = true := by rw [hphase]; rfl
    have hqueued : Owned { s with queues := Function.update s.queues (s.calls i).priority queue } :=
      h.of_same rfl rfl
    exact hqueued.proceed hholds rfl ⟨rfl, rfl⟩ ⟨rfl, rfl⟩
  | releases hphase hactive =>
    have hholds : (s.calls i).phase.holds = true := by rw [hphase]; rfl
    obtain ⟨hacquired, hreleased⟩ := (balanced_of_holds hholds).1 hbalanced
    refine h.release (holder_of_holds hholds) rfl ⟨?_, Nat.le_of_eq hacquired⟩
    show (s.calls i).acquired = (s.calls i).released + 1
    rw [hacquired, hreleased]
  | readsStale hphase hactive | releasesStale hphase hactive =>
    exact absurd (h.active (by rw [hphase]; rfl)) hactive
  | drained hphase | builds hphase | refused hphase | sleeps hphase | expires hphase
  | reads hphase =>
    exact h.proceed (by rw [hphase]; rfl) rfl ⟨rfl, rfl⟩ ⟨rfl, rfl⟩

theorem step_owned (h : Owned s) (action : Action) : Owned (s.step action) := by
  have hsame : ∀ {s' : Radio}, s'.calls = s.calls → s'.slots = s.slots → Owned s' :=
    fun {s'} hcalls hslots => h.of_same hcalls (by funext k; rw [Radio.valid, hslots, Radio.valid])
  cases action with
  | elapse ms => exact hsame rfl rfl
  | sendToMac mac data p =>
    rw [Radio.step]
    obtain e | ⟨request, -, -, queue, -, e⟩ := sendToMac_effect s mac data p <;> rw [e]
    · exact h
    · exact hsame rfl rfl
  | sendToMacWithStatus i mac data timeoutMs p =>
    rw [Radio.step]
    obtain e | ⟨c, hidle, e, hc⟩ := sendToMacWithStatus_effect s i mac data timeoutMs p <;> rw [e]
    · exact h
    · have hnone : s.holder i = none := by
        rw [Radio.holder, Call.ticket, hidle]
        rfl
      obtain rfl | ⟨mac, data, rfl⟩ := hc
      · exact h.move hnone.symm ⟨rfl, Nat.zero_le 1⟩
      · exact h.move hnone.symm ⟨rfl, rfl⟩
  | call i => exact (callStep_effect s i).owned h
  | dequeue available =>
    rw [Radio.step]
    obtain e | ⟨-, ⟨cursor, e⟩ | ⟨p, request, queue, cursor, -, e⟩⟩ :=
      dequeueScheduled_effect s available <;> rw [e] <;> exact hsame rfl rfl
  | work accepted =>
    have hframe := (workStep_effect s accepted).frame
    exact h.of_same hframe.calls hframe.valid
  | callback success =>
    rw [Radio.step]
    split
    · exact h
    · exact hsame rfl rfl
  | overdueCallback index success =>
    rw [Radio.step]
    split
    · exact h
    · exact hsame rfl rfl

theorem init_owned : Owned {} :=
  ⟨⟨nofun, nofun, nofun⟩, fun _ => ⟨rfl, rfl⟩⟩

end owned

/-! ## Requests under way -/

/-- The worker has not completed the request it took. -/
def WorkPhase.inHand : WorkPhase → Bool
  | .checking | .timing | .clearing | .sending | .starting | .polling | .measuring | .receiving
  | .completing => true
  | _ => false

def Radio.queued (s : Radio) : List TxRequest :=
  (s.queues .critical).items ++ (s.queues .control).items ++ (s.queues .data).items

/-- The queued requests, and the worker's own in the phases that count. -/
def Radio.requests (s : Radio) (counts : WorkPhase → Bool) : List TxRequest :=
  (if counts s.worker.phase then [s.worker.request] else []) ++ s.queued

/-- The requests that are yet to be completed. -/
def Radio.pending (s : Radio) : List TxRequest := s.requests WorkPhase.inHand

/-- The generation of a slot does not come round to that of a request under way. -/
def Fresh (s : Radio) : Action → Prop
  | .call i => (s.calls i).phase = .acquiring → ∀ k ∈ s.freeSlot, ∀ request ∈ s.pending,
    request.completion ≠ some (k, nextGeneration (s.slots k).generation)
  | _ => True

instance (s : Radio) : ∀ action, Decidable (Fresh s action)
  | .call i =>
    inferInstanceAs (Decidable ((s.calls i).phase = .acquiring → ∀ k ∈ s.freeSlot,
      ∀ request ∈ s.pending, request.completion ≠ some (k, nextGeneration (s.slots k).generation)))
  | .elapse _ | .sendToMac _ _ _ | .sendToMacWithStatus _ _ _ _ _ | .dequeue _ | .work _
  | .callback _ | .overdueCallback _ _ => .isTrue trivial

/-- The request would be completed to whoever made it. -/
def Linked (s : Radio) (request : TxRequest) : Prop :=
  ∀ ticket ∈ request.completion, s.valid ticket.1 = some ticket.2 →
    ∃ i, request.sender = some i ∧ s.holder i = some ticket

section linked

variable {s s' : Radio} {request : TxRequest}

theorem mem_requests {counts : WorkPhase → Bool} (h : counts s.worker.phase = true) :
    s.worker.request ∈ s.requests counts := by
  rw [Radio.requests, if_pos h]
  exact .head _

theorem queued_enqueue {p : Priority} {new : TxRequest}
    {queue : BoundedQueue TxRequest (kTxQueueDepth p)} (hsend : (s.queues p).send new = some queue) :
    { s with queues := Function.update s.queues p queue }.queued.Perm (new :: s.queued) := by
  have hitems := BoundedQueue.send_eq_some hsend
  rw [List.perm_iff_count]
  intro request
  cases p <;> simp [Radio.queued, hitems, List.count_append, List.count_cons] <;> omega

theorem queued_dequeue {p : Priority} {taken : TxRequest}
    {queue : BoundedQueue TxRequest (kTxQueueDepth p)}
    (hreceive : (s.queues p).receive = some (taken, queue)) :
    s.queued.Perm (taken :: { s with queues := Function.update s.queues p queue }.queued) := by
  have hitems := BoundedQueue.receive_eq_some hreceive
  rw [List.perm_iff_count]
  intro request
  cases p <;> simp [Radio.queued, hitems, List.count_append, List.count_cons] <;> omega

theorem requests_enqueue {counts : WorkPhase → Bool} {p : Priority} {new : TxRequest}
    {queue : BoundedQueue TxRequest (kTxQueueDepth p)} (hsend : (s.queues p).send new = some queue) :
    ({ s with queues := Function.update s.queues p queue }.requests counts).Perm
      (new :: s.requests counts) :=
  ((queued_enqueue hsend).append_left _).trans List.perm_middle

/-- The worker takes a request into its hand. -/
theorem requests_dequeue {counts : WorkPhase → Bool} {p : Priority} {w : Worker}
    {queue : BoundedQueue TxRequest (kTxQueueDepth p)}
    (hreceive : (s.queues p).receive = some (w.request, queue)) (hidle : counts s.worker.phase = false)
    (hw : counts w.phase = true) :
    (({ s with queues := Function.update s.queues p queue }.setWorker w).requests counts).Perm
      (s.requests counts) := by
  rw [Radio.requests, Radio.requests, hidle]
  change ((if counts w.phase = true then [w.request] else []) ++ _).Perm _
  rw [if_pos hw]
  exact (queued_dequeue hreceive).symm

/-- What the worker does to the request in its hand is to drop it, if anything. -/
theorem requests_work {counts : WorkPhase → Bool} (hqueues : s'.queues = s.queues)
    (h : counts s'.worker.phase = true →
      counts s.worker.phase = true ∧ s'.worker.request = s.worker.request) :
    (s'.requests counts).Sublist (s.requests counts) := by
  rw [Radio.requests, Radio.requests, Radio.queued, hqueues, Radio.queued]
  refine List.Sublist.append_right ?_ _
  split
  · rename_i hcounts
    rw [if_pos (h hcounts).1, (h hcounts).2]
  · exact List.nil_sublist _

theorem not_inHand_of_inGrace {phase : WorkPhase} (h : phase.inGrace = true) :
    phase.inHand ≠ true := by
  revert h
  cases phase <;> decide

theorem WorkEffect.pending_sublist (heffect : WorkEffect s s') : s'.pending.Sublist s.pending := by
  refine requests_work heffect.frame.queues fun hin => ?_
  cases heffect with
  | stays => exact ⟨hin, rfl⟩
  | cancels | stores | storesNot | closes => cases hin
  | gives | resumes =>
    change s.worker.next.inHand = true at hin
    obtain hnext | hnext := next_cases s.worker <;> rw [hnext] at hin <;> cases hin
  | graces _ w hw => exact absurd hin (not_inHand_of_inGrace hw)
  | graceTakes _ status queue _ phase hnext => exact absurd hin (not_inHand_of_inGrace hnext)
  | active hphase | budgets hphase | late hphase | inTime hphase | clears hphase | sends hphase
  | rejects hphase | starts hphase | polls hphase | pollsOut hphase | measures hphase
  | takesOther hphase | takes hphase | timesOut hphase => exact ⟨by rw [hphase]; rfl, rfl⟩

theorem Linked.of_same (h : Linked s request) (hholder : s'.holder = s.holder)
    (hvalid : s'.valid = s.valid) : Linked s' request := by
  unfold Linked
  rw [hholder, hvalid]
  exact h

/-- The holder of a ticket is another call than one without it. -/
theorem holder_setCall_of_holder {i j : Nat} {c : Call} {ticket : Fin kCompletionSlotCount × UInt32}
    (hi : s.holder i ≠ some ticket) (hj : s.holder j = some ticket) :
    (s.setCall i c).holder j = some ticket := by
  have hne : j ≠ i := by
    rintro rfl
    exact hi hj
  rw [holder_setCall, Function.update_of_ne hne, hj]

/-- A ticket that is not given anew keeps its holder. -/
theorem Linked.acquire (h : Linked s request) {i : Nat} {k : Fin kCompletionSlotCount} {c : Call}
    (hnone : s.holder i = none)
    (hfresh : request.completion ≠ some (k, nextGeneration (s.slots k).generation)) :
    Linked ((s.acquire k).setCall i c) request := by
  intro ticket hticket hvalid
  change (s.acquire k).valid ticket.1 = _ at hvalid
  rw [Radio.acquire, valid_setSlot] at hvalid
  have hne : ticket.1 ≠ k := by
    intro heq
    rw [heq, Function.update_self] at hvalid
    have hgen : nextGeneration (s.slots k).generation = ticket.2 := Option.some.inj hvalid
    refine hfresh (Option.mem_def.1 hticket |>.trans ?_)
    rw [hgen, ← heq]
  rw [Function.update_of_ne hne] at hvalid
  obtain ⟨j, hj, hholder⟩ := h ticket hticket hvalid
  have hi : s.holder i ≠ some ticket := by
    rw [hnone]
    exact nofun
  exact ⟨j, hj, holder_setCall_of_holder hi hholder⟩

theorem Linked.release (h : Linked s request) {i : Nat} {k : Fin kCompletionSlotCount}
    {generation : UInt32} {c : Call} (hholds : s.holder i = some (k, generation)) :
    Linked ((s.release k).setCall i c) request := by
  intro ticket hticket hvalid
  change (s.release k).valid ticket.1 = _ at hvalid
  rw [Radio.release, valid_setSlot, Function.update_apply] at hvalid
  split at hvalid
  · cases hvalid
  · rename_i hne
    obtain ⟨j, hj, hholder⟩ := h ticket hticket hvalid
    have hi : s.holder i ≠ some ticket := by
      rw [hholds]
      rintro ⟨⟩
      exact hne rfl
    exact ⟨j, hj, holder_setCall_of_holder hi hholder⟩

theorem Linked.move (h : Linked s request) {i : Nat} {c : Call} (hticket : c.ticket = s.holder i) :
    Linked (s.setCall i c) request :=
  h.of_same (by rw [holder_setCall, hticket, Function.update_eq_self]) rfl

theorem request_linked (s : Radio) (i : Nat) (hholds : (s.calls i).phase.holds = true) :
    Linked s ((s.calls i).request i) := by
  intro ticket hticket _
  cases hticket
  exact ⟨i, rfl, holder_of_holds hholds⟩

theorem CallEffect.linked {i : Nat} (heffect : CallEffect s i s') (howned : Owned s)
    (h : ∀ request ∈ s.pending, Linked s request) (hfresh : Fresh s (.call i)) :
    ∀ request ∈ s'.pending, Linked s' request := by
  have hholder : s.holder i = (s.calls i).ticket := rfl
  intro request hmem
  cases heffect with
  | stays => exact h request hmem
  | noSlot hphase =>
    refine (h request hmem).move ?_
    rw [hholder, Call.ticket, Call.ticket, hphase]
    rfl
  | acquires hphase k hfree =>
    refine (h request hmem).acquire ?_ (hfresh hphase k hfree request hmem)
    rw [hholder, Call.ticket, hphase]
    rfl
  | drains => exact (h request hmem).of_same rfl (valid_setSlot_of_ticket (s := s) rfl)
  | wakes hphase =>
    have hawake : Linked (s.setSignal (s.calls i).slot false) request :=
      (h request hmem).of_same rfl (valid_setSlot_of_ticket (s := s) rfl)
    refine hawake.move ?_
    show _ = (s.calls i).ticket
    rw [Call.ticket, Call.ticket, hphase]
    rfl
  | enqueues hphase queue hqueue =>
    have hholds : (s.calls i).phase.holds = true := by rw [hphase]; rfl
    have hlinked : Linked s request :=
      (List.mem_cons.1 ((requests_enqueue hqueue).mem_iff.1 hmem)).elim
        (fun e => e ▸ request_linked s i hholds) (h request)
    have hqueued : Linked { s with queues := Function.update s.queues (s.calls i).priority queue }
        request := hlinked.of_same rfl rfl
    refine hqueued.move ?_
    show _ = (s.calls i).ticket
    rw [Call.ticket, Call.ticket, hphase]
    rfl
  | releases hphase =>
    have hholds : (s.calls i).phase.holds = true := by rw [hphase]; rfl
    exact (h request hmem).release (holder_of_holds hholds)
  | readsStale hphase hactive | releasesStale hphase hactive =>
    exact absurd (howned.active (by rw [hphase]; rfl)) hactive
  | drained hphase | builds hphase | refused hphase | sleeps hphase | expires hphase
  | reads hphase =>
    refine (h request hmem).move ?_
    rw [hholder, Call.ticket, Call.ticket, hphase]
    rfl

theorem step_linked (howned : Owned s) (h : ∀ request ∈ s.pending, Linked s request)
    {action : Action} (hfresh : Fresh s action) :
    ∀ request ∈ (s.step action).pending, Linked (s.step action) request := by
  intro request hmem
  cases action with
  | elapse ms => exact (h request hmem).of_same rfl rfl
  | sendToMac mac data p =>
    rw [Radio.step] at hmem ⊢
    obtain e | ⟨new, hnone, -, queue, hqueue, e⟩ := sendToMac_effect s mac data p <;>
      rw [e] at hmem ⊢
    · exact h request hmem
    · refine Linked.of_same (s := s) ?_ rfl rfl
      refine (List.mem_cons.1 ((requests_enqueue hqueue).mem_iff.1 hmem)).elim
        (fun hnew ticket hticket => ?_) (h request)
      rw [hnew, hnone] at hticket
      cases hticket
  | sendToMacWithStatus i mac data timeoutMs p =>
    rw [Radio.step] at hmem ⊢
    obtain e | ⟨c, hidle, e, hc⟩ := sendToMacWithStatus_effect s i mac data timeoutMs p <;>
      rw [e] at hmem ⊢
    · exact h request hmem
    · have hnone : s.holder i = none := by
        rw [Radio.holder, Call.ticket, hidle]
        rfl
      refine (h request hmem).move (Eq.trans ?_ hnone.symm)
      obtain rfl | ⟨mac, data, rfl⟩ := hc <;> rfl
  | call i => exact (callStep_effect s i).linked howned h hfresh request hmem
  | dequeue available =>
    rw [Radio.step] at hmem ⊢
    obtain e | ⟨hidle, ⟨cursor, e⟩ | ⟨p, taken, queue, cursor, hreceive, e⟩⟩ :=
      dequeueScheduled_effect s available <;> rw [e] at hmem ⊢
    · exact h request hmem
    · exact (h request hmem).of_same rfl rfl
    · have hmem' := (requests_dequeue hreceive (by rw [hidle]; rfl) rfl).mem_iff.1 hmem
      exact (h request hmem').of_same rfl rfl
  | work accepted =>
    have heffect := workStep_effect s accepted
    refine (h request (heffect.pending_sublist.subset hmem)).of_same ?_ heffect.frame.valid
    funext i
    exact congrArg (fun calls => (calls i).ticket) heffect.frame.calls
  | callback success =>
    rw [Radio.step] at hmem ⊢
    split at hmem <;> exact (h request hmem).of_same rfl rfl
  | overdueCallback index success =>
    rw [Radio.step] at hmem ⊢
    split at hmem <;> exact (h request hmem).of_same rfl rfl

end linked

/-! ## Whose step it is -/

/-- Whose call a step belongs to. -/
def Action.caller : Action → Option Nat
  | .sendToMacWithStatus i _ _ _ _ | .call i => some i
  | _ => none

/-- A call is moved by its own steps only. -/
theorem step_other {s : Radio} {i : Nat} {action : Action} (h : action.caller ≠ some i) :
    (s.step action).calls i = s.calls i := by
  cases action with
  | elapse ms => rfl
  | sendToMac mac data p =>
    rw [Radio.step]
    obtain e | ⟨request, -, -, queue, -, e⟩ := sendToMac_effect s mac data p <;> rw [e]
  | sendToMacWithStatus j mac data timeoutMs p =>
    rw [Radio.step]
    obtain e | ⟨c, -, e, -⟩ := sendToMacWithStatus_effect s j mac data timeoutMs p <;> rw [e]
    exact setCall_of_ne c fun hij => h (congrArg some hij.symm)
  | call j => exact (callStep_effect s j).frame.other i fun hij => h (congrArg some hij.symm)
  | dequeue available =>
    rw [Radio.step]
    obtain e | ⟨-, ⟨cursor, e⟩ | ⟨p, request, queue, cursor, -, e⟩⟩ :=
      dequeueScheduled_effect s available <;> rw [e] <;> rfl
  | work accepted => rw [Radio.step, (workStep_effect s accepted).frame.calls]
  | callback success =>
    rw [Radio.step]
    split <;> rfl
  | overdueCallback index success =>
    rw [Radio.step]
    split <;> rfl

theorem foldl_other {s : Radio} {i : Nat} {actions : List Action}
    (h : ∀ action ∈ actions, action.caller ≠ some i) :
    (actions.foldl Radio.step s).calls i = s.calls i := by
  induction actions generalizing s with
  | nil => rfl
  | cons action actions ih =>
    rw [List.foldl_cons, ih fun a ha => h a (.tail _ ha), step_other (h action (.head _))]

end BallyDongle.EspNowManager.TxWorker
