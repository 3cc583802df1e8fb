import BallyDongle.EspNowManager.Requests

/-!
# A failure is the sender's own

`completeRequest` gives a slot's semaphore after its critical section. In between the
slot can change hands, and the give then wakes the next call for nothing. Where it does
not, and the worker hands a callback over before the deadline it met, a call fails for
reasons of its own.
-/

namespace BallyDongle.EspNowManager.TxWorker

open Btp BtpTransport RadioTxScheduler

/-- The call's deadline passed before a callback for its frame. -/
def Late (s : Radio) (i : Nat) : Prop :=
  (s.calls i).deadline ≤ s.now ∧
    ∀ report ∈ s.reports, report.call = i → (s.calls i).deadline ≤ report.instant

/-- The reasons of its own for which a call may fail. -/
def Excused (s : Radio) (i : Nat) : Prop :=
  (s.calls i).noSlot = true ∨ (s.calls i).queueFull = true ∨ i ∈ s.rejected ∨ Late s i

/-- A call with valid arguments returns false only for a reason of its own. -/
def FailsAlone (s : Radio) : Prop :=
  ∀ i, (s.calls i).phase = .returned → (s.calls i).invalid = false →
    (s.calls i).callbackReceived = false → Excused s i

/-- The call has drained its semaphore and not taken it yet. -/
def CallPhase.waits : CallPhase → Bool
  | .building | .enqueuing | .awaiting | .blocked => true
  | _ => false

/-- The call waits for the completion of a request it has made. -/
def CallPhase.queued : CallPhase → Bool
  | .awaiting | .blocked => true
  | _ => false

/-- A give does not come so late that another call waits on the semaphore. -/
def OwnGive (s : Radio) : Action → Prop
  | .work _ => s.worker.phase = .giving → s.worker.signal = true →
      ∀ ticket ∈ s.worker.request.completion, ∀ i, (s.calls i).phase.waits = true →
        (s.calls i).slot = ticket.1 → s.worker.request.sender = some i
  | _ => True

/-- Time does not pass a call's deadline while a callback that met it is still to be
handed over. -/
def HandedOver (s : Radio) : Action → Prop
  | .elapse ms => ∀ report ∈ s.reports, (s.calls report.call).phase.queued = true →
      report.instant < (s.calls report.call).deadline →
        (s.slots (s.calls report.call).slot).signal = true ∨
          s.now + ms < (s.calls report.call).deadline
  | _ => True

/-- The call may be woken. -/
def Settled (s : Radio) (i : Nat) : Prop :=
  (s.slots (s.calls i).slot).callbackReceived = true ∨ i ∈ s.rejected ∨ Late s i

/-- No request of the call is under way. -/
def Served (s : Radio) (i : Nat) : Prop := ∀ request ∈ s.underWay, request.sender ≠ some i

/-- What holds of a call at any time. -/
structure Attended (s : Radio) (i : Nat) : Prop where
  signal : (s.calls i).phase.waits = true → (s.slots (s.calls i).slot).signal = true →
    (s.calls i).phase.queued = true ∧ Settled s i ∧ Served s i
  giving : s.worker.phase = .giving → s.worker.signal = true → s.worker.request.sender = some i →
    (s.calls i).phase.queued = true → Settled s i
  reading : (s.calls i).phase = .reading → Settled s i ∧ Served s i
  done : (s.calls i).phase = .releasing ∨ (s.calls i).phase = .returned →
    (s.calls i).callbackReceived = true ∨ (s.calls i).invalid = true ∨ Excused s i
  prompt : (s.calls i).phase.queued = true → ∀ report ∈ s.reports, report.call = i →
    report.instant < (s.calls i).deadline →
      (s.slots (s.calls i).slot).signal = true ∨ s.now < (s.calls i).deadline

section attended

variable {s s' : Radio} {i : Nat}

/-- What time does to the record. -/
structure Radio.Later (s s' : Radio) : Prop where
  now : s.now ≤ s'.now
  rejected : ∀ i ∈ s.rejected, i ∈ s'.rejected
  reports : ∀ report ∈ s'.reports, report ∈ s.reports ∨ s.now ≤ report.instant

theorem Late.mono (h : Late s i) (hlater : s.Later s')
    (hdeadline : (s'.calls i).deadline = (s.calls i).deadline) : Late s' i := by
  rw [Late, hdeadline]
  refine ⟨Nat.le_trans h.1 hlater.now, fun report hmem hcall => ?_⟩
  exact (hlater.reports report hmem).elim (h.2 report · hcall) (Nat.le_trans h.1)

theorem Excused.mono (h : Excused s i) (hlater : s.Later s')
    (hsame : (s'.calls i).noSlot = (s.calls i).noSlot ∧ (s'.calls i).queueFull = (s.calls i).queueFull ∧
      (s'.calls i).deadline = (s.calls i).deadline) : Excused s' i := by
  rw [Excused, hsame.1, hsame.2.1]
  exact h.imp id (Or.imp id (Or.imp (hlater.rejected i) (Late.mono · hlater hsame.2.2)))

theorem Settled.mono (h : Settled s i) (hlater : s.Later s')
    (hdeadline : (s'.calls i).deadline = (s.calls i).deadline)
    (hslot : (s.slots (s.calls i).slot).callbackReceived = true →
      (s'.slots (s'.calls i).slot).callbackReceived = true) : Settled s' i :=
  h.imp hslot (Or.imp (hlater.rejected i) (Late.mono · hlater hdeadline))

theorem holds_of_waits {phase : CallPhase} (h : phase.waits = true) : phase.holds = true := by
  revert h
  cases phase <;> decide

theorem waits_of_queued {phase : CallPhase} (h : phase.queued = true) : phase.waits = true := by
  revert h
  cases phase <;> decide

theorem queued_of_past {phase : CallPhase} (hwaits : phase.waits = true) (hpast : phase.past = true) :
    phase.queued = true := by
  revert hwaits hpast
  cases phase <;> decide

/-- A call has missed its deadline when it has seen neither the give nor the callback. -/
theorem Attended.late (h : Attended s i) (hqueued : (s.calls i).phase.queued = true)
    (hdeadline : (s.calls i).deadline ≤ s.now)
    (hsignal : (s.slots (s.calls i).slot).signal ≠ true) : Late s i := by
  refine ⟨hdeadline, fun report hmem hcall => Nat.le_of_not_lt fun hlt => ?_⟩
  obtain hgiven | hnow := h.prompt hqueued report hmem hcall hlt
  · exact hsignal hgiven
  · omega

/-- A call that does not move itself: what the step has to be checked for. -/
theorem Attended.keep (h : Attended s i) (hcall : s'.calls i = s.calls i) (hlater : s.Later s')
    (hkeep : (s.calls i).phase.holds = true → Settled s i → Served s i →
      Settled s' i ∧ Served s' i)
    (hsignal : (s.calls i).phase.waits = true → (s'.slots (s.calls i).slot).signal = true →
      (s.slots (s.calls i).slot).signal = true ∨
        (s.calls i).phase.queued = true ∧ Settled s' i ∧ Served s' i)
    (hgiving : s'.worker.phase = .giving → s'.worker.signal = true →
      s'.worker.request.sender = some i → (s.calls i).phase.queued = true → Settled s' i)
    (hprompt : (s.calls i).phase.queued = true → ∀ report ∈ s'.reports, report.call = i →
      report.instant < (s.calls i).deadline →
        (s'.slots (s.calls i).slot).signal = true ∨ s'.now < (s.calls i).deadline) :
    Attended s' i := by
  constructor <;> rw [hcall]
  · intro hwaits hgiven
    obtain hwas | hnew := hsignal hwaits hgiven
    · obtain ⟨hqueued, hi, hserve⟩ := h.signal hwaits hwas
      exact ⟨hqueued, hkeep (holds_of_waits hwaits) hi hserve⟩
    · exact hnew
  · exact hgiving
  · intro hphase
    obtain ⟨hi, hserve⟩ := h.reading hphase
    exact hkeep (by rw [hphase]; rfl) hi hserve
  · intro hphase
    refine (h.done hphase).imp id (Or.imp id fun hexcused => hexcused.mono hlater ?_)
    rw [hcall]
    exact ⟨rfl, rfl, rfl⟩
  · exact hprompt

/-- A call that does not move itself, and whose slot is not written. -/
theorem Attended.of_same (h : Attended s i) (hcall : s'.calls i = s.calls i)
    (hslot : (s.calls i).phase.holds = true →
      (s'.slots (s.calls i).slot).signal = (s.slots (s.calls i).slot).signal ∧
        (s'.slots (s.calls i).slot).callbackReceived =
          (s.slots (s.calls i).slot).callbackReceived)
    (hlater : s.Later s') (hserved : Served s i → Served s' i)
    (hgiving : s'.worker.phase = .giving → s'.worker.signal = true →
      s'.worker.request.sender = some i → (s.calls i).phase.queued = true → Settled s i)
    (hprompt : (s.calls i).phase.queued = true → ∀ report ∈ s'.reports, report.call = i →
      report.instant < (s.calls i).deadline →
        (s.slots (s.calls i).slot).signal = true ∨ s'.now < (s.calls i).deadline) :
    Attended s' i := by
  have hsettled : (s.calls i).phase.holds = true → Settled s i → Settled s' i := fun hholds hi =>
    hi.mono hlater (by rw [hcall]) (by rw [hcall, (hslot hholds).2]; exact id)
  refine h.keep hcall hlater (fun hholds hi hserve => ⟨hsettled hholds hi, hserved hserve⟩)
    (fun hwaits hgiven => ?_) (fun hphase hsignal hi hqueued => ?_)
    fun hqueued report hmem hreport hlt => ?_
  · rw [(hslot (holds_of_waits hwaits)).1] at hgiven
    exact .inl hgiven
  · exact hsettled (holds_of_waits (waits_of_queued hqueued))
      (hgiving hphase hsignal hi hqueued)
  · rw [(hslot (holds_of_waits (waits_of_queued hqueued))).1]
    exact hprompt hqueued report hmem hreport hlt

theorem Radio.Later.of_eq (hnow : s'.now = s.now) (hrejected : s'.rejected = s.rejected)
    (hreports : s'.reports = s.reports) : s.Later s' :=
  ⟨Nat.le_of_eq hnow.symm, fun _ hmem => hrejected ▸ hmem, fun _ hmem => .inl (hreports ▸ hmem)⟩

/-- The slot of one call is not the slot of another. -/
theorem slot_ne (howned : Owned s) {j : Nat} (hij : i ≠ j) (hi : (s.calls i).phase.holds = true)
    (hj : (s.calls j).phase.holds = true) : (s.calls i).slot ≠ (s.calls j).slot := by
  intro heq
  have hi' := holder_of_holds hi
  rw [heq] at hi'
  exact hij (howned.held.alone hi' (holder_of_holds hj))

theorem slot_ne_free (howned : Owned s) {k : Fin kCompletionSlotCount} (hfree : s.freeSlot = some k)
    (hi : (s.calls i).phase.holds = true) : (s.calls i).slot ≠ k := by
  intro heq
  have hvalid := howned.held.current (holder_of_holds hi)
  rw [heq, freeSlot_free hfree] at hvalid
  cases hvalid

/-- A call writes to no slot but its own. -/
theorem CallEffect.slots_other {j : Nat} (heffect : CallEffect s j s') (howned : Owned s)
    (hij : i ≠ j) (hi : (s.calls i).phase.holds = true) :
    s'.slots (s.calls i).slot = s.slots (s.calls i).slot := by
  cases heffect with
  | acquires _ k hfree => exact setSlot_of_ne _ (slot_ne_free howned hfree hi)
  | drains hphase | wakes hphase | releases hphase =>
    exact setSlot_of_ne _ (slot_ne howned hij hi (by rw [hphase]; rfl))
  | _ => rfl

theorem CallEffect.served_other {j : Nat} (heffect : CallEffect s j s') (hij : i ≠ j)
    (h : Served s i) : Served s' i := by
  cases heffect with
  | enqueues _ queue hqueue =>
    intro request hmem
    obtain rfl | hmem := List.mem_cons.1 ((requests_enqueue hqueue).mem_iff.1 hmem)
    · exact fun hj => hij (Option.some.inj hj).symm
    · exact h request hmem
  | _ => exact h

/-- A step of one call, seen from another. -/
theorem CallEffect.attended_other {j : Nat} (heffect : CallEffect s j s') (howned : Owned s)
    (hij : i ≠ j) (h : Attended s i) : Attended s' i := by
  have hframe := heffect.frame
  refine h.of_same (hframe.other i hij) (fun hholds => ?_)
    (.of_eq hframe.now hframe.rejected hframe.reports) (heffect.served_other hij) ?_ ?_
  · rw [heffect.slots_other howned hij hholds]
    exact ⟨rfl, rfl⟩
  · rw [hframe.worker]
    exact h.giving
  · rw [hframe.reports, hframe.now]
    exact h.prompt

/-- A call that moves on to where it is on no semaphore. -/
theorem attended_off {c : Call} (hoff : c.phase.waits = false ∧ c.phase ≠ .reading)
    (hdone : c.phase = .releasing ∨ c.phase = .returned →
      c.callbackReceived = true ∨ c.invalid = true ∨ Excused (s.setCall i c) i) :
    Attended (s.setCall i c) i := by
  have hqueued : c.phase.queued ≠ true := fun h => by
    have hwaits := waits_of_queued h
    rw [hoff.1] at hwaits
    cases hwaits
  constructor <;> rw [setCall_self]
  · rw [hoff.1]
    exact nofun
  · exact fun _ _ _ h => absurd h hqueued
  · exact (absurd · hoff.2)
  · exact hdone
  · exact (absurd · hqueued)

theorem attended_draining (h : (s.calls i).phase = .draining) : Attended s i := by
  constructor <;> rw [h] <;> simp [CallPhase.waits, CallPhase.queued]

/-- A call that has not enqueued its request finds its semaphore drained. -/
theorem Attended.quiet (h : Attended s i) (hwaits : (s.calls i).phase.waits = true)
    (hqueued : (s.calls i).phase.queued = false) :
    (s.slots (s.calls i).slot).signal = false := by
  refine Bool.eq_false_iff.2 fun hsignal => ?_
  rw [(h.signal hwaits hsignal).1] at hqueued
  cases hqueued

theorem attended_quiet {c : Call} (hwaits : c.phase = .building ∨ c.phase = .enqueuing)
    (hsignal : (s.slots c.slot).signal = false) : Attended (s.setCall i c) i := by
  constructor <;> rw [setCall_self]
  · rw [setCall_slots, hsignal]
    exact nofun
  all_goals obtain hphase | hphase := hwaits <;> rw [hphase] <;> simp [CallPhase.queued]

/-- A call that has made no request is no request's sender, and in no report. -/
theorem Made.unheard (h : Made s) (hpast : (s.calls i).phase.past = false) :
    Served s i ∧ ∀ report ∈ s.reports, report.call ≠ i := by
  refine ⟨fun request hmem hi => ?_, fun report hmem hi => ?_⟩
  · rw [(h.own request hmem i hi).2] at hpast
    cases hpast
  · rw [← hi, h.reported report hmem] at hpast
    cases hpast

/-- A call on whose slot nothing is written goes on to wait for its completion. -/
theorem Attended.wait (h : Attended s i) {c : Call} (hqueued : (s.calls i).phase = .awaiting)
    (hc : c.phase = .blocked) (hsame : c.slot = (s.calls i).slot ∧ c.deadline = (s.calls i).deadline) :
    Attended (s.setCall i c) i := by
  have hsettled : Settled s i → Settled (s.setCall i c) i := fun hi =>
    hi.mono (.of_eq rfl rfl rfl) (by rw [setCall_self, hsame.2])
      (by rw [setCall_self, hsame.1]; exact id)
  have hwas : (s.calls i).phase.queued = true := by rw [hqueued]; rfl
  constructor <;> rw [setCall_self, hc]
  · rw [setCall_slots, hsame.1]
    intro _ hsignal
    obtain ⟨-, hi, hserved⟩ := h.signal (waits_of_queued hwas) hsignal
    exact ⟨rfl, hsettled hi, hserved⟩
  · exact fun hphase hsignal hi _ => hsettled (h.giving hphase hsignal hi hwas)
  · exact nofun
  · exact (Or.elim · nofun nofun)
  · rw [setCall_slots, hsame.1, hsame.2]
    exact fun _ => h.prompt hwas

theorem CallEffect.attended (heffect : CallEffect s i s') (howned : Owned s) (hmade : Made s)
    (htimed : Timed s) (h : Attended s i) : Attended s' i := by
  cases heffect with
  | stays => exact h
  | noSlot => exact attended_off ⟨rfl, nofun⟩ fun _ => .inr (.inr (.inl (by rw [setCall_self])))
  | acquires => exact attended_off ⟨rfl, nofun⟩ (Or.elim · nofun nofun)
  | drains hphase => exact attended_draining hphase
  | drained hphase hsignal => exact attended_quiet (.inl rfl) hsignal
  | builds hphase =>
    exact attended_quiet (.inr rfl) (h.quiet (by rw [hphase]; rfl) (by rw [hphase]; rfl))
  | refused =>
    exact attended_off ⟨rfl, nofun⟩ fun _ => .inr (.inr (.inr (.inl (by rw [setCall_self]))))
  | enqueues hphase queue =>
    obtain ⟨hserved, hunreported⟩ := hmade.unheard (i := i) (by rw [hphase]; rfl)
    have hquiet := h.quiet (by rw [hphase]; rfl) (by rw [hphase]; rfl)
    constructor <;> rw [setCall_self]
    · intro _ hsignal
      change (s.slots (s.calls i).slot).signal = true at hsignal
      rw [hquiet] at hsignal
      cases hsignal
    · intro hgiving _ hi _
      change s.worker.phase = .giving at hgiving
      exact absurd hi (hserved _ (mem_requests (by rw [hgiving]; rfl)))
    · exact nofun
    · exact (Or.elim · nofun nofun)
    · exact fun _ report hmem hreport => absurd hreport (hunreported report hmem)
  | sleeps hphase => exact h.wait hphase rfl ⟨rfl, rfl⟩
  | wakes hphase hsignal =>
    obtain ⟨-, hsettled, hserved⟩ := h.signal (by rw [hphase]; rfl) hsignal
    constructor <;> rw [setCall_self]
    · exact nofun
    · exact fun _ _ _ => nofun
    · refine fun _ => ⟨hsettled.mono (.of_eq rfl rfl rfl) (by rw [setCall_self]; rfl) ?_, hserved⟩
      rw [setCall_self, setCall_slots, Radio.setSignal, setSlot_self]
      exact id
    · exact (Or.elim · nofun nofun)
    · exact nofun
  | expires hphase hsignal htime =>
    have hlate : Late s i := h.late (by rw [hphase]; rfl)
      (Nat.le_trans (htimed.blocked i hphase) htime) (by rw [hsignal]; exact nofun)
    refine attended_off ⟨rfl, nofun⟩ fun _ => .inr (.inr (.inr (.inr (.inr ?_))))
    exact hlate.mono (.of_eq rfl rfl rfl) (by rw [setCall_self]; rfl)
  | reads hphase =>
    refine attended_off ⟨rfl, nofun⟩ fun _ => ?_
    obtain hreceived | hrejected | hlate := (h.reading hphase).1
    · exact .inl hreceived
    · exact .inr (.inr (.inr (.inr (.inl hrejected))))
    · refine .inr (.inr (.inr (.inr (.inr (hlate.mono (.of_eq rfl rfl rfl) ?_)))))
      rw [setCall_self]
      rfl
  | releases hphase =>
    refine attended_off ⟨rfl, nofun⟩ fun _ => ?_
    refine (h.done (.inl hphase)).imp id (Or.imp id fun hexcused => ?_)
    refine hexcused.mono (.of_eq rfl rfl rfl) ?_
    rw [setCall_self]
    exact ⟨rfl, rfl, rfl⟩
  | readsStale hphase hactive | releasesStale hphase hactive =>
    exact absurd (howned.active (by rw [hphase]; rfl)) hactive

/-! ## The worker -/

/-- A step of the worker that writes to no slot. -/
theorem WorkEffect.attended_quiet (heffect : WorkEffect s s') (hslots : s'.slots = s.slots)
    (hnow : s'.now = s.now) (hreports : s'.reports = s.reports)
    (hrejected : ∀ i ∈ s.rejected, i ∈ s'.rejected)
    (hgiving : ¬(s'.worker.phase = .giving ∧ s'.worker.signal = true)) (h : Attended s i) :
    Attended s' i := by
  refine h.of_same (by rw [heffect.frame.calls]) (fun _ => by rw [hslots]; exact ⟨rfl, rfl⟩)
    ⟨Nat.le_of_eq hnow.symm, hrejected, fun _ hmem => .inl (hreports ▸ hmem)⟩
    (fun hserved request hmem => hserved request (heffect.underWay_sublist.subset hmem))
    (fun hphase hsignal => absurd ⟨hphase, hsignal⟩ hgiving) ?_
  rw [hreports, hnow]
  exact h.prompt

/-- A call whose slot `completeRequest` writes has its request in the worker's hand. -/
theorem holder_of_stores (howned : Owned s) (hlinked : ∀ request ∈ s.pending, Linked s request)
    (hphase : s.worker.phase = .completing) {k : Fin kCompletionSlotCount} {generation : UInt32}
    (hcompletion : s.worker.request.completion = some (k, generation))
    (huse : (s.slots k).inUse = true) (hgen : (s.slots k).generation = generation)
    (hholds : (s.calls i).phase.holds = true) (hslot : (s.calls i).slot = k) :
    s.worker.request.sender = some i := by
  have hvalid : s.valid k = some generation := by
    rw [Radio.valid, CompletionSlot.ticket, if_pos huse, hgen]
  obtain ⟨j, hsender, hj⟩ :=
    hlinked _ (mem_requests (by rw [hphase]; rfl)) (k, generation) hcompletion hvalid
  have hi : s.holder i = some (k, (s.calls i).generation) := hslot ▸ holder_of_holds hholds
  rw [howned.held.alone hi hj]
  exact hsender

/-- The slot of a call whose request the worker has in hand. -/
theorem Made.slot_eq (h : Made s) (hbusy : s.worker.phase.busy = true)
    (hi : s.worker.request.sender = some i) {k : Fin kCompletionSlotCount} {generation : UInt32}
    (hcompletion : s.worker.request.completion = some (k, generation)) :
    (s.calls i).slot = k := by
  rw [(h.own _ (mem_requests hbusy) i hi).1] at hcompletion
  exact congrArg Prod.fst (Option.some.inj hcompletion)

/-- The worker completes a request without a callback when it has to. -/
theorem settled_of_stores (hmade : Made s) (htimed : Timed s) (h : Attended s i)
    (hphase : s.worker.phase = .completing) (hi : s.worker.request.sender = some i)
    (hqueued : (s.calls i).phase.queued = true) :
    s.worker.callbackReceived = true ∨ i ∈ s.rejected ∨ Late s i := by
  have hmem : s.worker.request ∈ s.underWay := mem_requests (by rw [hphase]; rfl)
  have honTime := htimed.onTime (by rw [hi]; exact nofun)
  rw [OnTime, hphase] at honTime
  by_cases hreceived : s.worker.callbackReceived = true
  · exact .inl hreceived
  · refine .inr ((honTime (Bool.eq_false_iff.2 hreceived) i hi).imp id fun hdeadline => ?_)
    rw [(hmade.own _ hmem i hi).1] at hdeadline
    refine h.late hqueued hdeadline fun hsignal => ?_
    exact (h.signal (waits_of_queued hqueued) hsignal).2.2 _ hmem hi

/-- A field of the slots that a write to one of them keeps. -/
theorem setSlot_field (f : CompletionSlot → Bool) {k : Fin kCompletionSlotCount}
    {slot : CompletionSlot} (h : f slot = f (s.slots k)) (k' : Fin kCompletionSlotCount) :
    f ((s.setSlot k slot).slots k') = f (s.slots k') := by
  by_cases hk : k' = k
  · rw [hk, setSlot_self, h]
  · rw [setSlot_of_ne slot hk]

/-- The critical section of `completeRequest` writes a result into a slot. -/
theorem Attended.store (howned : Owned s) (hlinked : ∀ request ∈ s.pending, Linked s request)
    (hmade : Made s) (htimed : Timed s) (h : Attended s i) (hphase : s.worker.phase = .completing)
    {k : Fin kCompletionSlotCount} {generation : UInt32}
    (hcompletion : s.worker.request.completion = some (k, generation))
    (huse : (s.slots k).inUse = true) (hgen : (s.slots k).generation = generation)
    {slot : CompletionSlot} (hsignal : slot.signal = (s.slots k).signal)
    (hreceived : slot.callbackReceived = s.worker.callbackReceived) {w : Worker}
    (hserve : Served s i → Served ((s.setSlot k slot).setWorker w) i)
    (hw : w.request = s.worker.request) : Attended ((s.setSlot k slot).setWorker w) i := by
  have hbusy : s.worker.phase.busy = true := by rw [hphase]; rfl
  have hslots : ((s.setSlot k slot).setWorker w).slots = (s.setSlot k slot).slots := rfl
  have hsame := setSlot_field CompletionSlot.signal hsignal (s.calls i).slot
  have hlater : s.Later ((s.setSlot k slot).setWorker w) := .of_eq rfl rfl rfl
  refine h.keep rfl hlater (fun hholds hi hserved => ⟨?_, hserve hserved⟩)
    (fun _ hgiven => .inl (hsame.symm.trans hgiven)) (fun _ _ hi hqueued => ?_)
    fun hqueued report hmem hreport hlt =>
      (h.prompt hqueued report hmem hreport hlt).imp hsame.trans id
  · -- The slot written is not that of a call whose request has been completed.
    have hne : (s.calls i).slot ≠ k := fun hslot => hserved _ (mem_requests hbusy)
      (holder_of_stores howned hlinked hphase hcompletion huse hgen hholds hslot)
    refine hi.mono hlater rfl fun hwas => ?_
    change ((s.setSlot k slot).slots (s.calls i).slot).callbackReceived = true
    rw [setSlot_of_ne slot hne]
    exact hwas
  · change w.request.sender = some i at hi
    rw [hw] at hi
    obtain hwas | hown := settled_of_stores hmade htimed h hphase hi hqueued
    · refine .inl ?_
      change ((s.setSlot k slot).slots (s.calls i).slot).callbackReceived = true
      rw [hmade.slot_eq hbusy hi hcompletion, setSlot_self, hreceived, hwas]
    · exact .inr (hown.imp id fun hlate => hlate.mono hlater rfl)

/-- The worker is done with the only request of a call. -/
theorem Made.served (h : Made s) (hbusy : s.worker.phase.busy = true)
    (hi : s.worker.request.sender = some i) (hqueues : s'.queues = s.queues)
    (hdone : s'.worker.phase.busy = false) : Served s' i := by
  have hapart := h.apart
  rw [Radio.underWay, Radio.requests, if_pos hbusy, List.singleton_append] at hapart
  intro request hmem
  rw [Radio.underWay, Radio.requests, hdone, Radio.queued, hqueues] at hmem
  exact (List.pairwise_cons.1 hapart).1 request hmem i hi

/-- `completeRequest` gives a slot's semaphore. -/
theorem Attended.give (hmade : Made s) (h : Attended s i) (hphase : s.worker.phase = .giving)
    {k : Fin kCompletionSlotCount} {generation : UInt32}
    (hcompletion : s.worker.request.completion = some (k, generation))
    (hsignal : s.worker.signal = true) {accepted : Bool} (hgive : OwnGive s (.work accepted))
    (hserve : Served s i → Served ((s.setSignal k true).goto s.worker.next) i) :
    Attended ((s.setSignal k true).goto s.worker.next) i := by
  have hbusy : s.worker.phase.busy = true := by rw [hphase]; rfl
  have hlater : s.Later ((s.setSignal k true).goto s.worker.next) := .of_eq rfl rfl rfl
  have hreceived : ((s.setSignal k true).slots (s.calls i).slot).callbackReceived =
      (s.slots (s.calls i).slot).callbackReceived := setSlot_field (·.callbackReceived) (by rfl) _
  have hkeep : Settled s i → Settled ((s.setSignal k true).goto s.worker.next) i := fun hi =>
    hi.mono hlater rfl (hreceived.trans ·)
  refine h.keep rfl hlater (fun _ hi hserved => ⟨hkeep hi, hserve hserved⟩)
    (fun hwaits hgiven => ?_) (fun hnext => ?_) fun hqueued report hmem hreport hlt => ?_
  · by_cases hslot : (s.calls i).slot = k
    · have hi := hgive hphase hsignal (k, generation) hcompletion i hwaits hslot
      have hqueued := queued_of_past hwaits (hmade.own _ (mem_requests hbusy) i hi).2
      refine .inr ⟨hqueued, hkeep (h.giving hphase hsignal hi hqueued),
        hmade.served hbusy hi rfl ?_⟩
      change s.worker.next.busy = false
      obtain h' | h' := next_cases s.worker <;> rw [h'] <;> rfl
    · change ((s.setSignal k true).slots (s.calls i).slot).signal = true at hgiven
      rw [Radio.setSignal, setSlot_of_ne _ hslot] at hgiven
      exact .inl hgiven
  · change s.worker.next = .giving at hnext
    obtain h' | h' := next_cases s.worker <;> rw [h'] at hnext <;> cases hnext
  · refine (h.prompt hqueued report hmem hreport hlt).imp (fun hgiven => ?_) id
    change ((s.setSignal k true).slots (s.calls i).slot).signal = true
    by_cases hslot : (s.calls i).slot = k
    · rw [hslot, Radio.setSignal, setSlot_self]
    · rw [Radio.setSignal, setSlot_of_ne _ hslot, hgiven]

theorem WorkEffect.attended (heffect : WorkEffect s s') (howned : Owned s)
    (hlinked : ∀ request ∈ s.pending, Linked s request) (hmade : Made s) (htimed : Timed s)
    {accepted : Bool} (hgive : OwnGive s (.work accepted)) (h : Attended s i) :
    Attended s' i := by
  have hquiet := heffect.attended_quiet (i := i)
  have hserve : Served s i → Served s' i := fun hserved request hmem =>
    hserved request (heffect.underWay_sublist.subset hmem)
  cases heffect with
  | stays => exact h
  | stores hphase k generation hcompletion huse hgen =>
    refine .store howned hlinked hmade htimed h hphase hcompletion huse hgen ?_ ?_ hserve rfl <;>
      rfl
  | gives hphase k generation hcompletion hsignal =>
    exact h.give hmade hphase hcompletion hsignal hgive hserve
  | rejects =>
    exact hquiet rfl rfl rfl (fun _ hmem => List.mem_append_left _ hmem) (fun hg => by cases hg.1) h
  | storesNot => exact hquiet rfl rfl rfl (fun _ => id) (fun hg => by cases hg.2) h
  | resumes =>
    refine hquiet rfl rfl rfl (fun _ => id) (fun hg => ?_) h
    have hnext : s.worker.next = .giving := hg.1
    obtain h' | h' := next_cases s.worker <;> rw [h'] at hnext <;> cases hnext
  | graces _ w hw =>
    refine hquiet rfl rfl rfl (fun _ => id) (fun hg => ?_) h
    rw [show w.phase = .giving from hg.1] at hw
    cases hw
  | graceTakes _ status queue _ phase hnext =>
    refine hquiet rfl rfl rfl (fun _ => id) (fun hg => ?_) h
    rw [show phase = .giving from hg.1] at hnext
    cases hnext
  | _ => exact hquiet rfl rfl rfl (fun _ => id) (fun hg => by cases hg.1) h

/-! ## The other parties -/

theorem Attended.callback (h : Attended s i) {request : TxRequest} {success : Bool}
    {onAir : Option TxRequest} {overdue : List TxRequest} :
    Attended ({ s with onAir, overdue }.handleSend request success) i := by
  have hreports : ∀ report ∈ ({ s with onAir, overdue }.handleSend request success).reports,
      report ∈ s.reports ∨ report.instant = s.now := by
    intro report hmem
    refine (List.mem_append.1 hmem).imp id fun hnew => ?_
    obtain ⟨j, -, rfl⟩ := List.mem_map.1 hnew
    rfl
  refine h.of_same rfl (fun _ => ⟨rfl, rfl⟩) ⟨Nat.le_refl _, fun _ => id, fun report hmem => ?_⟩ id
    h.giving fun hqueued report hmem hreport hlt => ?_
  · exact (hreports report hmem).imp id fun hnow => Nat.le_of_eq hnow.symm
  · obtain hold | hnow := hreports report hmem
    · exact h.prompt hqueued report hold hreport hlt
    · exact .inr (hnow ▸ hlt)

theorem Attended.elapse (h : Attended s i) {ms : Nat} (hhanded : HandedOver s (.elapse ms)) :
    Attended { s with now := s.now + ms } i := by
  refine h.of_same rfl (fun _ => ⟨rfl, rfl⟩)
    ⟨Nat.le_add_right _ _, fun _ => id, fun _ => .inl⟩ id h.giving ?_
  rintro hqueued report hmem rfl hlt
  exact hhanded report hmem hqueued hlt

/-- What holds of the system at any time. -/
structure Sane (s : Radio) : Prop where
  owned : Owned s
  linked : ∀ request ∈ s.pending, Linked s request
  made : Made s
  timed : Timed s
  attended : ∀ i, Attended s i

/-- The three conditions on a step. -/
structure Orderly (s : Radio) (action : Action) : Prop where
  fresh : Fresh s action
  ownGive : OwnGive s action
  handedOver : HandedOver s action

theorem step_attended (h : Sane s) {action : Action} (horderly : Orderly s action) (i : Nat) :
    Attended (s.step action) i := by
  have hi := h.attended i
  have hsame : s.Later s := .of_eq rfl rfl rfl
  cases action with
  | elapse ms => exact hi.elapse horderly.handedOver
  | sendToMac mac data p =>
    rw [Radio.step]
    obtain e | ⟨new, -, hnone, queue, hqueue, e⟩ := sendToMac_effect s mac data p <;> rw [e]
    · exact hi
    · refine hi.of_same rfl (fun _ => ⟨rfl, rfl⟩) (.of_eq rfl rfl rfl) (fun hserved => ?_)
        hi.giving hi.prompt
      intro request hmem
      obtain rfl | hmem := List.mem_cons.1 ((requests_enqueue hqueue).mem_iff.1 hmem)
      · rw [hnone]
        intro hsome
        cases hsome
      · exact hserved request hmem
  | sendToMacWithStatus j mac data timeoutMs p =>
    rw [Radio.step]
    obtain e | ⟨c, -, e, hc⟩ := sendToMacWithStatus_effect s j mac data timeoutMs p <;> rw [e]
    · exact hi
    · by_cases hij : i = j
      · subst hij
        obtain rfl | ⟨mac, data, rfl⟩ := hc
        · exact attended_off ⟨rfl, fun h => by cases h⟩ fun _ => .inr (.inl rfl)
        · exact attended_off ⟨rfl, fun h => by cases h⟩ fun h => by rcases h with h | h <;> cases h
      · exact hi.of_same (setCall_of_ne c hij) (fun _ => ⟨rfl, rfl⟩) (.of_eq rfl rfl rfl) id
          hi.giving hi.prompt
  | call j =>
    have heffect := callStep_effect s j
    by_cases hij : i = j
    · subst hij
      exact heffect.attended h.owned h.made h.timed hi
    · exact heffect.attended_other h.owned hij hi
  | dequeue available =>
    rw [Radio.step]
    obtain e | ⟨hidle, ⟨cursor, e⟩ | ⟨p, request, queue, cursor, hreceive, e⟩⟩ :=
      dequeueScheduled_effect s available <;> rw [e]
    · exact hi
    · exact hi.of_same rfl (fun _ => ⟨rfl, rfl⟩) (.of_eq rfl rfl rfl) id hi.giving hi.prompt
    · refine hi.of_same rfl (fun _ => ⟨rfl, rfl⟩) (.of_eq rfl rfl rfl) (fun hserved => ?_)
        (fun h => by cases h) hi.prompt
      intro request hmem
      exact hserved request
        ((requests_dequeue hreceive (by rw [hidle]; rfl) rfl).mem_iff.1 hmem)
  | work accepted =>
    exact (workStep_effect s accepted).attended h.owned h.linked h.made h.timed
      horderly.ownGive hi
  | callback success =>
    rw [Radio.step]
    split
    · exact hi
    · exact hi.callback
  | overdueCallback index success =>
    rw [Radio.step]
    split
    · exact hi
    · exact hi.callback

theorem step_sane (h : Sane s) {action : Action} (horderly : Orderly s action) :
    Sane (s.step action) where
  owned := step_owned h.owned action
  linked := step_linked h.owned h.linked horderly.fresh
  made := step_made h.made action
  timed := step_timed h.made h.timed action
  attended := step_attended h horderly

theorem init_sane : Sane {} where
  owned := init_owned
  linked := nofun
  made := ⟨.nil, nofun, nofun, nofun⟩
  timed := ⟨fun _ => Nat.le_refl 0, nofun, fun _ => trivial⟩
  attended _ := ⟨nofun, nofun, nofun, (Or.elim · nofun nofun), nofun⟩

theorem Sane.failsAlone (h : Sane s) : FailsAlone s := by
  intro i hreturned hvalid hfailed
  obtain hreceived | hinvalid | hexcused := (h.attended i).done (.inr hreturned)
  · rw [hreceived] at hfailed
    cases hfailed
  · rw [hinvalid] at hvalid
    cases hvalid
  · exact hexcused

end attended

/-- Unless a give comes late, a generation comes round, or a callback that met a
deadline is handed over after it, every call that fails has a reason of its own. -/
theorem run_failsAlone (actions : List Action) (hfresh : Run.AllSteps Radio.step Fresh {} actions)
    (hgive : Run.AllSteps Radio.step OwnGive {} actions)
    (hhanded : Run.AllSteps Radio.step HandedOver {} actions) :
    Run.Throughout Radio.step FailsAlone {} actions := by
  have hsane : Run.Throughout Radio.step Sane {} actions :=
    .of_allSteps (fun s action h hall => step_sane h ⟨hall.1, hall.2.1, hall.2.2⟩) init_sane
      (hfresh.and (hgive.and hhanded))
  exact hsane.imp fun s => Sane.failsAlone

section bench

instance (s : Radio) : ∀ action, Decidable (HandedOver s action)
  | .elapse ms =>
    inferInstanceAs (Decidable (∀ report ∈ s.reports,
      (s.calls report.call).phase.queued = true →
        report.instant < (s.calls report.call).deadline →
          (s.slots (s.calls report.call).slot).signal = true ∨
            s.now + ms < (s.calls report.call).deadline))
  | .sendToMac _ _ _ | .sendToMacWithStatus _ _ _ _ _ | .call _ | .dequeue _ | .work _
  | .callback _ | .overdueCallback _ _ => .isTrue trivial

/-- A give finds no other of the first `n` calls waiting. -/
def GivesOwn (n : Nat) (s : Radio) : Prop :=
  s.worker.phase = .giving → s.worker.signal = true →
    ∀ k ∈ s.worker.request.completion.map Prod.fst, ∀ i < n, (s.calls i).phase.waits = true →
      (s.calls i).slot = k → s.worker.request.sender = some i

instance (n : Nat) (s : Radio) : Decidable (GivesOwn n s) :=
  inferInstanceAs (Decidable (s.worker.phase = .giving → s.worker.signal = true →
    ∀ k ∈ s.worker.request.completion.map Prod.fst, ∀ i < n, (s.calls i).phase.waits = true →
      (s.calls i).slot = k → s.worker.request.sender = some i))

/-- Only the calls that a run makes need to be looked at. -/
theorem ownGive_of_callers {n : Nat} {actions : List Action}
    (hcallers : Run.AllSteps Radio.step (fun _ action => ∀ i ∈ action.caller, i < n) {} actions)
    (hgive : Run.AllSteps Radio.step (fun s _ => GivesOwn n s) {} actions) :
    Run.AllSteps Radio.step OwnGive {} actions := by
  refine (hcallers.and hgive).of_invariant (I := fun s => ∀ i, n ≤ i → (s.calls i).phase = .idle)
    (fun s action hidle hown i hi => ?_) (fun s action hidle hown => ?_) fun _ _ => rfl
  · rw [step_other fun hcaller => Nat.not_lt.2 hi (hown.1 i hcaller)]
    exact hidle i hi
  · cases action with
    | work accepted =>
      intro hphase hsignal ticket hticket i hwaits hslot
      by_cases hi : i < n
      · exact hown.2 hphase hsignal ticket.1 (Option.mem_map_of_mem Prod.fst hticket) i hi hwaits hslot
      · rw [hidle i (Nat.not_lt.1 hi)] at hwaits
        cases hwaits
    | _ => trivial

/-- A call up to where it blocks on its semaphore. -/
def asks (i : Nat) (timeoutMs : UInt32) : List Action :=
  .sendToMacWithStatus i (some (.replicate 6 2)) (some [1]) timeoutMs .critical ::
    List.replicate 5 (.call i)

/-- A first call times out before the driver reports its frame, and a second one has its
slot when the worker completes the request. The second call's frame is rejected. -/
def lateCompletion : List Action :=
  asks 0 1 ++ .dequeue (· == .critical) :: List.replicate 5 (.work true) ++
    .elapse 1 :: List.replicate 2 (.call 0) ++ asks 1 1000 ++
    List.replicate 6 (.work true) ++ .callback true :: List.replicate 2 (.work true) ++
    .dequeue (· == .critical) :: List.replicate 3 (.work true) ++
    List.replicate 3 (.work false) ++ List.replicate 3 (.call 1)

/-- Both calls fail, each for a reason of its own. -/
theorem run_failsAlone_late :
    (∀ i < 2, ((lateCompletion.foldl Radio.step {}).calls i).phase = .returned) ∧
      Run.Throughout Radio.step FailsAlone {} lateCompletion :=
  ⟨by decide +kernel,
    run_failsAlone _ (by decide +kernel)
      (ownGive_of_callers (n := 2) (by decide +kernel) (by decide +kernel)) (by decide +kernel)⟩

/-- The worker has stored that it gave up on a first call's request when that call times
out. It gives the semaphore only after a second call has acquired the slot and drained
it. -/
def overtakenGive : List Action :=
  asks 0 1 ++ .dequeue (· == .critical) :: List.replicate 5 (.work true) ++
    .elapse 1 :: List.replicate 2 (.work true) ++ List.replicate 2 (.call 0) ++
    .sendToMacWithStatus 1 (some (.replicate 6 2)) (some [1]) 1000 .critical ::
    List.replicate 2 (.call 1) ++ .work true :: List.replicate 6 (.call 1)

/-- The late give fails the second call. -/
theorem woken_by_late_give :
    ¬∀ actions, Run.Throughout Radio.step FailsAlone {} actions := by
  intro h
  obtain hslot | hfull | hrejected | hlate :=
    (h overtakenGive).final 1 (by decide +kernel) (by decide +kernel) (by decide +kernel)
  · revert hslot
    decide +kernel
  · revert hfull
    decide +kernel
  · revert hrejected
    decide +kernel
  · have hdeadline := hlate.1
    revert hdeadline
    decide +kernel

end bench

end BallyDongle.EspNowManager.TxWorker
