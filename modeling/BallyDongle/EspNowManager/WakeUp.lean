import BallyDongle.EspNowManager.FrameLedger

/-!
# The worker's sleep

`dequeueScheduled` reads the three counts one after the other, and a worker that finds
nothing sleeps in `ulTaskNotifyTake`. A sender puts its request into the queue and gives
its notification only then, so a request can come in behind the worker's back: into a
queue whose count it has read, before it sleeps. An `Event` is a step of that finer
system; what it does to the radio is a step of the coarser one.
-/

namespace BallyDongle.EspNowManager.TxWorker

open RadioTxScheduler

def classes : List Priority := [.critical, .control, .data]

/-- The worker has some counts yet to read, or is in `ulTaskNotifyTake`. -/
inductive Look
  | counting (ahead : List Priority)
  | taking
  deriving DecidableEq

def Look.ahead : Look → List Priority
  | .counting ahead => ahead
  | .taking => []

/-- `giving` are the senders between `xQueueSend` and `xTaskNotifyGive`. -/
structure Alert where
  radio : Radio := {}
  look : Look := .counting classes
  available : Priority → Bool := fun _ => false
  notified : UInt32 := 0
  giving : Nat := 0

inductive Event
  | other (action : Action)
  | look
  | give

def Event.isGive : Event → Bool
  | .give => true
  | _ => false

def Event.isLook : Event → Bool
  | .look => true
  | _ => false

/-- A queue accepts a request in this step. -/
def Radio.puts (s : Radio) (action : Action) : Bool :=
  match s.offers action with
  | some (p, request) => (s.enqueueRequest request p).isSome
  | none => false

def Radio.waits (s : Radio) (p : Priority) : Bool := !(s.queues p).items.isEmpty

namespace Alert

variable (s : Alert)

/-- The next step of the worker while it has no request. -/
def lookStep : Alert :=
  if s.radio.worker.phase ≠ .idle then s
  else
    match s.look with
    | .counting (p :: ahead) =>
      { s with
        look := .counting ahead
        available := Function.update s.available p (s.radio.waits p) }
    | .counting [] =>
      let radio := s.radio.dequeueScheduled s.available
      { s with
        radio
        look := if radio.worker.phase = .idle then .taking else .counting classes
        available := fun _ => false }
    | .taking =>
      -- `ulTaskNotifyTake` sleeps on a count of 0, and else clears it.
      if s.notified = 0 then s else { s with look := .counting classes, notified := 0 }

def otherStep (action : Action) : Alert :=
  { s with
    radio := s.radio.step action
    giving := s.giving + if s.radio.puts action then 1 else 0 }

def step (s : Alert) : Event → Alert
  | .other (.dequeue _) => s
  | .other action => s.otherStep action
  | .look => s.lookStep
  | .give =>
    if s.giving = 0 then s else { s with giving := s.giving - 1, notified := s.notified + 1 }

end Alert

/-! ## The coarser system -/

/-- What an event is to the radio. -/
def Alert.actions (s : Alert) : Event → List Action
  | .other (.dequeue _) => []
  | .other action => [action]
  | .look => if s.look = .counting [] then [.dequeue s.available] else []
  | .give => []

section alert

variable {s : Alert}

theorem lookStep_counting {p : Priority} {ahead : List Priority}
    (hidle : s.radio.worker.phase = .idle) (hlook : s.look = .counting (p :: ahead)) :
    s.lookStep =
      { s with
        look := .counting ahead
        available := Function.update s.available p (s.radio.waits p) } := by
  unfold Alert.lookStep
  rw [if_neg (not_ne_iff.2 hidle)]
  simp only [hlook]

theorem lookStep_choosing (hidle : s.radio.worker.phase = .idle) (hlook : s.look = .counting []) :
    s.lookStep =
      { s with
        radio := s.radio.dequeueScheduled s.available
        look :=
          if (s.radio.dequeueScheduled s.available).worker.phase = .idle then .taking
          else .counting classes
        available := fun _ => false } := by
  unfold Alert.lookStep
  rw [if_neg (not_ne_iff.2 hidle)]
  simp only [hlook]

theorem lookStep_taking (hidle : s.radio.worker.phase = .idle) (hlook : s.look = .taking) :
    s.lookStep =
      if s.notified = 0 then s else { s with look := .counting classes, notified := 0 } := by
  unfold Alert.lookStep
  rw [if_neg (not_ne_iff.2 hidle)]
  simp only [hlook]

theorem radio_lookStep (s : Alert) :
    s.lookStep.radio =
      if s.look = .counting [] then s.radio.dequeueScheduled s.available else s.radio := by
  by_cases hidle : s.radio.worker.phase = .idle
  · cases hlook : s.look with
    | taking =>
      rw [lookStep_taking hidle hlook, if_neg (show ¬Look.taking = .counting [] by decide)]
      split <;> rfl
    | counting ahead =>
      cases ahead with
      | nil => rw [lookStep_choosing hidle hlook, if_pos rfl]
      | cons p ahead =>
        rw [lookStep_counting hidle hlook,
          if_neg (show ¬Look.counting (p :: ahead) = .counting [] by simp)]
  · have hsame : s.radio.dequeueScheduled s.available = s.radio := by
      unfold Radio.dequeueScheduled
      rw [if_pos (.inl hidle)]
    unfold Alert.lookStep
    rw [if_pos hidle, hsame, ite_self]

theorem radio_step (s : Alert) (event : Event) :
    (s.step event).radio = (s.actions event).foldl Radio.step s.radio := by
  cases event with
  | other action => cases action <;> rfl
  | look =>
    rw [Alert.step, radio_lookStep, Alert.actions]
    split <;> rfl
  | give =>
    rw [Alert.step]
    split <;> rfl

/-- A run of the finer system is one of the coarser. -/
theorem radio_run (s : Alert) (events : List Event) :
    ∃ actions : List Action, (events.foldl Alert.step s).radio = actions.foldl Radio.step s.radio := by
  induction events generalizing s with
  | nil => exact ⟨[], rfl⟩
  | cons event events ih =>
    obtain ⟨actions, hactions⟩ := ih (s.step event)
    refine ⟨s.actions event ++ actions, ?_⟩
    rw [List.foldl_cons, hactions, radio_step, List.foldl_append]

/-! ## What the queues do -/

theorem waits_iff {r : Radio} {p : Priority} : r.waits p = true ↔ (r.queues p).items ≠ [] := by
  simp [Radio.waits]

/-- No step but the worker's look empties a queue, and one that fills a queue puts a
request into it. -/
theorem waits_step {r : Radio} {action : Action} (hdequeue : ∀ available, action ≠ .dequeue available)
    (p : Priority) :
    (r.waits p = true → (r.step action).waits p = true) ∧
      ((r.step action).waits p = true → r.waits p = true ∨ r.puts action = true) := by
  have hsame : (r.step action).queues = r.queues → (r.waits p = true → (r.step action).waits p = true) ∧
      ((r.step action).waits p = true → r.waits p = true ∨ r.puts action = true) := by
    intro hqueues
    unfold Radio.waits
    rw [hqueues]
    exact ⟨id, .inl⟩
  by_cases hwork : ∀ accepted, action ≠ .work accepted
  · have hqueues := (step_offers r hdequeue hwork).2.2
    cases hoffers : r.offers action with
    | none => exact hsame (by rw [hqueues, hoffers])
    | some offer =>
      simp only [hoffers] at hqueues
      cases hsend : r.enqueueRequest offer.2 offer.1 with
      | none => exact hsame (by rw [hqueues, hsend, Option.getD_none])
      | some queued =>
        have hputs : r.puts action = true := by
          simp only [Radio.puts, hoffers, hsend, Option.isSome_some]
        refine ⟨fun hwaits => ?_, fun _ => .inr hputs⟩
        rw [waits_iff] at hwaits ⊢
        rw [hqueues, hsend, Option.getD_some, enqueueRequest_eq_some hsend p]
        simp [hwaits]
  · simp only [not_forall, not_not] at hwork
    obtain ⟨accepted, rfl⟩ := hwork
    exact hsame (workStep_effect r accepted).frame.queues

/-! ## No lost wake-up -/

/-- Each class with work has been seen, or is yet to be looked at, or somebody has told
the worker or is about to. -/
structure Awake (s : Alert) : Prop where
  shown : ∀ p, s.available p = true → s.radio.waits p = true
  ahead : s.look.ahead <:+ classes
  rested : s.look = .taking → ∀ p, s.available p = false
  noticed : ∀ p, s.radio.waits p = true →
    s.available p = true ∨ p ∈ s.look.ahead ∨ 0 < s.giving ∨ s.notified ≠ 0

theorem mem_classes (p : Priority) : p ∈ classes := by cases p <;> decide

/-- A look at shown classes finds one just when there is one, and then takes a request. -/
theorem dequeueScheduled_phase (hidle : s.radio.worker.phase = .idle) (h : Awake s) :
    (s.radio.dequeueScheduled s.available).worker.phase = .idle ↔ ∀ p, s.available p = false := by
  have hshow : s.radio.mayShow s.available = true := by
    unfold Radio.mayShow
    rw [List.all_eq_true]
    intro p _
    cases havail : s.available p with
    | false => rfl
    | true => exact h.shown p havail
  unfold Radio.dequeueScheduled
  rw [if_neg (by simp [hidle, hshow])]
  dsimp only
  cases hfound : (choose s.available s.radio.worker.scheduleCursor).found with
  | false => exact iff_of_true hidle (choose_none hfound).2
  | true =>
    have havail := (choose_found hfound).available
    obtain ⟨request, hreceive⟩ := BoundedQueue.receive_of_ne_nil (waits_iff.1 (h.shown _ havail))
    rw [hreceive]
    refine iff_of_false nofun fun hnone => ?_
    rw [hnone] at havail
    cases havail

theorem waits_dequeueScheduled (hnone : ∀ p, s.available p = false) :
    (s.radio.dequeueScheduled s.available).waits = s.radio.waits := by
  have hfound : (choose s.available s.radio.worker.scheduleCursor).found = false := by
    rw [Bool.eq_false_iff]
    intro hfound
    have havail := (choose_found hfound).available
    rw [hnone] at havail
    cases havail
  unfold Radio.dequeueScheduled
  split
  · rfl
  · dsimp only
    rw [hfound]
    rfl

theorem Awake.count (h : Awake s) {p : Priority} {ahead : List Priority}
    (hlook : s.look = .counting (p :: ahead)) :
    Awake { s with
      look := .counting ahead
      available := Function.update s.available p (s.radio.waits p) } := by
  have hahead := h.ahead
  rw [hlook] at hahead
  refine ⟨fun p' havail => ?_, (List.suffix_cons p ahead).trans hahead, nofun, fun p' hwaits => ?_⟩
  · by_cases hp : p' = p
    · subst hp
      simpa using havail
    · change Function.update s.available p (s.radio.waits p) p' = true at havail
      rw [Function.update_of_ne hp] at havail
      exact h.shown p' havail
  · by_cases hp : p' = p
    · subst hp
      exact .inl (by simpa using hwaits)
    · obtain havail | hmem | hnotice := h.noticed p' hwaits
      · exact .inl (by simpa [Function.update_of_ne hp] using havail)
      · rw [hlook] at hmem
        exact .inr (.inl ((List.mem_cons.1 hmem).resolve_left hp))
      · exact .inr (.inr hnotice)

theorem Awake.look (h : Awake s) : Awake s.lookStep := by
  by_cases hidle : s.radio.worker.phase = .idle
  · cases hlook : s.look with
    | taking =>
      rw [lookStep_taking hidle hlook]
      split
      · exact h
      · exact ⟨h.shown, List.suffix_refl _, nofun, fun p _ => .inr (.inl (mem_classes p))⟩
    | counting ahead =>
      cases ahead with
      | cons p ahead =>
        rw [lookStep_counting hidle hlook]
        exact h.count hlook
      | nil =>
        rw [lookStep_choosing hidle hlook]
        by_cases hnone : ∀ p, s.available p = false
        · rw [if_pos ((dequeueScheduled_phase hidle h).2 hnone)]
          refine ⟨nofun, List.nil_suffix, fun _ _ => rfl, fun p hwaits => ?_⟩
          change (s.radio.dequeueScheduled s.available).waits p = true at hwaits
          rw [waits_dequeueScheduled hnone] at hwaits
          obtain havail | hmem | hnotice := h.noticed p hwaits
          · rw [hnone] at havail
            cases havail
          · rw [hlook] at hmem
            cases hmem
          · exact .inr (.inr hnotice)
        · rw [if_neg fun hphase => hnone ((dequeueScheduled_phase hidle h).1 hphase)]
          exact ⟨nofun, List.suffix_refl _, nofun, fun p _ => .inr (.inl (mem_classes p))⟩
  · unfold Alert.lookStep
    rw [if_pos hidle]
    exact h

theorem Awake.other (h : Awake s) {action : Action}
    (hdequeue : ∀ available, action ≠ .dequeue available) : Awake (s.otherStep action) := by
  refine ⟨fun p havail => (waits_step hdequeue p).1 (h.shown p havail), h.ahead, h.rested,
    fun p hwaits => ?_⟩
  obtain hwas | hputs := (waits_step hdequeue p).2 hwaits
  · obtain havail | hmem | hgiving | hnotified := h.noticed p hwas
    · exact .inl havail
    · exact .inr (.inl hmem)
    · exact .inr (.inr (.inl (Nat.add_pos_left hgiving _)))
    · exact .inr (.inr (.inr hnotified))
  · refine .inr (.inr (.inl ?_))
    show 0 < s.giving + if s.radio.puts action then 1 else 0
    rw [hputs]
    exact Nat.succ_pos _

theorem notified_succ (hroom : s.notified.toNat + 1 < 2 ^ 32) :
    (s.notified + 1).toNat = s.notified.toNat + 1 := by
  rw [UInt32.toNat_add]
  exact Nat.mod_eq_of_lt hroom

theorem step_awake (h : Awake s) (event : Event)
    (hroom : s.notified.toNat + (if event.isGive then 1 else 0) < 2 ^ 32) :
    Awake (s.step event) := by
  cases event with
  | look => exact h.look
  | give =>
    rw [Alert.step]
    split
    · exact h
    · refine ⟨h.shown, h.ahead, h.rested, fun p hwaits => ?_⟩
      obtain havail | hmem | - := h.noticed p hwaits
      · exact .inl havail
      · exact .inr (.inl hmem)
      · refine .inr (.inr (.inr fun hzero => ?_))
        change s.notified + 1 = 0 at hzero
        have hsucc := notified_succ hroom
        rw [hzero] at hsucc
        cases hsucc
  | other action =>
    cases action
    case dequeue => exact h
    all_goals exact h.other (fun _ => nofun)

theorem notified_step (s : Alert) (event : Event)
    (hroom : s.notified.toNat + (if event.isGive then 1 else 0) < 2 ^ 32) :
    (s.step event).notified.toNat ≤ s.notified.toNat + (if event.isGive then 1 else 0) := by
  cases event with
  | look =>
    rw [Alert.step]
    unfold Alert.lookStep
    split
    · exact Nat.le_refl _
    · split
      · exact Nat.le_refl _
      · exact Nat.le_refl _
      · split
        · exact Nat.le_refl _
        · exact Nat.zero_le _
  | give =>
    rw [Alert.step]
    split
    · exact Nat.le_add_right _ _
    · exact Nat.le_of_eq (notified_succ hroom)
  | other action => cases action <;> exact Nat.le_refl _

theorem run_awake (events : List Event) (h : Awake s)
    (hroom : s.notified.toNat + events.countP Event.isGive < 2 ^ 32) :
    Awake (events.foldl Alert.step s) ∧
      (events.foldl Alert.step s).notified.toNat ≤ s.notified.toNat + events.countP Event.isGive := by
  induction events generalizing s with
  | nil => exact ⟨h, Nat.le_refl _⟩
  | cons event events ih =>
    rw [List.countP_cons] at hroom ⊢
    have hnow : s.notified.toNat + (if event.isGive then 1 else 0) < 2 ^ 32 := by omega
    have hnext := notified_step s event hnow
    obtain ⟨hawake, hle⟩ := ih (step_awake h event hnow) (by omega)
    exact ⟨hawake, by rw [List.foldl_cons]; omega⟩

/-! ## How soon the worker wakes -/

/-- The look under way is going to find a request. -/
def Alert.visible (s : Alert) : Bool :=
  classes.any fun p => s.available p || s.look.ahead.contains p && s.radio.waits p

/-- The looks left until the worker has taken a request. -/
def Alert.distance (s : Alert) : Nat :=
  match s.look with
  | .taking => 5
  | .counting ahead => ahead.length + if s.visible then 1 else 6

/-- Work that the worker will not sleep over. -/
structure Roused (s : Alert) : Prop where
  waits : ∃ p, s.radio.waits p = true
  notified : s.visible = false → s.notified ≠ 0

theorem visible_iff : s.visible = true ↔
    ∃ p, s.available p = true ∨ p ∈ s.look.ahead ∧ s.radio.waits p = true := by
  unfold Alert.visible
  simp [mem_classes]

theorem Awake.roused (h : Awake s) (hwaits : ∃ p, s.radio.waits p = true)
    (htold : s.giving = 0 ∨ s.notified ≠ 0) : Roused s := by
  refine ⟨hwaits, fun hhidden hzero => ?_⟩
  obtain ⟨p, hp⟩ := hwaits
  rw [Bool.eq_false_iff, Ne, visible_iff] at hhidden
  obtain havail | hmem | hpos | hne := h.noticed p hp
  · exact hhidden ⟨p, .inl havail⟩
  · exact hhidden ⟨p, .inr ⟨hmem, hp⟩⟩
  · have hgiving := htold.resolve_right fun hne => hne hzero
    omega
  · exact hne hzero

theorem Roused.distance_le (hroused : Roused s) (h : Awake s) : s.distance ≤ 8 := by
  unfold Alert.distance
  have hahead := h.ahead
  split
  · decide
  · rename_i ahead hlook
    rw [hlook] at hahead
    have hle : ahead.length ≤ 3 := hahead.length_le
    split
    · omega
    · rename_i hhidden
      have hne : ahead.length ≠ 3 := fun hthree => by
        obtain ⟨p, hp⟩ := hroused.waits
        refine hhidden (visible_iff.2 ⟨p, .inr ⟨?_, hp⟩⟩)
        rw [hlook, hahead.eq_of_length hthree]
        exact mem_classes p
      omega

/-- Reading a count does not change whether the look finds something. -/
theorem Awake.visible_count (h : Awake s) {p' : Priority} {ahead : List Priority}
    (hlook : s.look = .counting (p' :: ahead)) :
    ({ s with
      look := .counting ahead
      available := Function.update s.available p' (s.radio.waits p') } : Alert).visible =
      s.visible := by
  rw [Bool.eq_iff_iff, visible_iff, visible_iff, hlook]
  constructor
  · rintro ⟨p, havail | ⟨hmem, hwaits⟩⟩
    · by_cases hp : p = p'
      · subst hp
        exact ⟨p, .inr ⟨.head _, by simpa using havail⟩⟩
      · exact ⟨p, .inl (by simpa [Function.update_of_ne hp] using havail)⟩
    · exact ⟨p, .inr ⟨.tail _ hmem, hwaits⟩⟩
  · rintro ⟨p, hseen⟩
    by_cases hp : p = p'
    · subst hp
      have hwaits : s.radio.waits p = true := hseen.elim (h.shown p) And.right
      exact ⟨p, .inl (by simpa using hwaits)⟩
    · obtain havail | ⟨hmem, hwaits⟩ := hseen
      · exact ⟨p, .inl (by simpa [Function.update_of_ne hp] using havail)⟩
      · exact ⟨p, .inr ⟨(List.mem_cons.1 hmem).resolve_left hp, hwaits⟩⟩

/-- A look brings the worker nearer to the work, or gets it. -/
theorem Roused.look (hroused : Roused s) (h : Awake s) (hidle : s.radio.worker.phase = .idle)
    (hstill : s.lookStep.radio.worker.phase = .idle) :
    Roused s.lookStep ∧ s.lookStep.distance + 1 ≤ s.distance := by
  obtain ⟨p, hp⟩ := hroused.waits
  cases hlook : s.look with
  | taking =>
    have hhidden : s.visible = false := by
      rw [Bool.eq_false_iff, Ne, visible_iff, hlook]
      rintro ⟨p', havail | ⟨hmem, -⟩⟩
      · rw [h.rested hlook p'] at havail
        cases havail
      · cases hmem
    rw [lookStep_taking hidle hlook, if_neg (hroused.notified hhidden)]
    have hvisible : ({ s with look := .counting classes, notified := 0 } : Alert).visible = true :=
      visible_iff.2 ⟨p, .inr ⟨mem_classes p, hp⟩⟩
    refine ⟨⟨⟨p, hp⟩, fun hnot => absurd (hvisible.symm.trans hnot) (by decide)⟩, ?_⟩
    simp only [Alert.distance, hvisible, hlook]
    decide
  | counting ahead =>
    cases ahead with
    | cons p' ahead =>
      rw [lookStep_counting hidle hlook]
      have hsame := h.visible_count hlook
      refine ⟨⟨⟨p, hp⟩, fun hnot => hroused.notified (hsame.symm.trans hnot)⟩, ?_⟩
      simp only [Alert.distance, hsame, hlook, List.length_cons]
      omega
    | nil =>
      rw [lookStep_choosing hidle hlook] at hstill ⊢
      have hnone := (dequeueScheduled_phase hidle h).1 hstill
      have hhidden : s.visible = false := by
        rw [Bool.eq_false_iff, Ne, visible_iff, hlook]
        rintro ⟨p', havail | ⟨hmem, -⟩⟩
        · rw [hnone p'] at havail
          cases havail
        · cases hmem
      refine ⟨⟨⟨p, ?_⟩, fun _ => hroused.notified hhidden⟩, ?_⟩
      · show (s.radio.dequeueScheduled s.available).waits p = true
        rw [waits_dequeueScheduled hnone]
        exact hp
      · rw [if_pos ((dequeueScheduled_phase hidle h).2 hnone)]
        simp only [Alert.distance, hhidden, hlook]
        rfl

theorem distance_le_of_visible {s' : Alert} (hlook : s'.look = s.look)
    (hvisible : s.visible = true → s'.visible = true) : s'.distance ≤ s.distance := by
  unfold Alert.distance
  rw [hlook]
  split
  · exact Nat.le_refl _
  · cases hseen : s.visible with
    | true => rw [hvisible hseen]
    | false => split <;> simp

/-- Nothing else takes it further away. -/
theorem Roused.other (hroused : Roused s) {event : Event} (hlook : event.isLook = false)
    (hroom : s.notified.toNat + (if event.isGive then 1 else 0) < 2 ^ 32) :
    Roused (s.step event) ∧ (s.step event).distance ≤ s.distance := by
  cases event with
  | look => cases hlook
  | give =>
    rw [Alert.step]
    split
    · exact ⟨hroused, Nat.le_refl _⟩
    · refine ⟨⟨hroused.waits, fun _ hzero => ?_⟩, distance_le_of_visible rfl id⟩
      change s.notified + 1 = 0 at hzero
      have hsucc := notified_succ hroom
      rw [hzero] at hsucc
      cases hsucc
  | other action =>
    have hstep : (∀ available, action ≠ .dequeue available) →
        Roused (s.otherStep action) ∧ (s.otherStep action).distance ≤ s.distance := by
      intro hdequeue
      have hvisible : s.visible = true → (s.otherStep action).visible = true := by
        rw [visible_iff, visible_iff]
        rintro ⟨p, havail | ⟨hmem, hwaits⟩⟩
        · exact ⟨p, .inl havail⟩
        · exact ⟨p, .inr ⟨hmem, (waits_step hdequeue p).1 hwaits⟩⟩
      obtain ⟨p, hp⟩ := hroused.waits
      refine ⟨⟨⟨p, (waits_step hdequeue p).1 hp⟩, fun hhidden => hroused.notified ?_⟩,
        distance_le_of_visible rfl hvisible⟩
      rw [Bool.eq_false_iff] at hhidden ⊢
      exact fun hseen => hhidden (hvisible hseen)
    cases action
    case dequeue => exact ⟨hroused, Nat.le_refl _⟩
    all_goals exact hstep fun _ => nofun

theorem looks_lt_distance (events : List Event) (h : Awake s) (hroused : Roused s)
    (hroom : s.notified.toNat + events.countP Event.isGive < 2 ^ 32)
    (hidle : Run.Throughout Alert.step (fun s => s.radio.worker.phase = .idle) s events) :
    events.countP Event.isLook + 1 ≤ s.distance := by
  induction events generalizing s with
  | nil =>
    unfold Alert.distance
    split
    · decide
    · split <;> simp
  | cons event events ih =>
    rw [List.countP_cons] at hroom ⊢
    have hnow : s.notified.toNat + (if event.isGive then 1 else 0) < 2 ^ 32 := by omega
    have hnext := notified_step s event hnow
    have hrest := ih (step_awake h event hnow)
    cases hlook : event.isLook with
    | false =>
      obtain ⟨hroused', hle⟩ := hroused.other hlook hnow
      have hlt := hrest hroused' (by omega) hidle.2
      simp only [Bool.false_eq_true, if_false]
      omega
    | true =>
      cases event with
      | look =>
        obtain ⟨hroused', hle⟩ := hroused.look h hidle.1 hidle.2.start
        have hlt := hrest hroused' (by omega) hidle.2
        change (s.lookStep).distance + 1 ≤ s.distance at hle
        change _ + 1 ≤ (s.lookStep).distance at hlt
        simp only [if_true]
        omega
      | other action => cases hlook
      | give => cases hlook

end alert

theorem init_awake : Awake {} :=
  ⟨nofun, List.suffix_refl _, nofun, fun p _ => .inr (.inl (mem_classes p))⟩

/-- In every run of fewer than 2^32 notifications: a worker that has no request while
work waits, all of it notified or a notification pending, gets to it with its eighth look
step at the latest, whatever else goes on meanwhile. -/
theorem no_lost_wakeup (before after : List Event)
    (hgives : (before ++ after).countP Event.isGive < 2 ^ 32)
    (hwaits : ∃ p, (before.foldl Alert.step {}).radio.waits p = true)
    (htold : (before.foldl Alert.step {}).giving = 0 ∨ (before.foldl Alert.step {}).notified ≠ 0)
    (hidle : Run.Throughout Alert.step (fun s => s.radio.worker.phase = .idle)
      (before.foldl Alert.step {}) after) :
    after.countP Event.isLook ≤ 7 := by
  rw [List.countP_append] at hgives
  obtain ⟨hawake, hnotified⟩ := run_awake before init_awake (by
    rw [show (({} : Alert).notified).toNat = 0 from rfl]
    omega)
  rw [show (({} : Alert).notified).toNat = 0 from rfl] at hnotified
  have hroused := hawake.roused hwaits htold
  have hlooks := looks_lt_distance after hawake hroused (by omega) hidle
  have hdistance := hroused.distance_le hawake
  omega

/-- A frame comes in behind the worker's back: it has read the count of its class. -/
theorem no_lost_wakeup_behind : (List.replicate 7 Event.look).countP Event.isLook ≤ 7 :=
  no_lost_wakeup
    [.look, .other (.sendToMac (some (.replicate 6 2)) (some [1]) .critical), .give]
    (List.replicate 7 .look) (by decide) ⟨.critical, by decide⟩ (.inl (by decide))
    ⟨rfl, rfl, rfl, rfl, rfl, rfl, rfl, rfl⟩

end BallyDongle.EspNowManager.TxWorker
