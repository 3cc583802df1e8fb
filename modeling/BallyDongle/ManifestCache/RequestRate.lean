import BallyDongle.Lib.WrapClock
import BallyDongle.ManifestCache.Run

/-!
# The rate of manifest requests

The cooldown of a robot is kept in its slot of the pending table, which has fewer
slots than the radio may have robots: a robot new to a full table takes the slot
asked longest ago, and what that slot counted is lost. `run_spaced` says that the
requests granted for one robot keep their distance for as long as its slot is not
taken over, and `ninth_robot` that they need not once it is.
-/

namespace BallyDongle.ManifestCache.RequestRate

open Btp WrapClock

/-- The cache, the clock and, since the last answer about one robot, the instants at
which a request for it was granted, the newest first. -/
structure State where
  cache : Cache := {}
  now : Nat := 0
  granted : List Nat := []

inductive Turn
  | elapse (ms : Nat)
  | shouldRequestManifest (sourceId bootId : UInt32)
  | ingestManifestData (payload : Bytes)
  | configure (selfUuid : Option (Vector UInt8 16)) (selfSourceInfo : Option Bytes)
  | buildTargetedResponse (self : Identity) (request : ManifestRequest) (requestHeader : Header)
      (outputCapacity : Nat)
  | notePrimeSent
  | noteConsumeRejected

/-- The call of a turn; its time is the reading of the clock. -/
def Turn.op (nowMs : UInt32) : Turn → Option Op
  | elapse _ => none
  | shouldRequestManifest sourceId bootId => some (.shouldRequestManifest sourceId bootId nowMs)
  | ingestManifestData payload => some (.ingestManifestData payload nowMs)
  | configure selfUuid selfSourceInfo => some (.configure selfUuid selfSourceInfo)
  | buildTargetedResponse self request requestHeader outputCapacity =>
    some (.buildTargetedResponse self request requestHeader outputCapacity)
  | notePrimeSent => some .notePrimeSent
  | noteConsumeRejected => some .noteConsumeRejected

section run

variable (reader : ManifestReader) (writer : ManifestWriter) (s : UInt32)

/-- An answer about the robot forgets what was granted before it. -/
def granted (st : State) : Turn → List Nat
  | .shouldRequestManifest sourceId bootId =>
    if sourceId = s ∧ (shouldRequestManifest st.cache sourceId bootId (reading st.now)).2 then
      st.now :: st.granted
    else st.granted
  | .ingestManifestData payload =>
    if (ingestManifestData reader st.cache payload (reading st.now)).2 ∧
        (reader.header payload).toOption.any (·.describedSourceId == s) then []
    else st.granted
  | _ => st.granted

def step (st : State) (turn : Turn) : State where
  cache := ((turn.op (reading st.now)).map (ManifestCache.step reader writer st.cache)).getD st.cache
  now := match turn with
    | .elapse ms => st.now + ms
    | _ => st.now
  granted := granted reader s st turn

/-- The cooldown after so many requests. -/
def cooldownMs (requests : Nat) : Nat :=
  if requests ≤ kFastRequestAttempts.toNat then kFastRequestCooldownMs.toNat
  else kRequestCooldownMs.toNat

/-! ## What a turn must not do -/

/-- A request that is not refused outright: it names a robot that is not cached under
this boot. -/
def Asks (g : Cache) (sourceId bootId : UInt32) : Prop :=
  sourceId ≠ 0 ∧ bootId ≠ 0 ∧ (findEntry g sourceId).any (·.bootId == bootId) = false

instance (g : Cache) (sourceId bootId : UInt32) : Decidable (Asks g sourceId bootId) :=
  inferInstanceAs (Decidable (_ ∧ _ ∧ _))

/-- A robot without a slot would be given the slot of `s`. -/
def TakesOver (g : Cache) (sourceId : UInt32) : Prop :=
  findPending g sourceId = none ∧ (g.pending (findOrAllocatePending g sourceId)).key = some s

instance (g : Cache) (sourceId : UInt32) : Decidable (TakesOver s g sourceId) :=
  inferInstanceAs (Decidable (_ ∧ _))

/-- No other robot's request takes the slot of `s` over, and its attempts do not wrap. -/
def Keeps (st : State) : Turn → Prop
  | .shouldRequestManifest sourceId bootId =>
    (sourceId ≠ s → Asks st.cache sourceId bootId → ¬TakesOver s st.cache sourceId) ∧
      (sourceId = s → ∀ i, (st.cache.pending i).key = some s →
        (st.cache.pending i).attempts ≠ 0xFFFFFFFF)
  | _ => True

instance (st : State) (turn : Turn) : Decidable (Keeps s st turn) := by
  unfold Keeps
  split <;> infer_instance

end run

/-! ## What a request does -/

variable {reader : ManifestReader} {writer : ManifestWriter} {g g' : Cache} {s : UInt32}
  {sourceId bootId nowMs : UInt32}

theorem shouldRequestManifest_refused
    (h : (shouldRequestManifest g sourceId bootId nowMs).2 = false) :
    (shouldRequestManifest g sourceId bootId nowMs).1 = g := by
  revert h
  unfold shouldRequestManifest
  dsimp only
  split
  · exact fun _ => rfl
  · split
    · exact fun _ => rfl
    · split
      · exact fun _ => rfl
      · exact nofun

/-- The slot of a request granted just now. -/
def asked (g : Cache) (sourceId bootId nowMs : UInt32) : PendingRequest :=
  let old := g.pending (findOrAllocatePending g sourceId)
  { used := true, sourceId, bootId, lastRequestedMs := nowMs
    attempts := if old.used && old.sourceId == sourceId then old.attempts + 1 else 1 }

theorem asked_key : (asked g sourceId bootId nowMs).key = some sourceId := rfl

theorem shouldRequestManifest_granted
    (h : (shouldRequestManifest g sourceId bootId nowMs).2 = true) :
    Asks g sourceId bootId ∧
      (∀ i, findPending g sourceId = some i →
        (if (g.pending i).attempts ≤ kFastRequestAttempts then kFastRequestCooldownMs
          else kRequestCooldownMs) ≤ nowMs - (g.pending i).lastRequestedMs) ∧
      (shouldRequestManifest g sourceId bootId nowMs).1.pending =
        Function.update g.pending (findOrAllocatePending g sourceId)
          (asked g sourceId bootId nowMs) := by
  revert h
  unfold shouldRequestManifest
  dsimp only
  split
  · exact nofun
  · rename_i hids
    split
    · exact nofun
    · rename_i hcached
      split
      · exact nofun
      · rename_i hwaiting
        intro _
        rw [not_or] at hids
        refine ⟨⟨hids.1, hids.2, by simpa using hcached⟩, fun i hi => ?_, rfl⟩
        rw [hi] at hwaiting
        simpa using hwaiting

/-! ## The invariant -/

/-- The slot of `s` knows the last request granted and how many there were; there is no
slot where there was none. -/
def Waits (g : Cache) (s : UInt32) (now : Nat) : List Nat → Prop
  | [] => ∀ i, (g.pending i).key ≠ some s
  | last :: earlier => last ≤ now ∧
    ∃ i, (g.pending i).key = some s ∧ (g.pending i).lastRequestedMs = reading last ∧
      (g.pending i).attempts.toNat = earlier.length + 1

theorem Waits.frame {now now' : Nat} {instants : List Nat} (h : Waits g s now instants)
    (hnow : now ≤ now')
    (hkeep : ∀ i, (g.pending i).key = some s ∨ (g'.pending i).key = some s →
      g'.pending i = g.pending i) :
    Waits g' s now' instants := by
  cases instants with
  | nil =>
    intro i hi
    exact h i (hkeep i (.inr hi) ▸ hi)
  | cons last earlier =>
    obtain ⟨hlast, i, hkey, hslot⟩ := h
    have hsame := hkeep i (.inl hkey)
    refine ⟨by omega, i, ?_⟩
    rw [hsame]
    exact ⟨hkey, hslot⟩

structure Tracks (s : UInt32) (st : State) : Prop where
  inv : Inv st.cache
  spaced : Spaced cooldownMs st.granted
  waits : Waits st.cache s st.now st.granted

theorem tracks_init : Tracks s {} where
  inv := inv_init
  spaced := trivial
  waits := fun _ => nofun

/-- The cooldown the slot stands for, in milliseconds. -/
theorem cooldown_toNat {attempts : UInt32} {n : Nat} (h : attempts.toNat = n) :
    (if attempts ≤ kFastRequestAttempts then kFastRequestCooldownMs
      else kRequestCooldownMs).toNat = cooldownMs n := by
  subst h
  simp only [cooldownMs, UInt32.le_iff_toNat_le]
  split <;> rfl

/-- Another robot's request leaves the slot of `s` alone. -/
theorem other_request (hd : SlotTable.Distinct PendingRequest.key g.pending) (hne : sourceId ≠ s)
    (hkeep : Asks g sourceId bootId → ¬TakesOver s g sourceId) (i : Fin kCapacity)
    (hi : (g.pending i).key = some s ∨
      ((shouldRequestManifest g sourceId bootId nowMs).1.pending i).key = some s) :
    (shouldRequestManifest g sourceId bootId nowMs).1.pending i = g.pending i := by
  cases hok : (shouldRequestManifest g sourceId bootId nowMs).2 with
  | false => rw [shouldRequestManifest_refused hok]
  | true =>
    obtain ⟨hasks, -, hpending⟩ := shouldRequestManifest_granted hok
    rw [hpending] at hi ⊢
    rcases eq_or_ne i (findOrAllocatePending g sourceId) with rfl | hother
    · exfalso
      rw [Function.update_self, asked_key, Option.some_inj] at hi
      have hold : (g.pending (findOrAllocatePending g sourceId)).key = some s := hi.resolve_right hne
      refine hkeep hasks ⟨?_, hold⟩
      rw [findPending_eq, SlotTable.find_eq_none]
      intro j hj
      have hslot := findOrAllocatePending_eq hd hj
      rw [hslot, hold] at hj
      exact hne (Option.some.inj hj).symm
    · rw [Function.update_of_ne hother]

/-- A request granted to `s` itself: far enough from the last one, and counted. -/
theorem own_request {now : Nat} {instants : List Nat} (hinv : Inv g)
    (hspaced : Spaced cooldownMs instants) (hwaits : Waits g s now instants)
    (hkeep : ∀ i, (g.pending i).key = some s → (g.pending i).attempts ≠ 0xFFFFFFFF)
    (hok : (shouldRequestManifest g s bootId (reading now)).2 = true) :
    Spaced cooldownMs (now :: instants) ∧
      Waits (shouldRequestManifest g s bootId (reading now)).1 s now (now :: instants) := by
  obtain ⟨-, hover, hpending⟩ := shouldRequestManifest_granted hok
  have hslot : ((shouldRequestManifest g s bootId (reading now)).1.pending
      (findOrAllocatePending g s)) = asked g s bootId (reading now) := by
    rw [hpending, Function.update_self]
  have hmark : ∀ n, (asked g s bootId (reading now)).attempts.toNat = n + 1 →
      n = instants.length →
      Waits (shouldRequestManifest g s bootId (reading now)).1 s now (now :: instants) := by
    intro n hn hlen
    refine ⟨Nat.le_refl now, findOrAllocatePending g s, ?_⟩
    rw [hslot, hn, hlen]
    exact ⟨asked_key, rfl, rfl⟩
  cases instants with
  | nil =>
    have hfresh : ¬((g.pending (findOrAllocatePending g s)).used &&
        (g.pending (findOrAllocatePending g s)).sourceId == s) = true := by
      rw [Bool.and_eq_true, beq_iff_eq, ← PendingRequest.key_eq_some]
      exact hwaits _
    refine ⟨⟨nofun, trivial⟩, hmark 0 ?_ rfl⟩
    rw [asked]
    dsimp only
    rw [if_neg hfresh]
    rfl
  | cons last earlier =>
    obtain ⟨hlast, i, hkey, hat, hattempts⟩ := hwaits
    have hi := findOrAllocatePending_eq hinv.pending hkey
    have hfind : findPending g s = some i := by
      rw [findPending_eq, hinv.pending.find_eq_some]
      exact hkey
    have hbudget := hover i hfind
    rw [hat] at hbudget
    have hafter := le_now_of_budget_le hlast (Nat.le_refl _) hbudget
    rw [cooldown_toNat hattempts] at hafter
    refine ⟨hspaced.cons hafter, hmark (earlier.length + 1) ?_ rfl⟩
    obtain ⟨hused, hsource⟩ := PendingRequest.key_eq_some.1 hkey
    have hmax := hkeep i hkey
    rw [asked, ← hi]
    dsimp only
    rw [if_pos (by rw [hused, hsource, Bool.true_and, beq_iff_eq])]
    rw [UInt32.toNat_add, hattempts, show (1 : UInt32).toNat = 1 from rfl]
    rw [ne_eq, ← UInt32.toNat_inj, hattempts, show UInt32.toNat 0xFFFFFFFF = 2 ^ 32 - 1 from rfl] at hmax
    have hlt := (g.pending i).attempts.toNat_lt
    omega

/-! ## Runs -/

/-- A cleared slot is as it was, or holds no request. -/
theorem clearPending_slot (g : Cache) (t : UInt32) (i : Fin kCapacity) :
    (clearPending g t).pending i = g.pending i ∨ ((clearPending g t).pending i).key = none := by
  rw [clearPending]
  split
  · exact .inl rfl
  · rename_i j _
    dsimp only
    rcases eq_or_ne i j with rfl | hne
    · right
      rw [Function.update_self]
      rfl
    · left
      rw [Function.update_of_ne hne]

variable {st : State}

@[simp] theorem step_request :
    (step reader writer s st (.shouldRequestManifest sourceId bootId)).cache =
      (shouldRequestManifest st.cache sourceId bootId (reading st.now)).1 := rfl

@[simp] theorem step_ingest (payload : Bytes) :
    (step reader writer s st (.ingestManifestData payload)).cache =
      (ingestManifestData reader st.cache payload (reading st.now)).1 := rfl

/-- What a call leaves behind, the clock standing still. -/
theorem Tracks.of_call {turn : Turn} {instants : List Nat}
    (hinv : Inv (step reader writer s st turn).cache)
    (hnow : (step reader writer s st turn).now = st.now)
    (hgranted : granted reader s st turn = instants) (hspaced : Spaced cooldownMs instants)
    (hwaits : Waits (step reader writer s st turn).cache s st.now instants) :
    Tracks s (step reader writer s st turn) := by
  subst hgranted
  exact ⟨hinv, hspaced, hnow ▸ hwaits⟩

theorem Tracks.request (h : Tracks s st) (hkeep : Keeps s st (.shouldRequestManifest sourceId bootId)) :
    Tracks s (step reader writer s st (.shouldRequestManifest sourceId bootId)) := by
  have hinv : Inv (step reader writer s st (.shouldRequestManifest sourceId bootId)).cache :=
    @Inv.step reader writer _ h.inv (.shouldRequestManifest sourceId bootId (reading st.now))
  by_cases hs : sourceId = s
  · subst hs
    cases hok : (shouldRequestManifest st.cache sourceId bootId (reading st.now)).2 with
    | false =>
      refine .of_call hinv rfl (if_neg fun hand => ?_) h.spaced ?_
      · rw [hok] at hand
        cases hand.2
      · rw [step_request, shouldRequestManifest_refused hok]
        exact h.waits
    | true =>
      obtain ⟨hspaced, hwaits⟩ := own_request h.inv h.spaced h.waits (hkeep.2 rfl) hok
      exact .of_call hinv rfl (if_pos ⟨rfl, hok⟩) hspaced hwaits
  · refine .of_call hinv rfl (if_neg fun hand => hs hand.1) h.spaced ?_
    exact h.waits.frame (Nat.le_refl _) (other_request h.inv.pending hs (hkeep.1 hs))

theorem Tracks.ingest (h : Tracks s st) (payload : Bytes) :
    Tracks s (step reader writer s st (.ingestManifestData payload)) := by
  have hinv : Inv (step reader writer s st (.ingestManifestData payload)).cache :=
    @Inv.step reader writer _ h.inv (.ingestManifestData payload (reading st.now))
  cases hok : (ingestManifestData reader st.cache payload (reading st.now)).2 with
  | false =>
    refine .of_call hinv rfl (if_neg fun hand => ?_) h.spaced ?_
    · rw [hok] at hand
      cases hand.1
    · rw [step_ingest, ingest_refused hok]
      exact h.waits
  | true =>
    obtain ⟨d, hd, hg⟩ := ingest_accepted hok
    have hpending : (ingestManifestData reader st.cache payload (reading st.now)).1.pending =
        (clearPending st.cache d.header.describedSourceId).pending := by
      rw [hg]
      exact store_pending ..
    have hclear := clearPending_key (s := d.header.describedSourceId) h.inv.pending
    have hheader : (reader.header payload).toOption.any (·.describedSourceId == s) =
        (d.header.describedSourceId == s) := by
      rw [hd.valid.header]
      rfl
    by_cases hs : d.header.describedSourceId = s
    · refine .of_call hinv rfl (if_pos ⟨hok, by rw [hheader, beq_iff_eq]; exact hs⟩) trivial ?_
      intro i
      rw [step_ingest, hpending, ← hs]
      exact (hclear i).1
    · refine .of_call hinv rfl (if_neg fun hand => ?_) h.spaced ?_
      · rw [hheader, beq_iff_eq] at hand
        exact hs hand.2
      · refine h.waits.frame (Nat.le_refl _) fun i hi => ?_
        rw [step_ingest, hpending] at hi ⊢
        obtain hmine | hcleared := hi
        · refine (hclear i).2 fun hkey => hs ?_
          rw [hmine] at hkey
          exact (Option.some.inj hkey).symm
        · obtain hsame | hnone := clearPending_slot st.cache d.header.describedSourceId i
          · exact hsame
          · rw [hnone] at hcleared
            cases hcleared

theorem Tracks.step (h : Tracks s st) {turn : Turn} (hkeep : Keeps s st turn) :
    Tracks s (step reader writer s st turn) := by
  cases turn with
  | elapse ms =>
    exact ⟨h.inv, h.spaced, h.waits.frame (Nat.le_add_right ..) fun _ _ => rfl⟩
  | shouldRequestManifest sourceId bootId => exact h.request hkeep
  | ingestManifestData payload => exact h.ingest payload
  | configure selfUuid selfSourceInfo =>
    exact ⟨⟨h.inv.entries, h.inv.pending⟩, h.spaced, h.waits.frame (Nat.le_refl _) fun _ _ => rfl⟩
  | buildTargetedResponse self request requestHeader outputCapacity =>
    exact ⟨⟨h.inv.entries, h.inv.pending⟩, h.spaced, h.waits.frame (Nat.le_refl _) fun _ _ => rfl⟩
  | notePrimeSent =>
    exact ⟨⟨h.inv.entries, h.inv.pending⟩, h.spaced, h.waits.frame (Nat.le_refl _) fun _ _ => rfl⟩
  | noteConsumeRejected =>
    exact ⟨⟨h.inv.entries, h.inv.pending⟩, h.spaced, h.waits.frame (Nat.le_refl _) fun _ _ => rfl⟩

/-- The requests for a robot keep their distance as long as no other takes its slot over. -/
theorem run_spaced (reader : ManifestReader) (writer : ManifestWriter) (s : UInt32)
    (turns : List Turn) (hkeep : Run.AllSteps (step reader writer s) (Keeps s) {} turns) :
    Run.Throughout (step reader writer s) (fun st => Spaced cooldownMs st.granted) {} turns :=
  (Run.Throughout.of_allSteps (fun _ _ h hturn => h.step hturn) tracks_init hkeep).imp
    fun _ h => h.spaced

/-- Requests for robots not heard before. -/
def strangers (sourceIds : List UInt32) : List Turn :=
  sourceIds.map fun sourceId => .shouldRequestManifest sourceId 1

/-- Five requests for a robot as fast as they are granted, beside seven other robots. -/
theorem run_spaced_eight :
    Run.Throughout (step Layout.reader Layout.writer 1) (fun st => Spaced cooldownMs st.granted) {}
      (strangers [1, 2, 3, 4, 5, 6, 7, 8] ++
        [.elapse 1000, .shouldRequestManifest 1 2, .elapse 1000, .shouldRequestManifest 1 3,
          .elapse 1000, .shouldRequestManifest 1 1, .elapse 3000, .shouldRequestManifest 1 1]) :=
  run_spaced _ _ 1 _ (by decide +kernel)

theorem ninth_granted :
    ((strangers [1, 2, 3, 4, 5, 6, 7, 8, 9, 1]).foldl
      (step Layout.reader Layout.writer 1) {}).granted = [0, 0] := by
  decide +kernel

theorem ninth_not_spaced :
    ¬Spaced cooldownMs ((strangers [1, 2, 3, 4, 5, 6, 7, 8, 9, 1]).foldl
      (step Layout.reader Layout.writer 1) {}).granted := by
  rw [ninth_granted]
  intro h
  have hgap : 0 + cooldownMs 1 ≤ 0 := h.1 0 (List.mem_singleton.2 rfl)
  exact absurd hgap (by decide)

/-- Nine robots within one millisecond: the ninth takes the slot of the first, which is
asked again at once. -/
theorem ninth_robot :
    ¬∀ turns, Run.Throughout (step Layout.reader Layout.writer 1)
      (fun st => Spaced cooldownMs st.granted) {} turns :=
  fun h => ninth_not_spaced (h _).final

end BallyDongle.ManifestCache.RequestRate
