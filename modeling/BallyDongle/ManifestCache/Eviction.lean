import BallyDongle.Lib.Run
import BallyDongle.ManifestCache.RequestRate

/-!
# Eviction

A robot new to a full cache takes the slot whose reading of the clock is the least. That is
the robot heard from longest ago as long as the clock has not wrapped since any of those
cached was heard (`run_forgets_iff`): the readings are compared as numbers, not by their
difference.
-/

namespace BallyDongle.ManifestCache.Eviction

open Btp WrapClock
open RequestRate (Turn)

/-- The cache, the clock, and when the last answer about each robot was accepted. -/
structure State where
  cache : Cache := {}
  now : Nat := 0
  heard : UInt32 → Nat := fun _ => 0

section run

variable (reader : ManifestReader) (writer : ManifestWriter)

def heard (st : State) : Turn → UInt32 → Nat
  | .ingestManifestData payload =>
    if (ingestManifestData reader st.cache payload (reading st.now)).2 then
      match reader.header payload with
      | .ok header => Function.update st.heard header.describedSourceId st.now
      | .error _ => st.heard
    else st.heard
  | _ => st.heard

def step (st : State) (turn : Turn) : State where
  cache := ((turn.op (reading st.now)).map (ManifestCache.step reader writer st.cache)).getD st.cache
  now := match turn with
    | .elapse ms => st.now + ms
    | _ => st.now
  heard := heard reader st turn

/-- When the robot in a slot was heard. -/
def State.heardAt (st : State) (i : Fin kCapacity) : Nat := st.heard (st.cache.entries i).sourceId

/-- A full answer of a robot that is not cached, and no slot is free. -/
def makesRoom (st : State) : Turn → Bool
  | .ingestManifestData payload => (readDescriptor reader payload).any fun d =>
    !d.notModified && (entrySlot st.cache d.header.describedSourceId).isNone &&
      decide (∀ i, (st.cache.entries i).used = true)
  | _ => false

/-- Every robot in the cache was heard less than half a turn of the clock ago. -/
def Recent (st : State) : Prop :=
  ∀ i, (st.cache.entries i).used = true → st.now < st.heardAt i + 2 ^ 31

/-- A robot the turn makes the cache forget was heard before all others in it. -/
def ForgetsOldest (st : State) (turn : Turn) : Prop :=
  ∀ i, (st.cache.entries i).used = true →
    (∀ k, ((step reader writer st turn).cache.entries k).key ≠ (st.cache.entries i).key) →
      ∀ j, (st.cache.entries j).used = true → st.heardAt i ≤ st.heardAt j

/-- The clock has not wrapped between hearing any two of the robots, where one has to go. -/
def InOneTurn (st : State) (turn : Turn) : Prop :=
  makesRoom reader st turn = true → ∀ i j, st.heardAt i / 2 ^ 32 = st.heardAt j / 2 ^ 32

instance (st : State) : Decidable (Recent st) := inferInstanceAs (Decidable (∀ _, _))

instance (st : State) (turn : Turn) : Decidable (ForgetsOldest reader writer st turn) :=
  inferInstanceAs (Decidable (∀ _, _))

instance (st : State) (turn : Turn) : Decidable (InOneTurn reader st turn) :=
  inferInstanceAs (Decidable (_ → _))

end run

variable {reader : ManifestReader} {writer : ManifestWriter} {st : State}

/-! ## The invariant -/

/-- A slot is marked with the reading at which its robot was heard. -/
structure Tracks (st : State) : Prop where
  inv : Inv st.cache
  marked : ∀ i, (st.cache.entries i).used = true →
    st.heardAt i ≤ st.now ∧ (st.cache.entries i).lastSeenMs = reading (st.heardAt i)

theorem tracks_init : Tracks {} := ⟨inv_init, nofun⟩

theorem step_inv (h : Inv st.cache) (turn : Turn) : Inv (step reader writer st turn).cache := by
  show Inv (((turn.op (reading st.now)).map (ManifestCache.step reader writer st.cache)).getD
    st.cache)
  cases turn.op (reading st.now) with
  | none => exact h
  | some op => exact h.step op

theorem Tracks.of_entries {turn : Turn} (h : Tracks st)
    (hentries : (step reader writer st turn).cache.entries = st.cache.entries)
    (hheard : (step reader writer st turn).heard = st.heard)
    (hnow : st.now ≤ (step reader writer st turn).now) : Tracks (step reader writer st turn) := by
  refine ⟨step_inv h.inv turn, fun i hi => ?_⟩
  rw [State.heardAt, hentries, hheard]
  rw [hentries] at hi
  obtain ⟨hle, hmark⟩ := h.marked i hi
  exact ⟨hle.trans hnow, hmark⟩

@[simp] theorem step_ingest (payload : Bytes) :
    (step reader writer st (.ingestManifestData payload)).cache =
      (ingestManifestData reader st.cache payload (reading st.now)).1 := rfl

theorem ingest_entry (e : Entry) (d : Descriptor) (payload : Bytes) (nowMs : UInt32) :
    (e.ingest d payload nowMs).sourceId = d.header.describedSourceId ∧
      (e.ingest d payload nowMs).lastSeenMs = nowMs := by
  rw [Entry.ingest]
  split <;> exact ⟨rfl, rfl⟩

/-- What an accepted answer does to the slots and to what was heard. -/
theorem step_accepted {payload : Bytes} {d : Descriptor} (hd : Accepts reader st.cache payload d) :
    (step reader writer st (.ingestManifestData payload)).cache.entries =
        (store st.cache d payload (reading st.now)).entries ∧
      (step reader writer st (.ingestManifestData payload)).heard =
        Function.update st.heard d.header.describedSourceId st.now := by
  have hresult : ingestManifestData reader st.cache payload (reading st.now) = _ :=
    ingest_of_accepts hd
  constructor
  · rw [step_ingest, hresult]
  · show heard reader st (.ingestManifestData payload) = _
    rw [heard, if_pos (by rw [hresult]), hd.valid.header]

theorem Tracks.ingest (h : Tracks st) (payload : Bytes) :
    Tracks (step reader writer st (.ingestManifestData payload)) := by
  cases hok : (ingestManifestData reader st.cache payload (reading st.now)).2 with
  | false =>
    refine h.of_entries ?_ ?_ (Nat.le_refl _)
    · rw [step_ingest, ingest_refused hok]
    · show heard reader st (.ingestManifestData payload) = _
      rw [heard, if_neg (by rw [hok]; decide)]
  | true =>
    obtain ⟨d, hd, -⟩ := ingest_accepted hok
    obtain ⟨hentries, hheard⟩ := @step_accepted reader writer st payload d hd
    refine ⟨step_inv h.inv _, fun i hi => ?_⟩
    have hslot := store_key_iff h.inv d payload (reading st.now) i
    rw [State.heardAt, hentries, hheard]
    rw [hentries] at hi
    show _ ≤ st.now ∧ _
    rcases eq_or_ne i (findOrAllocateEntry st.cache d.header.describedSourceId) with heq | hne
    · obtain ⟨hsource, hseen⟩ := ingest_entry (st.cache.entries i) d payload (reading st.now)
      rw [store_entry_self heq, hsource, hseen, Function.update_self]
      exact ⟨Nat.le_refl _, rfl⟩
    · have hother : (st.cache.entries i).sourceId ≠ d.header.describedSourceId := fun hsource =>
        hne (hslot.1 (Entry.key_eq_some.2 ⟨hi, by rw [store_entry_of_ne hne, hsource]⟩))
      rw [store_entry_of_ne hne] at hi ⊢
      rw [Function.update_of_ne hother]
      exact h.marked i hi

theorem Tracks.step (h : Tracks st) (turn : Turn) : Tracks (step reader writer st turn) := by
  cases turn with
  | elapse ms => exact h.of_entries rfl rfl (Nat.le_add_right _ _)
  | shouldRequestManifest sourceId bootId =>
    exact h.of_entries (shouldRequestManifest_entries st.cache sourceId bootId (reading st.now)) rfl
      (Nat.le_refl _)
  | ingestManifestData payload => exact h.ingest payload
  | configure selfUuid selfSourceInfo => exact h.of_entries rfl rfl (Nat.le_refl _)
  | buildTargetedResponse self request requestHeader outputCapacity =>
    exact h.of_entries rfl rfl (Nat.le_refl _)
  | notePrimeSent => exact h.of_entries rfl rfl (Nat.le_refl _)
  | noteConsumeRejected => exact h.of_entries rfl rfl (Nat.le_refl _)

/-! ## What is forgotten -/

/-- Where a robot is forgotten, an answer makes room. -/
theorem forgotten {turn : Turn} {i : Fin kCapacity}
    (hgone : ∀ k, ((step reader writer st turn).cache.entries k).key ≠ (st.cache.entries i).key) :
    ∃ payload d, turn = .ingestManifestData payload ∧ Accepts reader st.cache payload d ∧
      i = findOrAllocateEntry st.cache d.header.describedSourceId := by
  have hkept : (step reader writer st turn).cache.entries ≠ st.cache.entries := by
    intro hsame
    exact hgone i (congrArg Entry.key (congrFun hsame i))
  cases turn with
  | ingestManifestData payload =>
    cases hok : (ingestManifestData reader st.cache payload (reading st.now)).2 with
    | false => exact absurd (by rw [step_ingest, ingest_refused hok]) hkept
    | true =>
      obtain ⟨d, hd, -⟩ := ingest_accepted hok
      refine ⟨payload, d, rfl, hd, ?_⟩
      by_contra hne
      refine hgone i ?_
      rw [(step_accepted hd).1, store_entry_of_ne hne]
  | shouldRequestManifest sourceId bootId =>
    exact absurd (shouldRequestManifest_entries st.cache sourceId bootId (reading st.now)) hkept
  | elapse ms => exact absurd rfl hkept
  | configure selfUuid selfSourceInfo => exact absurd rfl hkept
  | buildTargetedResponse self request requestHeader outputCapacity => exact absurd rfl hkept
  | notePrimeSent => exact absurd rfl hkept
  | noteConsumeRejected => exact absurd rfl hkept

theorem makesRoom_of_forgotten {payload : Bytes} {d : Descriptor} {i : Fin kCapacity}
    (hd : Accepts reader st.cache payload d)
    (hi : i = findOrAllocateEntry st.cache d.header.describedSourceId)
    (hused : (st.cache.entries i).used = true)
    (hgone : (st.cache.entries i).key ≠ some d.header.describedSourceId) :
    makesRoom reader st (.ingestManifestData payload) = true := by
  have hnew := new_of_other (hi ▸ hgone)
  have hfull : ∀ j, (st.cache.entries j).used = true := by
    rcases findOrAllocateEntry_of_none hnew with hfree | hfull
    · rw [← hi, hused] at hfree
      cases hfree
    · exact hfull
  simp [makesRoom, hd.read, hd.full_of_new hnew, hnew, hfull]

/-- The answer that makes room, and the slot that goes to it. -/
theorem makesRoom_cases {turn : Turn} (h : makesRoom reader st turn = true) :
    ∃ payload d, turn = .ingestManifestData payload ∧ Accepts reader st.cache payload d ∧
      entrySlot st.cache d.header.describedSourceId = none ∧
      ∀ i, (st.cache.entries i).used = true := by
  cases turn with
  | ingestManifestData payload =>
    obtain ⟨d, hd, hroom⟩ := (Option.any_eq_true _ _).1 h
    simp only [Bool.and_eq_true, Bool.not_eq_true', Option.isNone_iff_eq_none,
      decide_eq_true_iff] at hroom
    obtain ⟨⟨hfull, hnew⟩, hused⟩ := hroom
    refine ⟨payload, d, rfl, ⟨hd, fun hnot => ?_⟩, hnew, hused⟩
    rw [hfull] at hnot
    cases hnot
  | _ => cases h

/-- The robot that has to go is in no slot afterwards. -/
theorem victim_gone (hinv : Inv st.cache) {payload : Bytes} {d : Descriptor}
    (hd : Accepts reader st.cache payload d)
    (hnew : entrySlot st.cache d.header.describedSourceId = none)
    (hused : ∀ i, (st.cache.entries i).used = true) (k : Fin kCapacity) :
    ((step reader writer st (.ingestManifestData payload)).cache.entries k).key ≠
      (st.cache.entries (findOrAllocateEntry st.cache d.header.describedSourceId)).key := by
  intro hkey
  rw [(step_accepted hd).1] at hkey
  rcases eq_or_ne k (findOrAllocateEntry st.cache d.header.describedSourceId) with hk | hne
  · rw [store_entry_self hk, ingest_key] at hkey
    exact entrySlot_eq_none.1 hnew _ hkey.symm
  · rw [store_entry_of_ne hne] at hkey
    have hvictim : (st.cache.entries
        (findOrAllocateEntry st.cache d.header.describedSourceId)).key = some _ :=
      Entry.key_eq_some.2 ⟨hused _, rfl⟩
    exact hne (hinv.entries (hkey.trans hvictim) hvictim)

theorem forgetsOldest_iff (h : Tracks st) {turn : Turn}
    (hrecent : makesRoom reader st turn = true → Recent st) :
    ForgetsOldest reader writer st turn ↔ InOneTurn reader st turn := by
  constructor
  · intro holdest hroom
    obtain ⟨payload, d, rfl, hd, hnew, hused⟩ := makesRoom_cases hroom
    have hturn : ∀ j, st.heardAt (findOrAllocateEntry st.cache d.header.describedSourceId) / 2 ^ 32 =
        st.heardAt j / 2 ^ 32 := by
      intro j
      have hle := holdest _ (hused _) (victim_gone h.inv hd hnew hused) j (hused j)
      have hread := findOrAllocateEntry_oldest hnew hused j
      rw [(h.marked _ (hused _)).2, (h.marked j (hused j)).2] at hread
      exact div_eq_of_reading_le hle
        (Nat.lt_of_le_of_lt (h.marked j (hused j)).1 (hrecent hroom _ (hused _))) hread
    exact fun i j => (hturn i).symm.trans (hturn j)
  · intro hturn i hi hgone j hj
    obtain ⟨payload, d, rfl, hd, hslot⟩ := forgotten hgone
    have hother : (st.cache.entries i).key ≠ some d.header.describedSourceId := by
      intro hkey
      refine hgone i ?_
      rw [(step_accepted hd).1, store_entry_self hslot, ingest_key, hkey]
    have hroom := makesRoom_of_forgotten hd hslot hi hother
    obtain ⟨_, d', heq, hd', hnew, hused⟩ := makesRoom_cases hroom
    have hread := findOrAllocateEntry_oldest (new_of_other (hslot ▸ hother)) hused j
    rw [← hslot, (h.marked i hi).2, (h.marked j hj).2] at hread
    exact (reading_le_iff (hturn hroom i j)).1 hread

/-- What is forgotten is what was heard longest ago, as long as the clock has not wrapped since. -/
theorem run_forgets_iff (reader : ManifestReader) (writer : ManifestWriter) (turns : List Turn)
    (hrecent : Run.AllSteps (step reader writer)
      (fun st turn => makesRoom reader st turn = true → Recent st) {} turns) :
    Run.AllSteps (step reader writer) (ForgetsOldest reader writer) {} turns ↔
      Run.AllSteps (step reader writer) (InOneTurn reader) {} turns := by
  constructor
  · intro holdest
    exact (hrecent.and holdest).of_invariant (fun _ turn h _ => h.step turn)
      (fun _ _ h hturn => (forgetsOldest_iff h hturn.1).1 hturn.2) tracks_init
  · intro hone
    exact (hrecent.and hone).of_invariant (fun _ turn h _ => h.step turn)
      (fun _ _ h hturn => (forgetsOldest_iff h hturn.1).2 hturn.2) tracks_init

/-- The first answers of these robots, `ms` apart. -/
def firstAnswers (ms : Nat) (sourceIds : List UInt32) : List Turn :=
  sourceIds.flatMap fun sourceId =>
    [.elapse ms, .ingestManifestData (Layout.robotAnswer sourceId 1 1 2 "robot" [])]

/-- Nine robots within a second: the ninth takes the slot of the first. -/
theorem run_forgets_iff_nine :
    Run.AllSteps (step Layout.reader Layout.writer) (ForgetsOldest Layout.reader Layout.writer) {}
      (firstAnswers 100 [1, 2, 3, 4, 5, 6, 7, 8, 9]) :=
  (run_forgets_iff Layout.reader Layout.writer _ (by decide +kernel)).2 (by decide +kernel)

/-- Seven robots heard in the last second before the clock wraps, an eighth a second after:
the ninth takes the slot of the eighth. -/
def acrossTheWrap : List Turn :=
  [.elapse (2 ^ 32 - 1000)] ++ firstAnswers 100 [1, 2, 3, 4, 5, 6, 7] ++ [.elapse 1000] ++
    firstAnswers 100 [8, 9]

theorem newest_forgotten :
    ¬∀ turns, Run.AllSteps (step Layout.reader Layout.writer)
        (fun st turn => makesRoom Layout.reader st turn = true → Recent st) {} turns →
      Run.AllSteps (step Layout.reader Layout.writer)
        (ForgetsOldest Layout.reader Layout.writer) {} turns := by
  intro h
  have hrecent : Run.AllSteps (step Layout.reader Layout.writer)
      (fun st turn => makesRoom Layout.reader st turn = true → Recent st) {} acrossTheWrap := by
    decide +kernel
  have hkept : ¬Run.AllSteps (step Layout.reader Layout.writer)
      (ForgetsOldest Layout.reader Layout.writer) {} acrossTheWrap := by
    decide +kernel
  exact hkept (h _ hrecent)

end BallyDongle.ManifestCache.Eviction
