import BallyDongle.Btp.ManifestLayout
import BallyDongle.Lib.Run
import BallyDongle.ManifestCache.Ingest

/-!
# Runs of the manifest cache

Everything that can happen to the cache, in any order, and what an ingest does
in a state so reached. A response shows of an entry only what the last answer
about it wrote, so a slot that changes hands shows nothing of its former occupant.
-/

namespace BallyDongle.ManifestCache

open Btp

/-- The calls that change the cache. -/
inductive Op
  | configure (selfUuid : Option (Vector UInt8 16)) (selfSourceInfo : Option Bytes)
  | shouldRequestManifest (sourceId bootId nowMs : UInt32)
  | ingestManifestData (payload : Bytes) (nowMs : UInt32)
  | buildTargetedResponse (self : Identity) (request : ManifestRequest) (requestHeader : Header)
      (outputCapacity : Nat)
  | notePrimeSent
  | noteConsumeRejected

section run

variable (reader : ManifestReader) (writer : ManifestWriter)

def step (g : Cache) : Op → Cache
  | .configure selfUuid selfSourceInfo => configure g selfUuid selfSourceInfo
  | .shouldRequestManifest sourceId bootId nowMs => (shouldRequestManifest g sourceId bootId nowMs).1
  | .ingestManifestData payload nowMs => (ingestManifestData reader g payload nowMs).1
  | .buildTargetedResponse self request requestHeader outputCapacity =>
    (buildTargetedResponse writer self g request requestHeader outputCapacity).1
  | .notePrimeSent => notePrimeSent g
  | .noteConsumeRejected => noteConsumeRejected g

/-- The cache after these calls since boot. -/
def run (ops : List Op) : Cache := ops.foldl (step reader writer) {}

end run

variable {reader : ManifestReader} {writer : ManifestWriter} {g : Cache}

/-! ## The invariant -/

theorem shouldRequestManifest_entries (g : Cache) (sourceId bootId nowMs : UInt32) :
    (shouldRequestManifest g sourceId bootId nowMs).1.entries = g.entries := by
  unfold shouldRequestManifest
  dsimp only
  split
  · rfl
  · split
    · rfl
    · split <;> rfl

theorem shouldRequestManifest_selfSourceInfo (g : Cache) (sourceId bootId nowMs : UInt32) :
    (shouldRequestManifest g sourceId bootId nowMs).1.selfSourceInfo = g.selfSourceInfo := by
  unfold shouldRequestManifest
  dsimp only
  split
  · rfl
  · split
    · rfl
    · split <;> rfl

/-- A robot that is asked already is asked from its own slot. -/
theorem findOrAllocatePending_eq (hd : SlotTable.Distinct PendingRequest.key g.pending)
    {s : UInt32} {j : Fin kCapacity} (hj : (g.pending j).key = some s) :
    j = findOrAllocatePending g s := by
  have hslot : findPending g s = some j := by
    rw [findPending_eq, hd.find_eq_some]
    exact hj
  rw [findOrAllocatePending, hslot]

theorem shouldRequestManifest_pending (hd : SlotTable.Distinct PendingRequest.key g.pending)
    (sourceId bootId nowMs : UInt32) :
    SlotTable.Distinct PendingRequest.key
      (shouldRequestManifest g sourceId bootId nowMs).1.pending := by
  unfold shouldRequestManifest
  dsimp only
  split
  · exact hd
  · split
    · exact hd
    · split
      · exact hd
      · refine hd.update fun k hk j hj => ?_
        cases hk
        exact findOrAllocatePending_eq hd hj

theorem Inv.ingest (h : Inv g) (payload : Bytes) (nowMs : UInt32) :
    Inv (ingestManifestData reader g payload nowMs).1 := by
  cases hok : (ingestManifestData reader g payload nowMs).2 with
  | false =>
    rw [ingest_refused hok]
    exact ⟨h.entries, h.pending⟩
  | true =>
    obtain ⟨d, -, hg⟩ := ingest_accepted hok
    rw [hg]
    exact ⟨store_distinct h.entries d payload nowMs,
      store_pending g d payload nowMs ▸ clearPending_distinct h.pending⟩

theorem Inv.step (h : Inv g) (op : Op) : Inv (step reader writer g op) := by
  cases op with
  | configure _ _ => exact ⟨h.entries, h.pending⟩
  | shouldRequestManifest sourceId bootId nowMs =>
    exact ⟨(shouldRequestManifest_entries g ..).symm ▸ h.entries,
      shouldRequestManifest_pending h.pending ..⟩
  | ingestManifestData payload nowMs => exact h.ingest payload nowMs
  | buildTargetedResponse _ _ _ _ => exact ⟨h.entries, h.pending⟩
  | notePrimeSent => exact ⟨h.entries, h.pending⟩
  | noteConsumeRejected => exact ⟨h.entries, h.pending⟩

theorem run_inv (ops : List Op) : Inv (run reader writer ops) := by
  have hfold : ∀ (ops : List Op) (g : Cache), Inv g → Inv (ops.foldl (step reader writer) g) := by
    intro ops
    induction ops with
    | nil => exact fun g h => h
    | cons op ops ih => exact fun g h => ih _ (h.step op)
  exact hfold ops {} inv_init

/-! ## A slot that changes hands -/

variable {payload : Bytes} {nowMs : UInt32} {d : Descriptor} {header : ManifestHeader}

/-- The cache with a slot as at boot. -/
def Cache.blank (g : Cache) (i : Fin kCapacity) : Cache :=
  { g with entries := Function.update g.entries i {} }

@[simp] theorem blank_entries (g : Cache) (i : Fin kCapacity) :
    (g.blank i).entries = Function.update g.entries i {} := rfl

theorem entrySlot_blank {s : UInt32} (h : entrySlot g s = none) (i : Fin kCapacity) :
    entrySlot (g.blank i) s = none := by
  rw [entrySlot_eq_none] at h ⊢
  intro j
  rw [blank_entries]
  rcases eq_or_ne j i with rfl | hne
  · rw [Function.update_self]
    exact nofun
  · rw [Function.update_of_ne hne]
    exact h j

theorem findOrAllocateEntry_blank {s : UInt32} (h : entrySlot g s = none) :
    findOrAllocateEntry (g.blank (findOrAllocateEntry g s)) s = findOrAllocateEntry g s := by
  have hblank := entrySlot_blank h (findOrAllocateEntry g s)
  rw [findOrAllocateEntry, hblank]
  dsimp only
  rw [blank_entries, findOrAllocateEntry, h]
  exact SlotTable.allocate_update rfl

/-- A new robot's answer shows the same from a slot another one held. -/
theorem Accepts.full_of_new (hd : Accepts reader g payload d)
    (hnew : entrySlot g d.header.describedSourceId = none) : d.notModified = false := by
  by_contra hnot
  exact hd.known (by simpa using hnot) hnew

theorem store_blank (laws : ReaderLaws reader) (hd : Accepts reader g payload d)
    (hnew : entrySlot g d.header.describedSourceId = none) (i : Fin kCapacity) :
    ((store g d payload nowMs).entries i).view =
      ((store (g.blank (findOrAllocateEntry g d.header.describedSourceId)) d payload
        nowMs).entries i).view := by
  have hfull := hd.full_of_new hnew
  have hview : ∀ e : Entry, (e.ingest d payload nowMs).view = some (d.shown payload) := by
    intro e
    have hused := (Entry.key_eq_some.1 (ingest_key e d payload nowMs)).1
    rw [Entry.view, if_pos hused, shown_ingest_full laws hd.valid hfull]
  rw [store_entries, store_entries, findOrAllocateEntry_blank hnew]
  rcases eq_or_ne i (findOrAllocateEntry g d.header.describedSourceId) with rfl | hne
  · rw [Function.update_self, Function.update_self, hview, hview]
  · rw [Function.update_of_ne hne, Function.update_of_ne hne, blank_entries,
      Function.update_of_ne hne]

theorem store_self (g : Cache) (d : Descriptor) (payload : Bytes) (nowMs : UInt32) :
    (store g d payload nowMs).selfUuid = g.selfUuid ∧
      (store g d payload nowMs).selfSourceInfo = g.selfSourceInfo := by
  rw [store, clearPending]
  dsimp only
  split <;> exact ⟨rfl, rfl⟩

/-! ## All or nothing -/

/-- The answer is news: its robot is not cached, or under another boot or revision. -/
def News (g : Cache) (header : ManifestHeader) : Prop :=
  ∀ i, (g.entries i).key = some header.describedSourceId →
    (g.entries i).bootId ≠ header.describedBootId ∨
      (g.entries i).configRevision ≠ header.configRevision

theorem changed_iff (hd : SlotTable.Distinct Entry.key g.entries) :
    changed g header = true ↔ News g header := by
  rw [changed]
  cases hslot : entrySlot g header.describedSourceId with
  | none =>
    refine iff_of_true rfl fun i hi => ?_
    exact absurd hi (entrySlot_eq_none.1 hslot i)
  | some i =>
    have hi := entrySlot_key hslot
    dsimp only
    rw [Bool.or_eq_true, bne_iff_ne, bne_iff_ne]
    constructor
    · intro h j hj
      rwa [hd hj hi]
    · exact fun h => h i hi

/-- What an accepted answer about `header.describedSourceId` does to the cache. -/
structure Touches (reader : ManifestReader) (g g' : Cache) (header : ManifestHeader)
    (payload : Bytes) (nowMs : UInt32) : Prop where
  unique : ∃! i, (g'.entries i).key = some header.describedSourceId
  others : ∀ i, (g'.entries i).key ≠ some header.describedSourceId → g'.entries i = g.entries i
  evicts : ∀ i s, (g'.entries i).key = some header.describedSourceId → (g.entries i).key = some s →
    s ≠ header.describedSourceId → ∀ j, (g.entries j).used = true
  hides : ∀ i, (g'.entries i).key = some header.describedSourceId →
    (g.entries i).key ≠ some header.describedSourceId →
    SameAnswers g' (ingestManifestData reader (g.blank i) payload nowMs).1
  cleared : ∀ i, (g'.pending i).key ≠ some header.describedSourceId
  otherPending : ∀ i, (g.pending i).key ≠ some header.describedSourceId →
    g'.pending i = g.pending i
  revision : (News g header → g'.catalogRevision = g.catalogRevision + 1) ∧
    (¬News g header → g'.catalogRevision = g.catalogRevision)

theorem store_key_iff (h : Inv g) (d : Descriptor) (payload : Bytes) (nowMs : UInt32)
    (i : Fin kCapacity) :
    ((store g d payload nowMs).entries i).key = some d.header.describedSourceId ↔
      i = findOrAllocateEntry g d.header.describedSourceId := by
  have hslot : ((store g d payload nowMs).entries
      (findOrAllocateEntry g d.header.describedSourceId)).key =
        some d.header.describedSourceId := by
    rw [store_entry_self rfl]
    exact ingest_key ..
  constructor
  · exact fun hi => store_distinct h.entries d payload nowMs hi hslot
  · rintro rfl
    exact hslot

/-- A slot that held something else is not the slot of a known robot. -/
theorem new_of_other {s : UInt32} (h : (g.entries (findOrAllocateEntry g s)).key ≠ some s) :
    entrySlot g s = none := by
  cases hexisting : entrySlot g s with
  | none => rfl
  | some k =>
    rw [findOrAllocateEntry_of_some hexisting] at h
    exact absurd (entrySlot_key hexisting) h

theorem ingest_touches (laws : ReaderLaws reader) (h : Inv g) (hd : Accepts reader g payload d) :
    Touches reader g (ingestManifestData reader g payload nowMs).1 d.header payload nowMs := by
  have hresult : ingestManifestData reader g payload nowMs = _ := ingest_of_accepts hd
  have hkey := store_key_iff h d payload nowMs
  have hpending := clearPending_key (s := d.header.describedSourceId) h.pending
  rw [hresult]
  refine
    { unique := ⟨_, (hkey _).2 rfl, fun i hi => (hkey i).1 hi⟩, others := ?_, evicts := ?_
      hides := ?_, cleared := ?_, otherPending := ?_, revision := ?_ }
  · intro i hi
    show (store g d payload nowMs).entries i = _
    exact store_entry_of_ne fun hslot => hi ((hkey i).2 hslot)
  · intro i s hi hold hs
    have hslot := (hkey i).1 hi
    subst hslot
    have hnew := new_of_other (hold ▸ fun heq => hs (Option.some.inj heq))
    rcases findOrAllocateEntry_of_none hnew with hfree | hall
    · rw [(Entry.key_eq_some.1 hold).1] at hfree
      cases hfree
    · exact hall
  · intro i hi hother
    have hslot := (hkey i).1 hi
    have hnew := new_of_other (hslot ▸ hother)
    have hblank : Accepts reader (g.blank i) payload d :=
      ⟨hd.read, fun hnot => by rw [hd.full_of_new hnew] at hnot; cases hnot⟩
    rw [ingest_of_accepts hblank, hslot]
    obtain ⟨huuid, hinfo⟩ := store_self g d payload nowMs
    obtain ⟨huuid', hinfo'⟩ := store_self
      (g.blank (findOrAllocateEntry g d.header.describedSourceId)) d payload nowMs
    exact sameAnswers_of_view (store_blank laws hd hnew) (huuid.trans huuid'.symm)
      (hinfo.trans hinfo'.symm)
  · intro i
    show ((store g d payload nowMs).pending i).key ≠ _
    rw [store_pending]
    exact (hpending i).1
  · intro i hi
    show (store g d payload nowMs).pending i = _
    rw [store_pending]
    exact (hpending i).2 hi
  · have hnews : changed g d.header = true ↔ News g d.header := changed_iff h.entries
    constructor
    · intro hn
      show (store g d payload nowMs).catalogRevision = _
      rw [store_catalogRevision, if_pos (hnews.2 hn)]
    · intro hn
      show (store g d payload nowMs).catalogRevision = _
      rw [store_catalogRevision, if_neg (fun hc => hn (hnews.1 hc))]

/-- Ingest is all or nothing, in every state the cache can reach. -/
theorem ingest_atomic (laws : ReaderLaws reader) (writer : ManifestWriter) (ops : List Op)
    (payload : Bytes) (nowMs : UInt32) :
    ((ingestManifestData reader (run reader writer ops) payload nowMs).2 = false →
      (ingestManifestData reader (run reader writer ops) payload nowMs).1.entries =
          (run reader writer ops).entries ∧
        (ingestManifestData reader (run reader writer ops) payload nowMs).1.pending =
          (run reader writer ops).pending ∧
        (ingestManifestData reader (run reader writer ops) payload nowMs).1.catalogRevision =
          (run reader writer ops).catalogRevision) ∧
    ((ingestManifestData reader (run reader writer ops) payload nowMs).2 = true →
      ∃ header, reader.header payload = .ok header ∧
        Touches reader (run reader writer ops)
          (ingestManifestData reader (run reader writer ops) payload nowMs).1 header payload
          nowMs) := by
  constructor
  · intro hok
    rw [ingest_refused hok]
    exact ⟨rfl, rfl, rfl⟩
  · intro hok
    obtain ⟨d, hd, -⟩ := ingest_accepted hok
    exact ⟨d.header, hd.valid.header, ingest_touches laws (run_inv ops) hd⟩

/-- The first answer of a robot with one topic. -/
theorem ingest_atomic_robot :
    ∃ header,
      Layout.reader.header (Layout.robotAnswer 0x9F442484 1 5 2 "robot" [[2, 0, 0, 0, 1, 2]]) =
          .ok header ∧
        Touches Layout.reader (run Layout.reader Layout.writer [])
          (ingestManifestData Layout.reader (run Layout.reader Layout.writer [])
            (Layout.robotAnswer 0x9F442484 1 5 2 "robot" [[2, 0, 0, 0, 1, 2]]) 1000).1 header
          (Layout.robotAnswer 0x9F442484 1 5 2 "robot" [[2, 0, 0, 0, 1, 2]]) 1000 :=
  (ingest_atomic Layout.reader_laws Layout.writer [] _ 1000).2 (by decide)

end BallyDongle.ManifestCache
