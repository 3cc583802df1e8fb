import BallyDongle.ManifestCache.Run

/-!
# Content and revision

Boot and revision of an entry are refreshed by every accepted answer, its
content only by a full one. A run is followed with the full answers it
ingested, latest first; an entry is coherent when its content is that of the
last one sent under its boot and revision. A NOT_MODIFIED under another boot or
revision breaks that (`relabelled`), and nothing else does (`content_coherent`).
-/

namespace BallyDongle.ManifestCache

open Btp

/-- What only a full answer brings. -/
structure Content where
  name : Bytes
  topics : Bytes
  actions : Bytes
  topicCount : UInt16
  actionCount : UInt16
  deriving DecidableEq

def Entry.content (e : Entry) : Content :=
  { name := e.shown.name, topics := e.shown.topics, actions := e.shown.actions
    topicCount := e.topicCount, actionCount := e.actionCount }

/-- A full answer that was ingested. -/
structure Sent where
  sourceId : UInt32
  bootId : UInt32
  configRevision : UInt32
  content : Content

def Descriptor.sent (d : Descriptor) (payload : Bytes) : Sent :=
  { sourceId := d.header.describedSourceId
    bootId := d.header.describedBootId
    configRevision := d.header.configRevision
    content :=
      { name := cutName d.header.sourceName
        topics := d.topics.octets payload
        actions := d.actions.octets payload
        topicCount := d.header.topicCount
        actionCount := d.header.actionCount } }

section trace

variable (reader : ManifestReader) (writer : ManifestWriter)

/-- The full answer a call ingests. -/
def sentBy (g : Cache) : Op → Option Sent
  | .ingestManifestData payload nowMs =>
    if (ingestManifestData reader g payload nowMs).2 then
      ((readDescriptor reader payload).filter fun d => !d.notModified).map (·.sent payload)
    else none
  | _ => none

/-- The cache, and the full answers ingested so far. -/
structure Trace where
  cache : Cache := {}
  sent : List Sent := []

def Trace.step (t : Trace) (op : Op) : Trace :=
  { cache := ManifestCache.step reader writer t.cache op
    sent := (sentBy reader t.cache op).toList ++ t.sent }

/-- A NOT_MODIFIED names the boot and the revision its robot is cached under. -/
def ConfirmsCurrent (t : Trace) : Op → Prop
  | .ingestManifestData payload _ =>
    ∀ d ∈ readDescriptor reader payload, d.notModified = true →
      ∀ i, (t.cache.entries i).key = some d.header.describedSourceId →
        (t.cache.entries i).bootId = d.header.describedBootId ∧
          (t.cache.entries i).configRevision = d.header.configRevision
  | _ => True

instance (t : Trace) : ∀ op, Decidable (ConfirmsCurrent reader t op)
  | .ingestManifestData payload _ =>
    inferInstanceAs (Decidable (∀ d ∈ readDescriptor reader payload, d.notModified = true →
      ∀ i, (t.cache.entries i).key = some d.header.describedSourceId →
        (t.cache.entries i).bootId = d.header.describedBootId ∧
          (t.cache.entries i).configRevision = d.header.configRevision))
  | .configure .. | .shouldRequestManifest .. | .buildTargetedResponse .. | .notePrimeSent
  | .noteConsumeRejected => .isTrue trivial

end trace

def Sent.under (sourceId bootId configRevision : UInt32) (a : Sent) : Bool :=
  a.sourceId == sourceId && a.bootId == bootId && a.configRevision == configRevision

/-- The content last sent under a boot and a revision. -/
def lastSent (sent : List Sent) (sourceId bootId configRevision : UInt32) : Option Content :=
  (sent.find? (Sent.under sourceId bootId configRevision)).map Sent.content

/-- The content of an entry is what was last sent under its boot and revision. -/
def Entry.Coherent (sent : List Sent) (e : Entry) : Prop :=
  lastSent sent e.sourceId e.bootId e.configRevision = some e.content

instance (sent : List Sent) (e : Entry) : Decidable (e.Coherent sent) :=
  inferInstanceAs (Decidable (_ = _))

def Coherent (t : Trace) : Prop :=
  ∀ i, (t.cache.entries i).used = true → (t.cache.entries i).Coherent t.sent

/-- What a targeted response about a robot shows was last sent under the boot and
the revision it is served under; NOT_MODIFIED confirms that revision too. -/
def ServesCoherent (t : Trace) : Prop :=
  ∀ (writer : ManifestWriter) (self : Identity) (request : ManifestRequest)
    (requestHeader : Header) (outputCapacity : Nat), request.targetSourceId ≠ self.sourceId →
    (buildTargetedResponse writer self t.cache request requestHeader outputCapacity).2 =
        notFound writer requestHeader outputCapacity ∨
      ∃ (shown : Shown) (content : Content),
        lastSent t.sent request.targetSourceId shown.bootId shown.configRevision = some content ∧
          (shown.name = content.name ∧ shown.topics = content.topics ∧
            shown.actions = content.actions) ∧
          (buildTargetedResponse writer self t.cache request requestHeader outputCapacity).2 =
            shown.answer writer request requestHeader outputCapacity

variable {reader : ManifestReader} {writer : ManifestWriter} {t : Trace}

theorem Coherent.serves (h : Coherent t) : ServesCoherent t := by
  intro writer self request requestHeader outputCapacity hself
  rw [buildTargetedResponse_eq, found_eq, if_neg hself, findEntry, Option.map_map]
  cases hslot : entrySlot t.cache request.targetSourceId with
  | none => exact .inl rfl
  | some i =>
    right
    obtain ⟨hused, hsource⟩ := Entry.key_eq_some.1 (entrySlot_key hslot)
    refine ⟨(t.cache.entries i).shown, (t.cache.entries i).content, ?_, ⟨rfl, rfl, rfl⟩, rfl⟩
    rw [← hsource]
    exact h i hused

/-! ## One step -/

theorem lastSent_cons_self {a : Sent} {sent : List Sent} :
    lastSent (a :: sent) a.sourceId a.bootId a.configRevision = some a.content := by
  have hunder : a.under a.sourceId a.bootId a.configRevision = true := by
    simp [Sent.under]
  rw [lastSent, List.find?_cons_of_pos hunder, Option.map_some]

theorem lastSent_cons_of_ne {a : Sent} {sent : List Sent} {s b r : UInt32} (h : a.sourceId ≠ s) :
    lastSent (a :: sent) s b r = lastSent sent s b r := by
  have hunder : ¬a.under s b r = true := by
    simp [Sent.under, h]
  rw [lastSent, List.find?_cons_of_neg hunder, lastSent]

section ingest

variable {payload : Bytes} {nowMs : UInt32} {d : Descriptor} {e : Entry}

theorem content_ingest_full (laws : ReaderLaws reader) (hd : d.Valid reader payload)
    (hfull : d.notModified = false) :
    (e.ingest d payload nowMs).content = (d.sent payload).content := by
  have hshown := shown_ingest_full laws hd hfull e nowMs
  rw [Entry.content, hshown, Entry.ingest, if_neg (by rw [hfull]; decide)]
  rfl

theorem content_ingest_notModified (hd : d.Valid reader payload) (hnot : d.notModified = true) :
    (e.ingest d payload nowMs).content = e.content := by
  have hshown := shown_ingest_notModified hd hnot e nowMs
  rw [Entry.content, hshown, Entry.ingest, if_pos hnot]
  rfl

/-- What an accepted answer says of the boot and the revision. -/
theorem ingest_revision (e : Entry) (d : Descriptor) (payload : Bytes) (nowMs : UInt32) :
    (e.ingest d payload nowMs).sourceId = d.header.describedSourceId ∧
    (e.ingest d payload nowMs).bootId = d.header.describedBootId ∧
    (e.ingest d payload nowMs).configRevision = d.header.configRevision := by
  rw [Entry.ingest]
  split <;> exact ⟨rfl, rfl, rfl⟩

theorem Coherent.ingest (laws : ReaderLaws reader) (hinv : Inv t.cache) (h : Coherent t)
    (hstep : ConfirmsCurrent reader t (.ingestManifestData payload nowMs)) :
    Coherent (t.step reader writer (.ingestManifestData payload nowMs)) := by
  cases hok : (ingestManifestData reader t.cache payload nowMs).2 with
  | false =>
    have hstep : t.step reader writer (.ingestManifestData payload nowMs) =
        { t with cache := { t.cache with ingestFail := t.cache.ingestFail + 1 } } := by
      rw [Trace.step, sentBy, hok, step, ingest_refused hok]
      rfl
    rw [hstep]
    exact h
  | true =>
    obtain ⟨d, hd, hg⟩ := ingest_accepted hok
    have hstep' : t.step reader writer (.ingestManifestData payload nowMs) =
        { cache := { store t.cache d payload nowMs with
            ingestOk := (store t.cache d payload nowMs).ingestOk + 1 }
          sent := if d.notModified then t.sent else d.sent payload :: t.sent } := by
      rw [Trace.step, sentBy, hok, step, hg, hd.read, if_pos rfl, Option.filter_some]
      cases d.notModified <;> rfl
    have hkey := store_key_iff hinv d payload nowMs
    rw [hstep']
    intro i hused
    show ((store t.cache d payload nowMs).entries i).Coherent _
    by_cases hi : i = findOrAllocateEntry t.cache d.header.describedSourceId
    · obtain ⟨hsource, hboot, hrevision⟩ := ingest_revision (t.cache.entries i) d payload nowMs
      rw [store_entry_self hi, Entry.Coherent, hsource, hboot, hrevision]
      cases hnot : d.notModified with
      | false =>
        rw [content_ingest_full laws hd.valid hnot]
        exact lastSent_cons_self
      | true =>
        -- the slot is the robot's own, under the boot and revision confirmed
        obtain ⟨k, hk⟩ := Option.ne_none_iff_exists'.1 (hd.known hnot)
        rw [findOrAllocateEntry_of_some hk] at hi
        subst hi
        obtain ⟨hb, hr⟩ := hstep d hd.read hnot i (entrySlot_key hk)
        obtain ⟨hiused, his⟩ := Entry.key_eq_some.1 (entrySlot_key hk)
        rw [content_ingest_notModified hd.valid hnot, ← hb, ← hr, ← his]
        exact h i hiused
    · have hentry : (store t.cache d payload nowMs).entries i = t.cache.entries i :=
        store_entry_of_ne hi
      have hold : (t.cache.entries i).used = true := by
        rw [← hentry]
        exact hused
      have hother : d.header.describedSourceId ≠ (t.cache.entries i).sourceId := by
        intro heq
        refine hi ((hkey i).1 ?_)
        rw [hentry, Entry.key_eq_some]
        exact ⟨hold, heq.symm⟩
      have hcoherent := h i hold
      rw [hentry]
      split
      · exact hcoherent
      · rw [Entry.Coherent, lastSent_cons_of_ne hother]
        exact hcoherent

end ingest

theorem Coherent.of_entries {op : Op} (h : Coherent t) (hsent : sentBy reader t.cache op = none)
    (hentries : (step reader writer t.cache op).entries = t.cache.entries) :
    Coherent (t.step reader writer op) := by
  intro i hused
  rw [Trace.step, hsent, Option.toList_none, List.nil_append]
  rw [Trace.step] at hused
  dsimp only at hused ⊢
  rw [hentries] at hused ⊢
  exact h i hused

theorem Coherent.step (laws : ReaderLaws reader) (hinv : Inv t.cache) (h : Coherent t) {op : Op}
    (hstep : ConfirmsCurrent reader t op) : Coherent (t.step reader writer op) := by
  cases op with
  | ingestManifestData payload nowMs => exact h.ingest laws hinv hstep
  | configure selfUuid selfSourceInfo => exact h.of_entries rfl rfl
  | shouldRequestManifest sourceId bootId nowMs =>
    exact h.of_entries rfl (shouldRequestManifest_entries ..)
  | buildTargetedResponse self request requestHeader outputCapacity => exact h.of_entries rfl rfl
  | notePrimeSent => exact h.of_entries rfl rfl
  | noteConsumeRejected => exact h.of_entries rfl rfl

/-! ## The whole run -/

/-- In a run whose every NOT_MODIFIED confirms the boot and revision its robot is
cached under, cached content is always what was last sent under them. -/
theorem content_coherent (laws : ReaderLaws reader) (writer : ManifestWriter) (ops : List Op)
    (h : Run.AllSteps (Trace.step reader writer) (ConfirmsCurrent reader) {} ops) :
    Run.Throughout (Trace.step reader writer) (fun t => Coherent t ∧ ServesCoherent t) {} ops := by
  have hrun : Run.Throughout (Trace.step reader writer) (fun t => Inv t.cache ∧ Coherent t) {}
      ops := by
    refine Run.Throughout.of_allSteps (fun t op ht hstep => ?_) ⟨inv_init, fun i hi => ?_⟩ h
    · exact ⟨ht.1.step op, ht.2.step laws ht.1 hstep⟩
    · cases hi
  exact hrun.imp fun t ht => ⟨ht.2, ht.2.serves⟩

/-- A full answer, confirmed under the same boot and revision. -/
theorem content_coherent_confirmed :
    Run.Throughout (Trace.step Layout.reader Layout.writer) (fun t => Coherent t ∧ ServesCoherent t)
      {} [.ingestManifestData (Layout.robotAnswer 9 1 5 2 "robot" [[2, 0, 0, 0, 1, 2]]) 100,
        .ingestManifestData (Layout.robotAnswer 9 1 5 3 "robot" []) 200] :=
  content_coherent Layout.reader_laws Layout.writer _ (by decide)

/-- A robot that rebooted into another revision and answers NOT_MODIFIED relabels
what it sent before. -/
theorem relabelled :
    ¬∀ ops, Run.Throughout (Trace.step Layout.reader Layout.writer) Coherent {} ops := by
  intro h
  have hfinal := (h [.ingestManifestData (Layout.robotAnswer 9 1 5 2 "robot" [[2, 0, 0, 0, 1, 2]]) 100,
    .ingestManifestData (Layout.robotAnswer 9 2 6 3 "robot" []) 200]).final 0 (by decide)
  exact absurd hfinal (by decide)

end BallyDongle.ManifestCache
