import BallyDongle.Lib.Run
import BallyDongle.Lib.SortedListing
import BallyDongle.ManifestCache.Catalog
import BallyDongle.SerialMux.Handlers

/-!
# One catalog, one index at a time

The loop of `handleManifestRequest` reads the count once and then counts and
sorts the cache anew for every index, while the radio task may ingest between
two indices. An ingest keeps the loop in step when it caches no new robot, or
puts one in the place of another on the same side of the last one listed
(`Steady`); the answers are then one catalog (`enumeration_consistent`).
-/

namespace BallyDongle.SerialMux

open Btp ManifestCache SortedListing

/-- The loop over the catalog, between two indices. `listed` records the ids of
the robots listed so far; no function reads it. -/
structure Enumeration where
  cache : Cache
  total : Nat
  index : Nat := 0
  built : List Bytes := []
  listed : List UInt32 := []

def Enumeration.start (cache : Cache) : Enumeration :=
  { cache, total := enumerationCount cache }

/-- The robot an index of the catalog stands for. -/
def robotAt (g : Cache) : (index : Nat) → Option UInt32
  | 0 => none
  | k + 1 => (ids g)[k]?

/-- What happens next: the radio task ingests, or the loop goes on. -/
inductive Turn
  | ingest (payload : Bytes) (nowMs : UInt32)
  | next

section loop

variable (reader : ManifestReader) (writer : ManifestWriter) (dongle : ManifestCache.Identity)
  (requestHeader : Header)

def Enumeration.next (e : Enumeration) : Enumeration :=
  if e.total ≤ e.index then e
  else
    { e with
      index := e.index + 1
      built := e.built ++ (buildEnumerationResponse writer dongle e.cache e.index requestHeader
        kOutboundPayloadCap).toList
      listed := e.listed ++ (robotAt e.cache e.index).toList }

def Enumeration.step (e : Enumeration) : Turn → Enumeration
  | .ingest payload nowMs =>
    { e with cache := (ingestManifestData reader e.cache payload nowMs).1 }
  | .next => e.next writer dongle requestHeader

/-- An ingest in the middle of the loop that leaves the rest of the catalog where it
is: a robot it adds is not the dongle, finds the table full and takes the place of
one on its own side of the last one listed. -/
def Steady (e : Enumeration) : Turn → Prop
  | .next => True
  | .ingest payload _ =>
    e.index < e.total → ∀ d ∈ readDescriptor reader payload, d.notModified = false →
      entrySlot e.cache d.header.describedSourceId = none →
      d.header.describedSourceId ≠ dongle.sourceId ∧ (∀ i, (e.cache.entries i).used = true) ∧
        ∀ last ∈ e.listed.getLast?,
          (e.cache.entries (findOrAllocateEntry e.cache d.header.describedSourceId)).sourceId ≤
            last ↔ d.header.describedSourceId ≤ last

instance (e : Enumeration) : ∀ turn, Decidable (Steady reader dongle e turn)
  | .next => .isTrue trivial
  | .ingest payload _ =>
    inferInstanceAs (Decidable (e.index < e.total → ∀ d ∈ readDescriptor reader payload,
      d.notModified = false → entrySlot e.cache d.header.describedSourceId = none →
      d.header.describedSourceId ≠ dongle.sourceId ∧ (∀ i, (e.cache.entries i).used = true) ∧
        ∀ last ∈ e.listed.getLast?,
          (e.cache.entries (findOrAllocateEntry e.cache d.header.describedSourceId)).sourceId ≤
            last ↔ d.header.describedSourceId ≤ last))

end loop

/-- The heads of the answers are one catalog: all of one count, in the order of
their indices, the dongle first and then the robots by id, none twice and none of
`kept` left out, and the last one says that it is. -/
structure OneCatalog (dongle : ManifestCache.Identity) (kept : UInt32 → Prop) (heads : List ManifestHeader) :
    Prop where
  count : ∀ head ∈ heads, head.catalogCount.toNat = heads.length
  index : heads.map (·.catalogIndex.toNat) = List.range heads.length
  first : (heads.map (·.describedSourceId)).head? = some dongle.sourceId
  nodup : (heads.map (·.describedSourceId)).Nodup
  sorted : (heads.map (·.describedSourceId)).tail.Pairwise (· < ·)
  whole : ∀ s, kept s → s ∈ heads.map (·.describedSourceId)
  complete : ∀ i head, heads[i]? = some head →
    (head.flags &&& kFlagCatalogComplete ≠ 0 ↔ i + 1 = heads.length)

/-! ## The invariant -/

/-- The loop in step with the cache. -/
structure Current (reader : ManifestReader) (dongle : ManifestCache.Identity) (e : Enumeration) : Prop where
  total_pos : 0 < e.total
  inv : Inv e.cache
  served : Served reader e.cache
  own : OwnBlock reader e.cache
  index_le : e.index ≤ e.total
  listed_length : e.listed.length = e.index - 1
  sorted : e.listed.Pairwise (· < ·)
  foreign : dongle.sourceId ∉ e.listed
  /-- while indices are left -/
  size : e.index < e.total → enumerationCount e.cache = e.total
  absent : e.index < e.total → dongle.sourceId ∉ ids e.cache
  listing : e.index < e.total → Listing (ids e.cache) e.listed

/-- The answers built so far, by their heads. -/
structure Answered (reader : ManifestReader) (dongle : ManifestCache.Identity) (e : Enumeration)
    (heads : List ManifestHeader) : Prop where
  read : e.built.map reader.header = heads.map .ok
  length : heads.length = e.index
  sources : e.index ≠ 0 → heads.map (·.describedSourceId) = dongle.sourceId :: e.listed
  places : ∀ i head, heads[i]? = some head → head.catalogIndex.toNat = i ∧
    head.catalogCount.toNat = e.total ∧
      (head.flags &&& kFlagCatalogComplete ≠ 0 ↔ i + 1 = e.total)

/-- A robot cached all along is listed or will be. -/
def Kept (s : UInt32) (e : Enumeration) : Prop :=
  s ∈ e.listed ∨ e.index < e.total ∧ Awaited s (ids e.cache) e.listed

variable {reader : ManifestReader} {writer : ManifestWriter} {dongle : ManifestCache.Identity}
  {requestHeader : Header} {e : Enumeration}

/-! ### Ingest -/

theorem countP_ids_store {g : Cache} {d : Descriptor} {payload : Bytes} {nowMs : UInt32}
    {p : UInt32 → Bool}
    (h : p d.header.describedSourceId =
      (g.entries (findOrAllocateEntry g d.header.describedSourceId)).key.any p) :
    (ids (store g d payload nowMs)).countP p = (ids g).countP p := by
  rw [(ids_perm _).countP_eq, (ids_perm g).countP_eq, store_entries]
  refine SlotTable.countP_keys_update p ?_
  rw [ingest_key, Option.any_some, h]

/-- What a new robot replaces in a full table. -/
theorem evicted_key {g : Cache} (hfull : ∀ i, (g.entries i).used = true) (s : UInt32) :
    (g.entries (findOrAllocateEntry g s)).key =
      some (g.entries (findOrAllocateEntry g s)).sourceId :=
  Entry.key_eq_some.2 ⟨hfull _, rfl⟩

/-- An ingest leaves as many robots up to any bound that it does not move one across. -/
theorem countP_ids_ingest {g : Cache} {payload : Bytes} {nowMs : UInt32} {p : UInt32 → Bool}
    (hp : ∀ d ∈ readDescriptor reader payload, d.notModified = false →
      entrySlot g d.header.describedSourceId = none →
        (∀ i, (g.entries i).used = true) ∧ p d.header.describedSourceId =
          p (g.entries (findOrAllocateEntry g d.header.describedSourceId)).sourceId) :
    (ids (ingestManifestData reader g payload nowMs).1).countP p = (ids g).countP p := by
  cases hok : (ingestManifestData reader g payload nowMs).2 with
  | false =>
    rw [ingest_refused hok]
    rfl
  | true =>
    obtain ⟨d, hd, hg⟩ := ingest_accepted hok
    rw [hg]
    show (ids (store g d payload nowMs)).countP p = _
    refine countP_ids_store ?_
    cases hslot : entrySlot g d.header.describedSourceId with
    | some i => rw [findOrAllocateEntry_of_some hslot, entrySlot_key hslot, Option.any_some]
    | none =>
      obtain ⟨hfull, hsame⟩ := hp d hd.read (hd.full_of_new hslot) hslot
      rw [evicted_key hfull, Option.any_some, hsame]

theorem mem_ids_ingest {g : Cache} {payload : Bytes} {nowMs : UInt32} {s : UInt32}
    (hs : s ∈ ids (ingestManifestData reader g payload nowMs).1) :
    s ∈ ids g ∨ ∃ d ∈ readDescriptor reader payload, d.notModified = false ∧
      entrySlot g d.header.describedSourceId = none ∧ s = d.header.describedSourceId := by
  cases hok : (ingestManifestData reader g payload nowMs).2 with
  | false =>
    rw [ingest_refused hok] at hs
    exact .inl hs
  | true =>
    obtain ⟨d, hd, hg⟩ := ingest_accepted hok
    rw [hg] at hs
    obtain ⟨i, hi⟩ := mem_ids.1 hs
    have hi : ((store g d payload nowMs).entries i).key = some s := hi
    by_cases hslot : i = findOrAllocateEntry g d.header.describedSourceId
    · rw [store_entry_self hslot, ingest_key] at hi
      cases hi
      cases hknown : entrySlot g d.header.describedSourceId with
      | some k => exact .inl (mem_ids.2 ⟨k, entrySlot_key hknown⟩)
      | none => exact .inr ⟨d, hd.read, hd.full_of_new hknown, hknown, rfl⟩
    · rw [store_entry_of_ne hslot] at hi
      exact .inl (mem_ids.2 ⟨i, hi⟩)

theorem length_eq_countP (l : List UInt32) : l.countP (fun _ => true) = l.length := by
  simp

theorem Current.ingest (laws : ReaderLaws reader) (h : Current reader dongle e) {payload : Bytes}
    {nowMs : UInt32} (hsteady : Steady reader dongle e (.ingest payload nowMs)) :
    Current reader dongle (e.step reader writer dongle requestHeader (.ingest payload nowMs)) where
  total_pos := h.total_pos
  inv := h.inv.ingest payload nowMs
  served := h.served.ingest laws payload nowMs
  own := h.own.of_eq (ingest_selfSourceInfo ..)
  index_le := h.index_le
  listed_length := h.listed_length
  sorted := h.sorted
  foreign := h.foreign
  size hlt := by
    have hlength : (ids (ingestManifestData reader e.cache payload nowMs).1).length =
        (ids e.cache).length := by
      rw [← length_eq_countP, ← length_eq_countP]
      exact countP_ids_ingest fun d hd hfull hnew => ⟨(hsteady hlt d hd hfull hnew).2.1, rfl⟩
    show enumerationCount (ingestManifestData reader e.cache payload nowMs).1 = e.total
    rw [length_ids, hlength, ← length_ids, h.size hlt]
  absent hlt hmem := by
    rcases mem_ids_ingest hmem with hmem | ⟨d, hd, hfull, hnew, hself⟩
    · exact h.absent hlt hmem
    · exact (hsteady hlt d hd hfull hnew).1 hself.symm
  listing hlt := by
    refine (h.listing hlt).change fun last hlast => countP_ids_ingest fun d hd hfull hnew => ?_
    obtain ⟨-, hused, hside⟩ := hsteady hlt d hd hfull hnew
    exact ⟨hused, decide_eq_decide.2 (hside last hlast).symm⟩

theorem Kept.ingest {s : UInt32} (h : Kept s e) {payload : Bytes} {nowMs : UInt32}
    (hs : s ∈ ids (ingestManifestData reader e.cache payload nowMs).1) :
    Kept s (e.step reader writer dongle requestHeader (.ingest payload nowMs)) :=
  h.imp_right fun ⟨hlt, hawaited⟩ => ⟨hlt, hawaited.change hs⟩

/-! ### The next index -/

theorem next_eq (hlt : e.index < e.total) :
    e.step reader writer dongle requestHeader .next =
      { e with
        index := e.index + 1
        built := e.built ++ (buildEnumerationResponse writer dongle e.cache e.index requestHeader
          kOutboundPayloadCap).toList
        listed := e.listed ++ (robotAt e.cache e.index).toList } :=
  if_neg (Nat.not_le.2 hlt)

theorem next_done (hge : e.total ≤ e.index) :
    e.step reader writer dongle requestHeader .next = e := if_pos hge

/-- An index is the dongle's, or that of the robot next behind those listed. -/
theorem Current.robotAt (h : Current reader dongle e) (hlt : e.index < e.total) :
    (e.index = 0 ∧ e.listed = [] ∧ robotAt e.cache e.index = none) ∨
    ∃ x, e.index = e.listed.length + 1 ∧ robotAt e.cache e.index = some x ∧
      (ids e.cache)[e.listed.length]? = some x := by
  have hlen := h.listed_length
  rcases Nat.eq_zero_or_pos e.index with h0 | hpos
  · exact .inl ⟨h0, List.length_eq_zero_iff.1 (by omega), by rw [h0]; rfl⟩
  · right
    have hsize := h.size hlt
    rw [length_ids] at hsize
    have hindex : e.index = e.listed.length + 1 := by omega
    have hrobot : (ids e.cache)[e.listed.length]? = some (ids e.cache)[e.listed.length] :=
      List.getElem?_eq_getElem (by omega)
    refine ⟨_, hindex, ?_, hrobot⟩
    rw [hindex]
    exact hrobot

theorem Current.next (h : Current reader dongle e) :
    Current reader dongle (e.step reader writer dongle requestHeader .next) := by
  rcases Nat.lt_or_ge e.index e.total with hlt | hge
  · rw [next_eq hlt]
    have hsorted := ids_sorted h.inv.entries
    have habsent := h.absent hlt
    have hlen := h.listed_length
    have hlisting := h.listing hlt
    rcases h.robotAt hlt with ⟨h0, hnil, hrobot⟩ | ⟨x, hindex, hrobot, hx⟩
    · rw [hrobot, Option.toList_none, List.append_nil]
      exact
        { total_pos := h.total_pos, inv := h.inv, served := h.served, own := h.own, index_le := hlt
          listed_length := by rw [hnil, h0]; rfl
          sorted := h.sorted, foreign := h.foreign, size := fun _ => h.size hlt
          absent := fun _ => habsent, listing := fun _ => hlisting }
    · rw [hrobot, Option.toList_some]
      have hnext := hlisting.next hsorted hx
      exact
        { total_pos := h.total_pos, inv := h.inv, served := h.served, own := h.own, index_le := hlt
          listed_length := by
            rw [List.length_append, List.length_singleton, hindex]
            rfl
          sorted := hnext.sorted
          foreign := by
            rw [List.mem_append, List.mem_singleton, not_or]
            exact ⟨h.foreign, fun heq => habsent (heq ▸ List.mem_of_getElem? hx)⟩
          size := fun _ => h.size hlt, absent := fun _ => habsent, listing := fun _ => hnext }
  · rwa [next_done hge]

theorem Kept.next {s : UInt32} (hstep : Current reader dongle e) (h : Kept s e) :
    Kept s (e.step reader writer dongle requestHeader .next) := by
  rcases Nat.lt_or_ge e.index e.total with hlt | hge
  · rw [next_eq hlt]
    have hsorted := ids_sorted hstep.inv.entries
    have hlisting := hstep.listing hlt
    have hsize := hstep.size hlt
    have hlen := hstep.listed_length
    rw [length_ids] at hsize
    have hawaited : Awaited s (ids e.cache) e.listed := by
      rcases h with h | ⟨-, h⟩
      · exact .inl h
      · exact h
    rcases hstep.robotAt hlt with ⟨h0, hnil, hrobot⟩ | ⟨x, hindex, hrobot, hx⟩
    · rw [hrobot, Option.toList_none, List.append_nil]
      rcases Nat.lt_or_ge 1 e.total with hmore | hdone
      · exact .inr ⟨by show e.index + 1 < e.total; omega, hawaited⟩
      · exact .inl (hawaited.done hlisting hsorted (by omega))
    · rw [hrobot, Option.toList_some]
      have hnext := hawaited.next hlisting hsorted hx
      rcases Nat.lt_or_ge (e.index + 1) e.total with hmore | hdone
      · exact .inr ⟨hmore, hnext⟩
      · refine .inl (hnext.done (hlisting.next hsorted hx) hsorted ?_)
        rw [List.length_append, List.length_singleton]
        omega
  · rwa [next_done hge]

theorem Answered.next (wlaws : WriterLaws reader writer) (hstep : Current reader dongle e)
    {heads : List ManifestHeader} (h : Answered reader dongle e heads) :
    ∃ heads', Answered reader dongle (e.step reader writer dongle requestHeader .next) heads' := by
  rcases Nat.lt_or_ge e.index e.total with hlt | hge
  · rw [next_eq hlt]
    have hsize := hstep.size hlt
    obtain ⟨out, head, hout, hread, hplaces⟩ :=
      enumeration_answer wlaws hstep.served hstep.own dongle requestHeader
        (show e.index < enumerationCount e.cache by omega)
        (show kManifestHeadSize + kMaxNameLength + kMaxSourceInfoBytes ≤ kOutboundPayloadCap by
          decide)
    rw [hout, Option.toList_some]
    have hlen := h.length
    refine ⟨heads ++ [head], { read := ?_, length := ?_, sources := fun _ => ?_, places := ?_ }⟩
    · rw [List.map_append, List.map_append, h.read, List.map_singleton, List.map_singleton, hread]
    · rw [List.length_append, List.length_singleton, hlen]
    · rw [List.map_append, List.map_singleton]
      have hsource := hplaces.source
      rcases hstep.robotAt hlt with ⟨h0, hnil, hrobot⟩ | ⟨x, hindex, hrobot, hx⟩
      · rw [h0] at hlen hsource
        rw [List.length_eq_zero_iff.1 hlen, hrobot, hnil, ← Option.some.inj hsource]
        rfl
      · rw [hindex, List.getElem?_cons_succ, hx] at hsource
        rw [h.sources (by omega), hrobot, ← Option.some.inj hsource]
        rfl
    · intro i head' hi
      rcases Nat.lt_or_ge i heads.length with hlt' | hge'
      · rw [List.getElem?_append_left hlt'] at hi
        exact h.places i head' hi
      · rw [List.getElem?_append_right hge'] at hi
        obtain rfl : i = e.index := by
          have hone := (List.getElem?_eq_some_iff.1 hi).1
          rw [List.length_singleton] at hone
          omega
        rw [hlen, Nat.sub_self] at hi
        obtain rfl : head = head' := Option.some.inj hi
        exact ⟨hplaces.catalogIndex, hplaces.catalogCount.trans hsize,
          hsize ▸ hplaces.complete⟩
  · exact ⟨heads, by rwa [next_done hge]⟩

/-! ## The whole loop -/

/-- The answers read back as one catalog. -/
def Consistent (reader : ManifestReader) (dongle : ManifestCache.Identity) (kept : UInt32 → Prop)
    (built : List Bytes) : Prop :=
  ∃ heads, built.map reader.header = heads.map .ok ∧ OneCatalog dongle kept heads

theorem Answered.consistent {heads : List ManifestHeader} (h : Answered reader dongle e heads)
    (hstep : Current reader dongle e) (hdone : e.index = e.total) {kept : UInt32 → Prop}
    (hkept : ∀ s, kept s → Kept s e) : Consistent reader dongle kept e.built := by
  have hpos := hstep.total_pos
  have hsources := h.sources (by omega)
  have hlen : heads.length = e.total := h.length.trans hdone
  refine ⟨heads, h.read,
    { count := ?_, index := ?_, first := ?_, nodup := ?_, sorted := ?_, whole := ?_, complete := ?_ }⟩
  · intro head hhead
    obtain ⟨i, hi⟩ := List.mem_iff_getElem?.1 hhead
    rw [(h.places i head hi).2.1, hlen]
  · refine List.ext_getElem? fun i => ?_
    rw [List.getElem?_map]
    cases hi : heads[i]? with
    | none =>
      have hge := List.getElem?_eq_none_iff.1 hi
      rw [Option.map_none, List.getElem?_eq_none]
      rwa [List.length_range]
    | some head =>
      have hlt := (List.getElem?_eq_some_iff.1 hi).1
      rw [Option.map_some, (h.places i head hi).1, List.getElem?_range hlt]
  · rw [hsources]
    rfl
  · rw [hsources, List.nodup_cons]
    exact ⟨hstep.foreign, hstep.sorted.imp fun hlt heq => UInt32.ne_of_lt hlt heq⟩
  · rw [hsources]
    exact hstep.sorted
  · intro s hs
    rw [hsources]
    rcases hkept s hs with hlisted | ⟨hlt, -⟩
    · exact List.mem_cons_of_mem _ hlisted
    · omega
  · intro i head hi
    rw [(h.places i head hi).2.2, hlen]

theorem Current.start {g : Cache} (hinv : Inv g) (hserved : Served reader g)
    (hown : OwnBlock reader g) (habsent : dongle.sourceId ∉ ids g) :
    Current reader dongle (.start g) where
  total_pos := by
    show 0 < enumerationCount g
    rw [length_ids]
    omega
  inv := hinv
  served := hserved
  own := hown
  index_le := Nat.zero_le _
  listed_length := rfl
  sorted := .nil
  foreign := List.not_mem_nil
  size _ := rfl
  absent _ := habsent
  listing _ := .nil _

theorem Answered.start (g : Cache) : Answered reader dongle (.start g) [] where
  read := rfl
  length := rfl
  sources h := absurd rfl h
  places := nofun

theorem Current.step (laws : ReaderLaws reader) (wlaws : WriterLaws reader writer)
    (h : Current reader dongle e ∧ ∃ heads, Answered reader dongle e heads) {turn : Turn}
    (hsteady : Steady reader dongle e turn) :
    Current reader dongle (e.step reader writer dongle requestHeader turn) ∧
      ∃ heads, Answered reader dongle (e.step reader writer dongle requestHeader turn) heads := by
  obtain ⟨hstep, heads, hheads⟩ := h
  cases turn with
  | ingest payload nowMs => exact ⟨hstep.ingest laws hsteady, heads, hheads.read, hheads.length,
      hheads.sources, hheads.places⟩
  | next => exact ⟨hstep.next, hheads.next wlaws hstep⟩

/-- A catalog enumeration is one consistent catalog, whatever else is ingested in
the middle of it. -/
theorem enumeration_consistent (laws : ReaderLaws reader) (wlaws : WriterLaws reader writer)
    (ops : List Op) (hops : ∀ op ∈ ops, Configures reader op) (dongle : ManifestCache.Identity)
    (requestHeader : Header) (turns : List Turn)
    (habsent : dongle.sourceId ∉ ids (run reader writer ops))
    (hsteady : Run.AllSteps (Enumeration.step reader writer dongle requestHeader)
      (Steady reader dongle) (.start (run reader writer ops)) turns)
    (hdone : (turns.foldl (Enumeration.step reader writer dongle requestHeader)
        (.start (run reader writer ops))).index =
      (turns.foldl (Enumeration.step reader writer dongle requestHeader)
        (.start (run reader writer ops))).total) :
    Consistent reader dongle
      (fun s => Run.Throughout (Enumeration.step reader writer dongle requestHeader)
        (fun e => s ∈ ids e.cache) (.start (run reader writer ops)) turns)
      (turns.foldl (Enumeration.step reader writer dongle requestHeader)
        (.start (run reader writer ops))).built := by
  obtain ⟨hserved, hown⟩ :
      Served reader (run reader writer ops) ∧ OwnBlock reader (run reader writer ops) :=
    run_served laws hops
  have hstart : Current reader dongle (.start (run reader writer ops)) :=
    .start (run_inv ops) hserved hown habsent
  have hrun : Run.Throughout (Enumeration.step reader writer dongle requestHeader)
      (fun e => Current reader dongle e ∧ ∃ heads, Answered reader dongle e heads)
      (.start (run reader writer ops)) turns :=
    .of_allSteps (fun e turn h hturn => Current.step laws wlaws h hturn) ⟨hstart, [], .start _⟩ hsteady
  obtain ⟨hstep, heads, hheads⟩ := hrun.final
  refine hheads.consistent hstep hdone fun s hs => ?_
  refine (Run.AllSteps.final (I := fun e => Current reader dongle e ∧ Kept s e)
    (fun e turn h hturn hcached => ?_) ⟨hstart, ?_⟩ hsteady hs).2
  · cases turn with
    | ingest payload nowMs => exact ⟨h.1.ingest laws hturn, h.2.ingest hcached⟩
    | next => exact ⟨h.1.next, h.2.next h.1⟩
  · have hcached : s ∈ ids (run reader writer ops) := hs.start
    exact .inr ⟨hstart.total_pos, .start hcached⟩

/-! ## What holds of every loop -/

theorem step_served (laws : ReaderLaws reader)
    (h : Served reader e.cache ∧ OwnBlock reader e.cache) (turn : Turn) :
    Served reader (e.step reader writer dongle requestHeader turn).cache ∧
      OwnBlock reader (e.step reader writer dongle requestHeader turn).cache := by
  cases turn with
  | ingest payload nowMs =>
    exact ⟨h.1.ingest laws payload nowMs, h.2.of_eq (ingest_selfSourceInfo ..)⟩
  | next =>
    rcases Nat.lt_or_ge e.index e.total with hlt | hge
    · rwa [next_eq hlt]
    · rwa [next_done hge]

theorem foldl_served (laws : ReaderLaws reader)
    (h : Served reader e.cache ∧ OwnBlock reader e.cache) (turns : List Turn) :
    Served reader (turns.foldl (Enumeration.step reader writer dongle requestHeader) e).cache ∧
      OwnBlock reader
        (turns.foldl (Enumeration.step reader writer dongle requestHeader) e).cache := by
  induction turns generalizing e with
  | nil => exact h
  | cons turn turns ih => exact ih (step_served laws h turn)

/-- The last of consistent answers counts them. -/
theorem Consistent.last_count (wlaws : WriterLaws reader writer)
    (hserved : Served reader e.cache ∧ OwnBlock reader e.cache) (hlt : e.index < e.total)
    (hin : e.index < enumerationCount e.cache) {kept : UInt32 → Prop}
    (h : Consistent reader dongle kept
      (e.step reader writer dongle requestHeader .next).built) :
    enumerationCount e.cache = e.built.length + 1 := by
  obtain ⟨out, head, hout, hread, hplaces⟩ :=
    enumeration_answer wlaws hserved.1 hserved.2 dongle requestHeader hin
      (show kManifestHeadSize + kMaxNameLength + kMaxSourceInfoBytes ≤ kOutboundPayloadCap by
        decide)
  rw [next_eq hlt, hout, Option.toList_some] at h
  obtain ⟨heads, hheads, hcatalog⟩ := h
  have hlen : heads.length = e.built.length + 1 := by
    have hlen := congrArg List.length hheads
    rw [List.length_map, List.length_map, List.length_append, List.length_singleton] at hlen
    exact hlen.symm
  have hmem : (.ok head : Except MessageError ManifestHeader) ∈ heads.map .ok := by
    rw [← hheads, ← hread]
    exact List.mem_map_of_mem (List.mem_append_right _ (List.mem_singleton.2 rfl))
  obtain ⟨head', hhead', heq⟩ := List.mem_map.1 hmem
  cases heq
  rw [← hplaces.catalogCount, hcatalog.count head hhead', hlen]

theorem length_built_le (h : e.built.length ≤ e.index) (turns : List Turn) :
    (turns.foldl (Enumeration.step reader writer dongle requestHeader) e).built.length ≤
      (turns.foldl (Enumeration.step reader writer dongle requestHeader) e).index := by
  induction turns generalizing e with
  | nil => exact h
  | cons turn turns ih =>
    refine ih ?_
    cases turn with
    | ingest payload nowMs => exact h
    | next =>
      rcases Nat.lt_or_ge e.index e.total with hlt | hge
      · rw [next_eq hlt]
        have hone : (buildEnumerationResponse writer dongle e.cache e.index requestHeader
          kOutboundPayloadCap).toList.length ≤ 1 := Option.length_toList_le
        dsimp only
        rw [List.length_append]
        omega
      · rwa [next_done hge]

section bench

/-- Robots 5 and 9, cached. -/
def twoRobots : List Op :=
  [.ingestManifestData (Layout.robotAnswer 5 1 1 2 "five" []) 100,
    .ingestManifestData (Layout.robotAnswer 9 1 1 2 "nine" []) 200]

def catalogRequest : Header :=
  { type := .control, sourceId := 3, bootId := 1, sequence := 1, objectId := 3 }

/-- A loop over the two robots, on a dongle of id 7. -/
def twoRobotsLoop (turns : List Turn) : Enumeration :=
  turns.foldl (Enumeration.step Layout.reader Layout.writer ⟨7, 1⟩ catalogRequest)
    (.start (run Layout.reader Layout.writer twoRobots))

/-- The robots cached in every state of that loop. -/
def cachedThroughout (turns : List Turn) (s : UInt32) : Prop :=
  Run.Throughout (Enumeration.step Layout.reader Layout.writer ⟨7, 1⟩ catalogRequest)
    (fun e => s ∈ ids e.cache) (.start (run Layout.reader Layout.writer twoRobots)) turns

theorem twoRobots_configures : ∀ op ∈ twoRobots, Configures Layout.reader op := by
  simp [twoRobots, Configures]

/-- A robot that answers again in the middle of the loop. -/
theorem enumeration_consistent_again :
    Consistent Layout.reader ⟨7, 1⟩
      (cachedThroughout
        [.next, .next, .ingest (Layout.robotAnswer 9 2 4 2 "nine" []) 300, .next])
      (twoRobotsLoop
        [.next, .next, .ingest (Layout.robotAnswer 9 2 4 2 "nine" []) 300, .next]).built :=
  enumeration_consistent Layout.reader_laws Layout.writer_laws twoRobots twoRobots_configures
    ⟨7, 1⟩ catalogRequest
    [.next, .next, .ingest (Layout.robotAnswer 9 2 4 2 "nine" []) 300, .next]
    (by decide) (by decide) (by decide)

/-- A robot cached for the first time between two indices shifts the rest: robot 5
is listed twice, robot 9 never, and the last answer counts one more. -/
theorem shifted_catalog :
    ¬∀ turns, (twoRobotsLoop turns).index = (twoRobotsLoop turns).total →
      Consistent Layout.reader ⟨7, 1⟩ (cachedThroughout turns) (twoRobotsLoop turns).built := by
  intro h
  have hconsistent := h
    [.next, .next, .ingest (Layout.robotAnswer 3 1 1 2 "three" []) 300, .next] (by decide)
  -- before the last index
  have hserved : Served Layout.reader
        (twoRobotsLoop [.next, .next, .ingest (Layout.robotAnswer 3 1 1 2 "three" []) 300]).cache ∧
      OwnBlock Layout.reader
        (twoRobotsLoop [.next, .next, .ingest (Layout.robotAnswer 3 1 1 2 "three" []) 300]).cache :=
    foldl_served Layout.reader_laws (run_served Layout.reader_laws twoRobots_configures) _
  have hcount := Consistent.last_count Layout.writer_laws hserved (by decide) (by decide)
    hconsistent
  have hle : (twoRobotsLoop
      [.next, .next, .ingest (Layout.robotAnswer 3 1 1 2 "three" []) 300]).built.length ≤ 2 :=
    length_built_le (e := .start (run Layout.reader Layout.writer twoRobots)) (Nat.le_refl 0) _
  have hfour : enumerationCount (twoRobotsLoop
      [.next, .next, .ingest (Layout.robotAnswer 3 1 1 2 "three" []) 300]).cache = 4 := by
    decide
  omega

end bench

end BallyDongle.SerialMux
