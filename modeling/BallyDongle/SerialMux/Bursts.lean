import Mathlib.Algebra.Order.BigOperators.Group.List
import Mathlib.Algebra.Order.Ring.Nat
import BallyDongle.SerialMux.Enumeration
import BallyDongle.SerialMux.Tick

/-!
# Bursts into one queue

Two paths put as many frames into a queue in one call as their input asks for: a
catalog enumeration queues one answer for each source, a terminal text one frame
for each piece of it. The queue holds `kQueueDepth` of them, and neither path
looks at what `enqueueOwn` returns.
-/

namespace BallyDongle.SerialMux

open Btp SerialSession

/-- The header of a message sent in one frame, as the encoder accepts it. -/
structure WholeHeader (header : Header) : Prop where
  type : header.type ≠ .invalid
  flags : header.flags = {}
  sourceId : header.sourceId ≠ 0
  bootId : header.bootId ≠ 0
  fragmentIndex : header.fragmentIndex = 0
  fragmentCount : header.fragmentCount = 1

/-- What the frames of the dongle's own rely on: a boot id that is drawn and an
encoder that takes whole messages within its buffer. -/
structure OwnFrameLaws (P : Platform) : Prop where
  bootId : P.bootId ≠ 0
  encodes : ∀ header : Header, WholeHeader header → ∀ payload : Bytes,
    payload.length ≤ kOutboundPayloadCap →
      ∃ frame, P.codec.encode .serial { header, payload } kMaxFrameBytes = some frame ∧
        frame.length ≤ kMaxFrameBytes

/-- The session has a sequence number for each of `count` frames. -/
def Numbered {N : NodeApi} (node : N.Node) (count : Nat) : Prop :=
  ∀ taken < count, (N.reserveSequence ((fun n => (N.reserveSequence n).1)^[taken] node)).2.isSome

/-- A frame of the dongle's own that carries this payload. -/
def OwnFrame (P : Platform) (type : MessageType) (objectId : UInt16) (payload frame : Bytes) :
    Prop :=
  ∃ header : Header, header.type = type ∧ header.objectId = objectId ∧
    header.sourceId = P.sourceId ∧ header.bootId = P.bootId ∧
    P.codec.encode .serial { header, payload } kMaxFrameBytes = some frame

variable {P : Platform} {m : Mux P} {type : MessageType} {objectId : UInt16}

theorem Numbered.head {N : NodeApi} {node : N.Node} {count : Nat} (h : Numbered node (count + 1)) :
    (N.reserveSequence node).2.isSome := h 0 (Nat.succ_pos _)

theorem Numbered.tail {N : NodeApi} {node : N.Node} {count : Nat} (h : Numbered node (count + 1)) :
    Numbered (N.reserveSequence node).1 count := fun taken ht => h (taken + 1) (by omega)

/-! ## One call after another -/

theorem enqueueOwn_egress (laws : OwnFrameLaws P) (htype : type ≠ .invalid) {payload : Bytes}
    (hlen : payload.length ≤ kOutboundPayloadCap)
    (hnumber : (P.node.reserveSequence m.session.node).2.isSome) :
    ∃ frame, OwnFrame P type objectId payload frame ∧ frame.length ≤ kMaxFrameBytes ∧
      (m.enqueueOwn type objectId payload).1.egress =
        (enqueueFrameBytes m.egress (classify type objectId) frame).1 ∧
      (m.enqueueOwn type objectId payload).1.session.node =
        (P.node.reserveSequence m.session.node).1 := by
  obtain ⟨sequence, hsequence⟩ := Option.isSome_iff_exists.1 hnumber
  have hmillis : ∀ session, Mux.millis { m with session } = m.millis := fun _ => rfl
  obtain ⟨frame, hencode, hframe⟩ := laws.encodes
    { type, sourceId := P.sourceId, bootId := P.bootId, sequence
      timestampUs := m.millis.toUInt64 * 1000, objectId }
    ⟨htype, rfl, P.sourceId.2, laws.bootId, rfl, rfl⟩ payload hlen
  refine ⟨frame, ⟨_, rfl, rfl, rfl, rfl, hencode⟩, hframe, ?_⟩
  simp only [Mux.enqueueOwn, Mux.encodeOwnFrame, hsequence, ne_eq, not_true_eq_false, if_false,
    hmillis, hencode]
  exact ⟨rfl, rfl⟩

theorem enqueueOwn_shared (m : Mux P) (type : MessageType) (objectId : UInt16) (payload : Bytes)
    (stamp : UInt32) : (m.enqueueOwn type objectId payload stamp).1.shared = m.shared := by
  have h : (m.encodeOwnFrame type objectId payload kMaxFrameBytes stamp).1.shared = m.shared := by
    unfold Mux.encodeOwnFrame
    dsimp only
    split <;> rfl
  unfold Mux.enqueueOwn
  split
  all_goals
    rename_i heq
    rw [heq] at h
    exact h

theorem foldl_enqueueOwn (laws : OwnFrameLaws P) (htype : type ≠ .invalid) {payloads : List Bytes}
    (hlen : ∀ payload ∈ payloads, payload.length ≤ kOutboundPayloadCap)
    (hnumbers : Numbered m.session.node payloads.length) :
    ∃ frames, List.Forall₂ (OwnFrame P type objectId) payloads frames ∧
      (∀ frame ∈ frames, frame.length ≤ kMaxFrameBytes) ∧
      (payloads.foldl (fun m payload => (m.enqueueOwn type objectId payload).1) m).egress =
        frames.foldl (fun e frame => (enqueueFrameBytes e (classify type objectId) frame).1)
          m.egress := by
  induction payloads generalizing m with
  | nil => exact ⟨[], .nil, nofun, rfl⟩
  | cons payload payloads ih =>
    obtain ⟨frame, hown, hframe, hegress, hnode⟩ := (@enqueueOwn_egress _ _ _ objectId laws)
      htype (hlen payload List.mem_cons_self) hnumbers.head
    have hrest : Numbered (m.enqueueOwn type objectId payload).1.session.node payloads.length := by
      rw [hnode]
      exact hnumbers.tail
    obtain ⟨frames, hall, hframes, hfold⟩ :=
      ih (fun p hp => hlen p (List.mem_cons_of_mem _ hp)) hrest
    refine ⟨frame :: frames, .cons hown hall, List.forall_mem_cons.2 ⟨hframe, hframes⟩, ?_⟩
    rw [List.foldl_cons, hfold, hegress, List.foldl_cons]

/-- What an empty queue of the depth's class holds after the calls: the first of
their frames, or the last ones where the class evicts. -/
theorem frames_foldl_enqueueOwn (laws : OwnFrameLaws P) (htype : type ≠ .invalid)
    (hcap : kClassFrameCap (classify type objectId) = kMaxFrameBytes) {payloads : List Bytes}
    (hlen : ∀ payload ∈ payloads, payload.length ≤ kOutboundPayloadCap)
    (hnumbers : Numbered m.session.node payloads.length)
    (hempty : m.egress.queues.frames (classify type objectId) = []) :
    ∃ frames, List.Forall₂ (OwnFrame P type objectId) payloads frames ∧
      (payloads.foldl (fun m payload => (m.enqueueOwn type objectId payload).1)
          m).egress.queues.frames (classify type objectId) =
        if evicts (classify type objectId) then
          frames.drop (frames.length - kQueueDepth (classify type objectId))
        else frames.take (kQueueDepth (classify type objectId)) := by
  obtain ⟨frames, hall, hframes, hegress⟩ :=
    (@foldl_enqueueOwn _ _ _ objectId laws) htype hlen hnumbers
  refine ⟨frames, hall, ?_⟩
  rw [hegress, frames_foldl_enqueue (fun frame hframe => ?_) hempty]
  rw [hcap]
  exact hframes frame hframe

/-- A queue never holds more frames than its depth. -/
theorem length_frames_le (queues : Queues) (cls : PriorityClass) :
    (queues.frames cls).length ≤ kQueueDepth cls := by
  rw [Queues.frames, List.length_map]
  exact (queues cls).length_le

/-! ## Terminal text -/

/-- The frames carry this text, in order and in pieces that fit. -/
def CarryText (P : Platform) (text : Bytes) (frames : List Bytes) : Prop :=
  ∃ payloads, List.Forall₂ (OwnFrame P .terminal kTerminalOutObjectId) payloads frames ∧
    payloads.flatten = text ∧ ∀ payload ∈ payloads, payload.length ≤ kOutboundPayloadCap

theorem chunks_flatten (text : Bytes) : (Mux.chunks text).flatten = text := by
  fun_induction Mux.chunks text with
  | case1 => rfl
  | case2 text hne ih => rw [List.flatten_cons, ih, List.take_append_drop]

theorem length_chunk_le {text chunk : Bytes} (h : chunk ∈ Mux.chunks text) :
    chunk.length ≤ kOutboundPayloadCap := by
  fun_induction Mux.chunks text with
  | case1 => cases h
  | case2 text hne ih =>
    rcases List.mem_cons.1 h with rfl | h
    · exact List.length_take_le _ _
    · exact ih h

theorem length_chunks_le {text : Bytes} {count : Nat} :
    (Mux.chunks text).length ≤ count ↔ text.length ≤ count * kOutboundPayloadCap := by
  fun_induction Mux.chunks text generalizing count with
  | case1 => simp
  | case2 text hne ih =>
    have hpos : 0 < text.length := List.length_pos_of_ne_nil hne
    cases count with
    | zero => simp [hne]
    | succ count =>
      rw [List.length_cons, Nat.succ_le_succ_iff, ih, List.length_drop, Nat.succ_mul]
      omega

theorem CarryText.length_le {text : Bytes} {frames : List Bytes} (h : CarryText P text frames) :
    text.length ≤ frames.length * kOutboundPayloadCap := by
  obtain ⟨payloads, hall, rfl, hcap⟩ := h
  rw [← hall.length_eq, List.length_flatten]
  refine (List.sum_le_card_nsmul _ kOutboundPayloadCap fun n hn => ?_).trans (by simp)
  obtain ⟨payload, hpayload, rfl⟩ := List.mem_map.1 hn
  exact hcap payload hpayload

theorem carryText_enqueueTerminal (laws : OwnFrameLaws P) {text : Bytes}
    (hnumbers : Numbered m.session.node (Mux.chunks text).length)
    (hempty : m.egress.queues.frames .terminal = []) :
    CarryText P text ((m.enqueueTerminal text).egress.queues.frames .terminal) ↔
      text.length ≤ kQueueDepth .terminal * kOutboundPayloadCap := by
  constructor
  · intro h
    exact h.length_le.trans (Nat.mul_le_mul_right _ (length_frames_le _ _))
  · intro h
    obtain ⟨frames, hall, hframes⟩ := (@frames_foldl_enqueueOwn _ _ .terminal
      kTerminalOutObjectId laws) (by decide) rfl (fun _ => length_chunk_le) hnumbers
      hempty
    have hfits : frames.length ≤ kQueueDepth .terminal := by
      rw [← hall.length_eq]
      exact length_chunks_le.2 h
    refine ⟨Mux.chunks text, ?_, chunks_flatten text, fun _ => length_chunk_le⟩
    have hkept : (m.enqueueTerminal text).egress.queues.frames .terminal = frames := by
      rw [← List.take_of_length_le hfits]
      exact hframes
    rw [hkept]
    exact hall

/-- A text reaches the terminal whole when its pieces fit the queue. -/
theorem terminal_text_left (laws : OwnFrameLaws P) (hrender : P.renderResponse [] = [])
    (m : Mux P) (hprotocolled : m.isProtocolled = true) (text : Bytes)
    (hnumbers : Numbered m.session.node (Mux.chunks text).length)
    (hempty : m.egress.queues.frames .terminal = []) :
    (CarryText P text
        ((Mux.flushTerminalPtyOutput { m with terminalOut := text }).egress.queues.frames
          .terminal) ↔
      text.length ≤ kQueueDepth .terminal * kOutboundPayloadCap) ∧
    ∀ response, P.renderResponse response = text →
      (CarryText P text ((m.writeTerminalResponse response).egress.queues.frames .terminal) ↔
        text.length ≤ kQueueDepth .terminal * kOutboundPayloadCap) := by
  refine ⟨carryText_enqueueTerminal (m := { m with terminalOut := text }) laws hnumbers hempty, ?_⟩
  rintro response rfl
  rw [Mux.writeTerminalResponse]
  split
  · rename_i hempty'
    have hnil : response = [] := by simpa [hprotocolled] using hempty'
    subst hnil
    rw [hrender, hempty]
    exact iff_of_true ⟨[], .nil, rfl, nofun⟩ (Nat.zero_le _)
  · exact carryText_enqueueTerminal laws hnumbers hempty

theorem bench_ownFrameLaws : OwnFrameLaws bench where
  bootId := by decide
  encodes := by
    intro header _ payload hlen
    refine ⟨List.replicate 36 0 ++ payload ++ List.replicate 4 0, ?_, ?_⟩
    · refine if_neg ?_
      simp only [kOutboundPayloadCap] at hlen
      simp [kSerialMaxPayloadSize, kMaxFrameBytes, kOutboundPayloadCap]
      omega
    · simp [kMaxFrameBytes]
      omega

theorem bench_numbered (node : BenchNode) (count : Nat) : Numbered (N := benchNode) node count :=
  fun _ _ => rfl

/-- The bench in a session. -/
def benchSession : Mux bench :=
  { session := { node := ({ state := .active } : BenchNode) }, decoder := (), terminalShell := ()
    shared := { world := () } }

theorem terminal_text_left_short :
    CarryText bench [0x6F, 0x6B]
      ((Mux.flushTerminalPtyOutput
        { benchSession with terminalOut := [0x6F, 0x6B] }).egress.queues.frames .terminal) :=
  (terminal_text_left bench_ownFrameLaws rfl benchSession rfl [0x6F, 0x6B] (bench_numbered _ _)
    rfl).1.2 (by decide)

/-- One octet more than three pieces. -/
def longText : Bytes := List.replicate 6145 0x61

/-- Its last octet is dropped, by both paths. -/
theorem terminal_text_cut :
    ¬CarryText bench longText
        ((Mux.flushTerminalPtyOutput
          { benchSession with terminalOut := longText }).egress.queues.frames .terminal) ∧
      ¬CarryText bench longText
        ((benchSession.writeTerminalResponse longText).egress.queues.frames .terminal) := by
  have hcut : ∀ queues : Queues, ¬CarryText bench longText (queues.frames .terminal) := by
    intro queues h
    have hlen := h.length_le.trans (Nat.mul_le_mul_right _ (length_frames_le queues .terminal))
    rw [longText, List.length_replicate] at hlen
    exact absurd hlen (by decide)
  exact ⟨hcut _, hcut _⟩

/-! ## The catalog -/

section catalog

open ManifestCache

variable {reader : ManifestReader} {g : Cache} {decoded : DecodedFrame} {request : ManifestRequest}

/-- The frames carry the answer at each index of the catalog, in order. -/
def CarryCatalog (reader : ManifestReader) (P : Platform) (g : Cache) (frames : List Bytes) : Prop :=
  ∃ payloads, List.Forall₂ (OwnFrame P .control kManifestDataObjectId) payloads frames ∧
    payloads.length = enumerationCount g ∧
    ∀ index payload, payloads[index]? = some payload →
      ∃ head, reader.header payload = .ok head ∧ ManifestCache.Places P.identity g index head

/-- The answers a loop that nothing interrupts builds. -/
def catalogAnswers (P : Platform) (g : Cache) (requestHeader : Header) : List Bytes :=
  (List.range (enumerationCount g)).filterMap fun index =>
    buildEnumerationResponse P.manifestWriter P.identity g index requestHeader kOutboundPayloadCap

/-- The loop reads the cache anew for every index; nothing in it writes there. -/
theorem handleManifestRequest_catalog
    (hrequest : P.messages.decodeManifestRequest decoded.payload = .ok request)
    (htarget : request.targetSourceId = 0) :
    m.handleManifestRequest decoded =
      (catalogAnswers P m.shared.manifest decoded.header).foldl
        (fun m payload => (m.enqueueOwn .control kManifestDataObjectId payload).1) m := by
  rw [Mux.handleManifestRequest, hrequest, catalogAnswers]
  dsimp only
  rw [if_pos htarget]
  generalize hg : m.shared.manifest = g
  generalize List.range (enumerationCount g) = indices
  induction indices generalizing m with
  | nil => rfl
  | cons index indices ih =>
    rw [List.foldl_cons, List.filterMap_cons, hg]
    cases buildEnumerationResponse P.manifestWriter P.identity g index decoded.header
      kOutboundPayloadCap with
    | none => exact ih hg
    | some payload =>
      rw [List.foldl_cons]
      exact ih (by rw [enqueueOwn_shared, hg])

theorem filterMap_range {α : Type} {f : Nat → Option α} {count : Nat}
    (h : ∀ index < count, (f index).isSome) :
    ((List.range count).filterMap f).length = count ∧
      ∀ index < count, ((List.range count).filterMap f)[index]? = f index := by
  induction count with
  | zero => exact ⟨rfl, nofun⟩
  | succ count ih =>
    obtain ⟨hlen, hget⟩ := ih fun index hi => h index (hi.trans count.lt_succ_self)
    obtain ⟨last, hlast⟩ := Option.isSome_iff_exists.1 (h count count.lt_succ_self)
    have hsplit : (List.range (count + 1)).filterMap f =
        (List.range count).filterMap f ++ [last] := by
      rw [List.range_succ, List.filterMap_append, List.filterMap_cons, hlast, List.filterMap_nil]
    rw [hsplit]
    refine ⟨by rw [List.length_append, hlen, List.length_singleton], fun index hi => ?_⟩
    rcases Nat.lt_succ_iff_lt_or_eq.1 hi with hlt | rfl
    · rw [List.getElem?_append_left (by omega), hget index hlt]
    · rw [List.getElem?_append_right (by omega), hlen, Nat.sub_self, hlast]
      rfl

theorem length_answer_le (wwithin : WithinBuffer P.manifestWriter) {requestHeader : Header}
    {payload : Bytes} (h : payload ∈ catalogAnswers P g requestHeader) :
    payload.length ≤ kOutboundPayloadCap := by
  obtain ⟨index, -, hbuild⟩ := List.mem_filterMap.1 h
  rw [buildEnumerationResponse_eq] at hbuild
  obtain ⟨s, -, hwrite⟩ := Option.bind_eq_some_iff.1 hbuild
  exact wwithin _ _ _ _ _ _ hwrite

/-- The answers of an uninterrupted loop are one for each index. -/
theorem catalogAnswers_places (wlaws : WriterLaws reader P.manifestWriter)
    (hserved : Served reader g) (hown : OwnBlock reader g) (requestHeader : Header) :
    (catalogAnswers P g requestHeader).length = enumerationCount g ∧
      ∀ index payload, (catalogAnswers P g requestHeader)[index]? = some payload →
        ∃ head, reader.header payload = .ok head ∧
          ManifestCache.Places P.identity g index head := by
  have hroom : kManifestHeadSize + kMaxNameLength + kMaxSourceInfoBytes ≤ kOutboundPayloadCap := by
    decide
  have hsome : ∀ index < enumerationCount g, (buildEnumerationResponse P.manifestWriter P.identity
      g index requestHeader kOutboundPayloadCap).isSome := by
    intro index hi
    obtain ⟨out, -, hout, -⟩ :=
      enumeration_answer wlaws hserved hown P.identity requestHeader hi hroom
    rw [hout]
    rfl
  obtain ⟨hlen, hget⟩ := filterMap_range hsome
  refine ⟨hlen, fun index payload hpayload => ?_⟩
  have hi : index < enumerationCount g := by
    rw [← hlen]
    exact (List.getElem?_eq_some_iff.1 hpayload).1
  obtain ⟨out, head, hout, hread, hplaces⟩ :=
    enumeration_answer wlaws hserved hown P.identity requestHeader hi hroom
  rw [catalogAnswers, hget index hi, hout] at hpayload
  cases hpayload
  exact ⟨head, hread, hplaces⟩

theorem CarryCatalog.length_eq {frames : List Bytes} (h : CarryCatalog reader P g frames) :
    frames.length = enumerationCount g := by
  obtain ⟨payloads, hall, hlen, -⟩ := h
  rw [← hall.length_eq, hlen]

/-- A catalog fits the queue, or its first answers are pushed out of it. -/
theorem catalog_left (laws : OwnFrameLaws P) (rlaws : ReaderLaws reader)
    (wlaws : WriterLaws reader P.manifestWriter) (wwithin : WithinBuffer P.manifestWriter)
    (ops : List Op) (hops : ∀ op ∈ ops, Configures reader op) (m : Mux P)
    (hcache : m.shared.manifest = run reader P.manifestWriter ops) (decoded : DecodedFrame)
    (request : ManifestRequest)
    (hrequest : P.messages.decodeManifestRequest decoded.payload = .ok request)
    (htarget : request.targetSourceId = 0)
    (hnumbers : Numbered m.session.node (enumerationCount m.shared.manifest))
    (hempty : m.egress.queues.frames .logStatus = []) :
    CarryCatalog reader P m.shared.manifest
        ((m.handleManifestRequest decoded).egress.queues.frames .logStatus) ↔
      enumerationCount m.shared.manifest ≤ kQueueDepth .logStatus := by
  constructor
  · intro h
    rw [← h.length_eq]
    exact length_frames_le _ _
  · intro hfits
    obtain ⟨hserved, hown⟩ := @run_served _ P.manifestWriter rlaws _ hops
    rw [← hcache] at hserved hown
    obtain ⟨hlen, hplaces⟩ := catalogAnswers_places wlaws hserved hown decoded.header
    obtain ⟨frames, hall, hframes⟩ := (@frames_foldl_enqueueOwn _ m .control
      kManifestDataObjectId laws) (by decide) rfl
      (fun _ => @length_answer_le _ m.shared.manifest wwithin decoded.header _) (by rwa [hlen]) hempty
    have hkept : frames.length - kQueueDepth .logStatus = 0 := by
      rw [← hall.length_eq, hlen]
      exact Nat.sub_eq_zero_of_le hfits
    have hleft : (m.handleManifestRequest decoded).egress.queues.frames .logStatus = frames := by
      rw [handleManifestRequest_catalog hrequest htarget]
      refine hframes.trans ?_
      show frames.drop (frames.length - kQueueDepth .logStatus) = frames
      rw [hkept, List.drop_zero]
    rw [hleft]
    exact ⟨_, hall, hlen, hplaces⟩

section bench

/-- The prefix rules of a `MANIFEST_REQUEST`: twelve octets. -/
def benchDecodeManifestRequest (payload : Bytes) : Except MessageError ManifestRequest :=
  match readU32 payload 0, readU32 payload 4, readU32 payload 8 with
  | some target, some boot, some revision =>
    if payload.length = 12 then .ok ⟨target, boot, revision⟩ else .error .trailingBytes
  | _, _, _ => .error .payloadTooShort

/-- The bench with a desktop that asks for catalogs. -/
def catalogBench : Platform :=
  { bench with
    messages := { benchMessages with decodeManifestRequest := benchDecodeManifestRequest } }

theorem catalogBench_ownFrameLaws : OwnFrameLaws catalogBench :=
  ⟨bench_ownFrameLaws.bootId, bench_ownFrameLaws.encodes⟩

/-- A session with these robots cached. -/
def catalogMux (ops : List Op) : Mux catalogBench :=
  { session := { node := ({ state := .active } : BenchNode) }, decoder := (), terminalShell := ()
    shared := { world := (), manifest := run Layout.reader Layout.writer ops } }

def wholeCatalogRequest : DecodedFrame :=
  { header := catalogRequest, payload := List.replicate 12 0 }

theorem catalog_left_two :
    CarryCatalog Layout.reader catalogBench (catalogMux twoRobots).shared.manifest
      (((catalogMux twoRobots).handleManifestRequest wholeCatalogRequest).egress.queues.frames
        .logStatus) :=
  (catalog_left catalogBench_ownFrameLaws Layout.reader_laws Layout.writer_laws
    Layout.writer_within twoRobots twoRobots_configures (catalogMux twoRobots) rfl
    wholeCatalogRequest ⟨0, 0, 0⟩ rfl rfl (bench_numbered _ _) rfl).2 (by decide)

/-- Six robots, cached. -/
def sixRobots : List Op :=
  [3, 4, 5, 6, 8, 9].map fun id =>
    .ingestManifestData (Layout.robotAnswer id 1 1 2 "robot" []) 100

/-- With six robots the catalog is one answer longer than the queue. -/
theorem catalog_pushed_out :
    ¬CarryCatalog Layout.reader catalogBench (catalogMux sixRobots).shared.manifest
      (((catalogMux sixRobots).handleManifestRequest wholeCatalogRequest).egress.queues.frames
        .logStatus) := by
  intro h
  have hseven : enumerationCount (catalogMux sixRobots).shared.manifest = 7 := by decide
  have hle := length_frames_le
    ((catalogMux sixRobots).handleManifestRequest wholeCatalogRequest).egress.queues .logStatus
  rw [h.length_eq, hseven] at hle
  exact absurd hle (by decide)

end bench

end catalog

end BallyDongle.SerialMux
