import BallyDongle.EspNowConfig.Reception

/-!
# Relaying what was retained

A message of several fragments that does not open goes up as the datagrams it
came in. While its fragments arrive, in any order and among other traffic, the
table holds every fragment the reassembler holds, unless both have timed out
(`Keeping`); so at completion none is missing, and what the queue of its class
keeps of them is a matter of its depth.
-/

namespace BallyDongle.EspNowConfig

open Btp BtpTransport BtpCommand ProtocolRouter SerialMux SerialSession

variable {E : Platform} {s s' : State E} {fragments : List Bytes} {id : Identity}
  {type : MessageType} {objectId : UInt16} {base clock now : UInt32} {g g' : PendingRelays}

/-- A datagram of a message: the fragment `index` of `count`. -/
structure IsFragment (id : Identity) (type : MessageType) (objectId : UInt16) (count index : Nat)
    (header : Header) : Prop where
  identity : header.identity = id
  type : header.type = type
  objectId : header.objectId = objectId
  fragmented : header.flags.fragmented = true
  index : header.fragmentIndex = UInt8.ofNat index
  count : header.fragmentCount = UInt8.ofNat count

/-- The datagrams of a candidate message of several fragments, in order. -/
structure FragmentsOf (codec : Codec) (id : Identity) (type : MessageType) (objectId : UInt16)
    (fragments : List Bytes) : Prop where
  candidate : Channels.dongleMayConsume type objectId = true
  several : 2 ≤ fragments.length
  few : fragments.length ≤ kPendingRelayMaxFragments
  decode : ∀ index data, fragments[index]? = some data → ∃ decoded,
    codec.decode .espNow data = .ok decoded ∧
      IsFragment id type objectId fragments.length index decoded.header

theorem FragmentsOf.nodup {codec : Codec} (h : FragmentsOf codec id type objectId fragments) :
    fragments.Nodup := by
  rw [List.nodup_iff_getElem?_ne_getElem?]
  intro i j hij hj heq
  have hi : i < fragments.length := Nat.lt_trans hij hj
  obtain ⟨decoded, hd, hfi⟩ := h.decode i _ (List.getElem?_eq_getElem hi)
  obtain ⟨decoded', hd', hfj⟩ := h.decode j _ (heq ▸ List.getElem?_eq_getElem hi)
  rw [hd] at hd'
  cases hd'
  have hlt : kPendingRelayMaxFragments < 256 := by decide
  have hfew := h.few
  have hsame := congrArg UInt8.toNat (hfi.index.symm.trans hfj.index)
  rw [UInt8.toNat_ofNat_of_lt' (show i < 256 by omega),
    UInt8.toNat_ofNat_of_lt' (show j < 256 by omega)] at hsame
  omega

/-! ## The invariant -/

/-- A slot of the message. -/
structure SlotOf (fragments : List Bytes) (base clock : UInt32) (slot : PendingRelay) : Prop where
  count : slot.fragmentCount = UInt8.ofNat fragments.length
  last : NotAfter base slot.lastArrivalMs clock
  frames : ∀ index data, slot.frames index = some data → fragments[index]? = some data

/-- The table has the fragments `p` holds of the message, last heard at `last` or
later, or `p` has timed out. -/
def Covered (g : PendingRelays) (id : Identity) (base clock : UInt32) (p : Partial) : Prop :=
  ∃ last : UInt32, p.lastArrivalMs = last.toUInt64 ∧ NotAfter base last clock ∧
    (kReassemblyTimeoutMs ≤ (clock - last).toNat ∨
      ∃ slot, retained g id = some slot ∧ NotAfter base last slot.lastArrivalMs ∧
        ∀ index, p.present index = true → (slot.frames index.toNat).isSome = true)

/-- What the table and the reassembler have of a message whose datagrams are
`fragments`, on a clock that started at `base`. -/
structure Keeping (fragments : List Bytes) (id : Identity) (base clock : UInt32) (s : State E) :
    Prop where
  tidy : Tidy s.pending
  slot : ∀ slot, retained s.pending id = some slot → SlotOf fragments base clock slot
  held : ∀ p, E.receiver.held s.router id = some p → Covered s.pending id base clock p

theorem SlotOf.later {slot : PendingRelay} (h : SlotOf fragments base clock slot)
    (hlater : NotAfter base clock now) : SlotOf fragments base now slot :=
  ⟨h.count, h.last.trans hlater, h.frames⟩

/-- What timed out is gone, and what it covered has timed out with it. -/
theorem Covered.later {p : Partial} (h : Covered g id base clock p)
    (hslot : ∀ slot, retained g id = some slot → SlotOf fragments base clock slot)
    (hlater : NotAfter base clock now)
    (hret : retained g' id = retained g id ∨
      retained g' id = (retained g id).filter fun slot => !expired now slot) :
    Covered g' id base now p := by
  obtain ⟨last, hlast, hclock, hcase⟩ := h
  refine ⟨last, hlast, hclock.trans hlater, ?_⟩
  obtain hstale | ⟨slot, hs, hnewer, hframes⟩ := hcase
  · exact .inl (Nat.le_trans hstale (hclock.elapsed_le hlater))
  by_cases hlive : expired now slot = true
  · -- the slot was heard of after the reassembler's fragments were
    left
    rw [expired, Bool.and_eq_true, decide_eq_true_iff] at hlive
    exact Nat.le_trans hlive.2 (hnewer.elapsed_anti ((hslot slot hs).last.trans hlater))
  · right
    refine ⟨slot, ?_, hnewer, hframes⟩
    rw [hs, Option.filter_some, if_pos (by simpa using hlive)] at hret
    exact or_self_iff.1 hret

/-- A datagram that is no fragment of the message. -/
theorem Keeping.other (h : Keeping fragments id base clock s) (hlater : NotAfter base clock now)
    (ht : Tidy s'.pending)
    (hret : retained s'.pending id = retained s.pending id ∨
      retained s'.pending id = retained (expirePendingRelays s.pending now) id)
    (hheld : ∀ p, E.receiver.held s'.router id = some p → E.receiver.held s.router id = some p) :
    Keeping fragments id base now s' := by
  rw [retained_expire h.tidy] at hret
  refine ⟨ht, fun slot hs => ?_, fun p hp => (h.held p (hheld p hp)).later h.slot hlater hret⟩
  refine (h.slot slot ?_).later hlater
  obtain e | e := hret
  · rw [← e, hs]
  · rw [hs] at e
    exact (Option.filter_eq_some_iff.1 e.symm).1

theorem Keeping.untouched (h : Keeping fragments id base clock s)
    (hlater : NotAfter base clock now) (hu : Untouched s s') :
    Keeping fragments id base now s' :=
  h.other hlater (hu.pending ▸ h.tidy) (.inl (by rw [hu.pending])) fun _ hp => hu.router ▸ hp

/-- A partial message that may take a fragment now has its slot. -/
theorem Covered.takes {p : Partial} (h : Covered g id base clock p) (ht : Tidy g)
    (hslot : ∀ slot, retained g id = some slot → SlotOf fragments base clock slot)
    (hlater : NotAfter base clock now) {header : Header} (htakes : p.Takes header now.toUInt64) :
    ∃ slot, retained (expirePendingRelays g now) id = some slot ∧
      ∀ index, p.present index = true → (slot.frames index.toNat).isSome = true := by
  obtain ⟨last, hlast, hclock, hcase⟩ := h
  have hrecent : (now - last).toNat < kReassemblyTimeoutMs :=
    elapsed_of_widened (by decide) (hlast ▸ htakes.recent)
  obtain hstale | ⟨slot, hs, hnewer, hframes⟩ := hcase
  · have := hclock.elapsed_le hlater
    omega
  · have := hnewer.elapsed_anti ((hslot slot hs).last.trans hlater)
    have hlive : expired now slot = false := by
      rw [expired, Bool.and_eq_false_iff, decide_eq_false_iff_not]
      exact .inr (by omega)
    refine ⟨slot, ?_, hframes⟩
    rw [retained_expire ht, hs, Option.filter_some, hlive]
    rfl

/-! ## A fragment -/

theorem IsFragment.index_toNat {codec : Codec} {header : Header} {index : Nat}
    {data : Bytes} (hf : FragmentsOf codec id type objectId fragments)
    (h : IsFragment id type objectId fragments.length index header)
    (hdata : fragments[index]? = some data) : header.fragmentIndex.toNat = index := by
  have hlt : index < fragments.length := (List.getElem?_eq_some_iff.1 hdata).1
  have hfew : fragments.length ≤ 10 := hf.few
  rw [h.index, UInt8.toNat_ofNat_of_lt' (show index < 256 by omega)]

/-- The slot of the message once a fragment of it is retained. -/
theorem Keeping.retained_own {codec : Codec} (h : Keeping fragments id base clock s)
    (hf : FragmentsOf codec id type objectId fragments) {header : Header} {index : Nat}
    {data : Bytes} (hfrag : IsFragment id type objectId fragments.length index header)
    (hdata : fragments[index]? = some data)
    (hr : (retainPendingRelay s.pending header data now).2 = true) :
    ∃ slot, retained (retainPendingRelay s.pending header data now).1 id = some slot ∧
      SlotOf fragments base now slot ∧ slot.lastArrivalMs = now ∧
      slot.frames index = some data ∧
      ∀ live, retained (expirePendingRelays s.pending now) id = some live →
        ∀ other, (live.frames other).isSome = true → (slot.frames other).isSome = true := by
  obtain ⟨before, hcount, hbefore, hslot⟩ := retained_retain_true h.tidy hfrag.fragmented hr
  rw [hfrag.identity] at hbefore hslot
  have hindex := hfrag.index_toNat hf hdata
  have hframes : ∀ other data', before.frames other = some data' →
      fragments[other]? = some data' := by
    obtain hlive | ⟨-, hempty⟩ := hbefore
    · rw [retained_expire h.tidy, Option.filter_eq_some_iff] at hlive
      exact (h.slot before hlive.1).frames
    · intro other data' hsome
      rw [hempty] at hsome
      cases hsome
  refine ⟨_, hslot, ⟨hcount.trans hfrag.count, .refl base now, fun other data' hsome => ?_⟩, rfl, ?_,
    fun live hlive other hsome => ?_⟩
  · rw [store_frames, hindex] at hsome
    split at hsome
    · rename_i heq
      rw [heq, hdata, hsome]
    · exact hframes other data' hsome
  · rw [store_frames, if_pos hindex.symm]
  · have hsame : before = live := by
      obtain hb | ⟨hnone, -⟩ := hbefore
      · exact Option.some.inj (hb.symm.trans hlive)
      · rw [hlive] at hnone
        cases hnone
    rw [store_frames]
    split
    · rfl
    · rwa [hsame]

/-- A fragment of the message, retained and given to the reassembler. -/
theorem Keeping.joined (hR : ReceiverLaws E.serial.codec E.receiver)
    (h : Keeping fragments id base clock s)
    (hf : FragmentsOf E.serial.codec id type objectId fragments) {d : Datagram}
    {decoded : DecodedFrame} {index : Nat} (hd : E.serial.codec.decode .espNow d.data = .ok decoded)
    (hfrag : IsFragment id type objectId fragments.length index decoded.header)
    (hdata : fragments[index]? = some d.data) (hlater : NotAfter base clock d.nowMs)
    (hr : (retainPendingRelay s.pending decoded.header d.data d.nowMs).2 = true)
    (hpending : s'.pending = (retainPendingRelay s.pending decoded.header d.data d.nowMs).1)
    (hrouter : s'.router = (submit E.receiver s.router d.mac d.data d.nowMs.toUInt64).1) :
    Keeping fragments id base d.nowMs s' := by
  obtain ⟨slot, hslot, hof, hlast, hframe, hkeeps⟩ := h.retained_own hf hfrag hdata hr
  rw [← hpending] at hslot
  refine ⟨hpending ▸ retain_tidy h.tidy .., fun slot' hs => ?_, fun p hp => ?_⟩
  · rw [hslot] at hs
    cases hs
    exact hof
  rw [hrouter] at hp
  obtain hheld | ⟨decoded', hd', -, before, -, hbefore, rfl⟩ := hR.submit_held hp
  · -- the reassembler did not store the fragment
    obtain ⟨last, hlast', hclock, hcase⟩ := (h.held p hheld).later h.slot hlater
      (.inr (retained_expire h.tidy d.nowMs id))
    refine ⟨last, hlast', hclock, hcase.imp_right fun ⟨live, hlive, _, hframes⟩ => ?_⟩
    exact ⟨slot, hslot, hlast ▸ hclock, fun other ho => hkeeps live hlive _ (hframes other ho)⟩
  · rw [hd] at hd'
    cases hd'
    refine ⟨d.nowMs, rfl, .refl base _, .inr ⟨slot, hslot, hlast ▸ .refl base _, fun other ho => ?_⟩⟩
    rw [Partial.add_present] at ho
    split at ho
    · rename_i heq
      rw [heq, hfrag.index_toNat hf hdata, hframe]
      rfl
    · obtain ⟨hheld, htakes⟩ | hempty := hbefore
      · obtain ⟨live, hlive, hframes⟩ := (h.held before hheld).takes h.tidy h.slot hlater htakes
        exact hkeeps live hlive _ (hframes other ho)
      · rw [hempty] at ho
        cases ho

/-- What an outcome leaves of the message, when nothing of it is held. -/
theorem Keeping.forgotten (h : Keeping fragments id base clock s) (hf : Forgets id s s')
    (hnone : E.receiver.held s.router id = none) : Keeping fragments id base clock s' := by
  refine ⟨hf.tidy, fun slot hs => ?_, fun p hp => ?_⟩
  · obtain e | e := hf.self
    · exact h.slot slot (e ▸ hs)
    · rw [e] at hs
      cases hs
  · rw [hf.router, hnone] at hp
    cases hp

/-- The datagram is one of the message's if it has its identity. -/
def Own (codec : Codec) (id : Identity) (fragments : List Bytes) (data : Bytes) : Prop :=
  ∀ decoded, codec.decode .espNow data = .ok decoded → decoded.header.identity = id →
    data ∈ fragments

theorem Keeping.received (hR : ReceiverLaws E.serial.codec E.receiver)
    (hf : FragmentsOf E.serial.codec id type objectId fragments)
    (h : Keeping fragments id base clock s) {d : Datagram} (hlater : NotAfter base clock d.nowMs)
    (hown : Own E.serial.codec id fragments d.data) :
    Keeping fragments id base d.nowMs (s.processRxDatagram d) := by
  obtain hu | ⟨decoded, ingress, hd, hheader, hmay, -, e⟩ := processRxDatagram_cases s d
  · exact h.untouched hlater hu
  rw [e]
  have hcount : Untouched s s.countDatagram := ⟨rfl, rfl⟩
  replace h : Keeping fragments id base clock s.countDatagram :=
    h.untouched (.refl base clock) hcount
  generalize s.countDatagram = s at h ⊢
  have hframe := s.retain_frame d ingress
  have hrouted : ∀ routed, (submit E.receiver s.router d.mac d.data d.nowMs.toUInt64).2 =
      .routed routed → routed.header.identity = ingress.header.identity := by
    intro routed hrouted
    rw [hheader]
    exact (hR.agreeing.submit_routed hd hrouted).1
  by_cases hid : decoded.header.identity = id
  · -- a fragment of the message
    obtain ⟨index, hlt, hdata⟩ := List.getElem_of_mem (hown decoded hd hid)
    replace hdata : fragments[index]? = some d.data := hdata ▸ List.getElem?_eq_getElem hlt
    obtain ⟨decoded', hd', hfrag⟩ := hf.decode index _ hdata
    rw [hd] at hd'
    cases hd'
    rw [hfrag.type, hfrag.objectId, hf.candidate] at hmay
    have hpending := retain_pending s d hmay
    rw [hheader] at hpending
    obtain ⟨hrefused, e⟩ | ⟨hkept, e⟩ := reassemble_cases s d ingress
    · rw [e]
      rw [hpending.2] at hrefused
      have hsame : E.receiver.held (s.retain d ingress).1.router id =
          E.receiver.held s.router id := by rw [hframe]
      have hpend : (s.retain d ingress).1.dropReassembly.pending = _ := hpending.1
      refine h.other hlater (hpend ▸ retain_tidy h.tidy ..) ?_ fun p hp => hsame ▸ hp
      rw [hpend]
      obtain hr | ⟨hr, hbad⟩ := retained_retain_false h.tidy hrefused
      · exact .inl (hid ▸ hr)
      · right
        rw [← hid, hr, eq_comm, Option.eq_none_iff_forall_ne_some]
        intro slot hlive
        have hslot := hlive
        rw [hid, retained_expire h.tidy, Option.filter_eq_some_iff] at hslot
        exact hbad slot hlive ((h.slot slot hslot.1).count.trans hfrag.count.symm)
    · rw [e]
      have hjoined : Keeping fragments id base d.nowMs
          { (s.retain d ingress).1 with
            router := (submit E.receiver s.router d.mac d.data d.nowMs.toUInt64).1 } :=
        h.joined hR hf hd hfrag hdata hlater (hpending.2 ▸ hkept) hpending.1 rfl
      by_cases hend : (submit E.receiver s.router d.mac d.data d.nowMs.toUInt64).2 =
          .droppedReassembly ∨ ∃ message,
            (submit E.receiver s.router d.mac d.data d.nowMs.toUInt64).2 = .routed message
      · have hnone := hR.submit_ended hd hfrag.fragmented hend
        rw [hid] at hnone
        have hforget := onOutcome_forgets hjoined.tidy d hrouted
        rw [hheader, hid] at hforget
        exact hjoined.forgotten hforget hnone
      · rw [not_or, not_exists] at hend
        exact hjoined.untouched (.refl base _) (onOutcome_untouched _ d ingress hend.1 hend.2)
  · -- another message
    have ht := tidy_retain h.tidy d ingress
    have hret := retain_other h.tidy d (show ingress.header.identity ≠ id from hheader ▸ hid)
    obtain ⟨-, e⟩ | ⟨-, e⟩ := reassemble_cases s d ingress
    · rw [e]
      refine h.other hlater ht hret fun p hp => ?_
      rwa [State.dropReassembly, hframe] at hp
    · rw [e]
      have hforget := onOutcome_forgets (s := { (s.retain d ingress).1 with
        router := (submit E.receiver s.router d.mac d.data d.nowMs.toUInt64).1 }) ht d hrouted
      refine h.other hlater hforget.tidy ?_ fun p hp => ?_
      · rw [hforget.other id (by rw [hheader]; exact Ne.symm hid)]
        exact hret
      · rw [hforget.router] at hp
        obtain hp | ⟨decoded', hd', hid', -⟩ := hR.submit_held hp
        · exact hp
        · rw [hd] at hd'
          cases hd'
          exact absurd hid' hid

/-! ## A run -/

/-- The reception of a message: what has its identity is a fragment of it, and the
clock, read from `base`, does not go back. -/
structure Receives (codec : Codec) (id : Identity) (fragments : List Bytes) (base : UInt32)
    (received : List Datagram) : Prop where
  own : ∀ d ∈ received, Own codec id fragments d.data
  paced : received.Pairwise fun d d' => NotAfter base d.nowMs d'.nowMs

theorem Keeping.run (hR : ReceiverLaws E.serial.codec E.receiver)
    (hf : FragmentsOf E.serial.codec id type objectId fragments) (inputs : List (Input E))
    {last : Datagram} (h : Keeping fragments id base clock s)
    (hreceives : Receives E.serial.codec id fragments base (datagramsOf inputs ++ [last]))
    (hlater : ∀ d ∈ datagramsOf inputs ++ [last], NotAfter base clock d.nowMs) :
    ∃ clock', NotAfter base clock' last.nowMs ∧ Keeping fragments id base clock' (s.run inputs) := by
  induction inputs generalizing s clock with
  | nil => exact ⟨clock, hlater last (by simp [datagramsOf]), h⟩
  | cons input inputs ih =>
    cases input with
    | elsewhere dongle queues =>
      have hu : Untouched s (s.step (.elsewhere dongle queues)) := ⟨rfl, rfl⟩
      exact ih (h.untouched (.refl base clock) hu) hreceives hlater
    | received d =>
      have hd : datagramsOf (.received d :: inputs) ++ [last] =
        d :: (datagramsOf inputs ++ [last]) := rfl
      rw [hd] at hreceives hlater
      have hpaced := List.pairwise_cons.1 hreceives.paced
      exact ih (h.received hR hf (hlater d (.head _)) (hreceives.own d (.head _)))
        ⟨fun d' hm => hreceives.own d' (.tail _ hm), hpaced.2⟩ hpaced.1

/-- Nothing is held of a message none of whose fragments came. -/
theorem Keeping.fresh (ht : Tidy s.pending) (hslot : retained s.pending id = none)
    (hheld : E.receiver.held s.router id = none) : Keeping fragments id base base s := by
  refine ⟨ht, fun slot hs => ?_, fun p hp => ?_⟩
  · rw [hslot] at hs
    cases hs
  · rw [hheld] at hp
    cases hp

/-! ## The last fragment -/

theorem relayUp_queued {m : Mux E.serial} {header : Header} {frame : Bytes}
    (hproto : m.isProtocolled = true) (hframe : frame ≠ []) (htype : header.type ≠ .telemetry) :
    (m.relayUp header frame).1 = { m with egress :=
      (enqueueFrameBytes m.egress (classify header.type header.objectId) frame).1 } := by
  have hwanted : m.unwanted header = false := by simp [Mux.unwanted, htype]
  rw [Mux.relayUp, if_neg (by simp [hproto]), if_neg hframe, if_neg (by simp [hwanted]),
    Mux.forward]
  dsimp only
  rw [if_neg htype]
  rfl

/-- The datagrams of a message go up one after the other. -/
theorem relayAll_egress {header : Header} (htype : header.type ≠ .telemetry) (frames : List Bytes)
    (hframes : ∀ frame ∈ frames, frame ≠ []) (s : State E) (hproto : s.mux.isProtocolled = true) :
    (s.relayAll header frames).mux.egress =
      frames.foldl
        (fun e frame => (enqueueFrameBytes e (classify header.type header.objectId) frame).1)
        s.mux.egress := by
  induction frames generalizing s with
  | nil => rfl
  | cons frame frames ih =>
    have hup := relayUp_queued hproto (hframes frame (.head _)) htype
    have hmux : (s.relayUp header frame).mux = (s.mux.relayUp header frame).1 := rfl
    rw [hup] at hmux
    refine (ih (fun f hm => hframes f (.tail _ hm)) (s.relayUp header frame) ?_).trans ?_
    · rw [hmux]
      exact hproto
    · rw [hmux, List.foldl_cons]

/-- The slot of a message none of whose fragments is missing. -/
theorem SlotOf.datagrams_eq {slot : PendingRelay} (h : SlotOf fragments base clock slot)
    (hfew : fragments.length ≤ kPendingRelayMaxFragments)
    (hall : ∀ index < fragments.length, (slot.frames index).isSome = true) :
    State.datagrams slot = some fragments := by
  have hcount : slot.fragmentCount.toNat = fragments.length := by
    have hfew : fragments.length ≤ 10 := hfew
    rw [h.count, UInt8.toNat_ofNat_of_lt' (show fragments.length < 256 by omega)]
  have hframe : ∀ index ∈ List.range fragments.length,
      slot.frames index = some (fragments.getD index []) := by
    intro index hi
    have hlt := List.mem_range.1 hi
    obtain ⟨data, hdata⟩ := Option.isSome_iff_exists.1 (hall index hlt)
    rw [hdata, List.getD, h.frames index data hdata]
    rfl
  rw [State.datagrams, hcount,
    if_pos (List.all_eq_true.2 fun index hi => hall index (List.mem_range.1 hi))]
  congr 1
  calc (List.range fragments.length).filterMap slot.frames
      = (List.range fragments.length).filterMap fun index => some (fragments.getD index []) :=
        List.filterMap_congr hframe
    _ = (List.range fragments.length).map fun index => fragments.getD index [] :=
        congrFun List.filterMap_eq_map' _
    _ = fragments := List.ext_getElem (by simp) fun index _ hi => by simp [hi]

/-- The message is relayed whole when its last fragment finds every other one. -/
theorem relayPendingUp_whole {header : Header} {slot : PendingRelay} (ht : Tidy s.pending)
    (hslot : retained s.pending header.identity = some slot)
    (hwhole : State.datagrams slot = some fragments) :
    ∃ i, s.relayPendingUp header = ((s.relayAll header fragments).resetSlot i, true) := by
  obtain ⟨i, hi, hkey⟩ := ht.distinct.lookup_eq_some.1 hslot
  refine ⟨i, ?_⟩
  simp only [State.relayPendingUp, ht.distinct.find_eq_some.2 (hi ▸ hkey), hi, hwhole]

/-- What a message that does not open does to the cable, given its slot. -/
theorem unopened_egress {ingress : HubRelay.RadioIngress} {message : RoutedMessage} {data : Bytes}
    {slot : PendingRelay} (ht : Tidy s.pending) (hproto : s.mux.isProtocolled = true)
    (hfragmented : ingress.header.flags.fragmented = true)
    (hslot : retained s.pending message.header.identity = some slot)
    (hwhole : State.datagrams slot = some fragments)
    (htype : message.header.type ≠ .telemetry) (hframes : ∀ frame ∈ fragments, frame ≠ []) :
    (s.unopened ingress data message).mux.egress =
      fragments.foldl
        (fun e frame =>
          (enqueueFrameBytes e (classify message.header.type message.header.objectId) frame).1)
        s.mux.egress := by
  obtain ⟨i, e⟩ := relayPendingUp_whole ht hslot hwhole
  have hcount : (s.unopened ingress data message).mux =
      (s.relayUnopened ingress data message).mux := by
    unfold State.unopened State.countUnauthenticated
    split <;> rfl
  rw [hcount, State.relayUnopened, if_neg (by simp [hproto]), if_pos hfragmented, e]
  exact relayAll_egress htype fragments hframes s hproto

/-- Fragment numbers as the header has them. -/
theorem ofNat_lt_count {i n : Nat} (hi : i < n) (hn : n ≤ kPendingRelayMaxFragments) :
    UInt8.ofNat i < UInt8.ofNat n := by
  have hn : n ≤ 10 := hn
  rw [UInt8.lt_iff_toNat_lt, UInt8.toNat_ofNat_of_lt' (show i < 256 by omega),
    UInt8.toNat_ofNat_of_lt' (show n < 256 by omega)]
  exact hi

/-- The fragment that completes a message finds all its others retained. -/
theorem Keeping.whole (hR : ReceiverLaws E.serial.codec E.receiver)
    (hsized : RadioSized E.serial.codec)
    (hf : FragmentsOf E.serial.codec id type objectId fragments)
    (h : Keeping fragments id base clock s) {d : Datagram} {decoded message : DecodedFrame}
    {n' : E.receiver.Node} {index : Nat} (hlater : NotAfter base clock d.nowMs)
    (hd : E.serial.codec.decode .espNow d.data = .ok decoded)
    (hfrag : IsFragment id type objectId fragments.length index decoded.header)
    (hdata : fragments[index]? = some d.data)
    (hcompletes : E.receiver.receive s.router d.data d.nowMs.toUInt64 = (n', .complete message)) :
    (retainPendingRelay s.pending decoded.header d.data d.nowMs).2 = true ∧
    ∃ slot, retained (retainPendingRelay s.pending decoded.header d.data d.nowMs).1 id = some slot ∧
      State.datagrams slot = some fragments := by
  have hlt : index < fragments.length := (List.getElem?_eq_some_iff.1 hdata).1
  have hfew : fragments.length ≤ 10 := hf.few
  have hseveral : 2 ≤ decoded.header.fragmentCount := by
    rw [hfrag.count, UInt8.le_iff_toNat_le,
      UInt8.toNat_ofNat_of_lt' (show fragments.length < 256 by omega)]
    exact hf.several
  obtain ⟨p, hp, htakes, hothers⟩ :=
    hR.complete_held _ _ _ _ _ decoded hcompletes hd hfrag.fragmented hseveral
  rw [hfrag.identity] at hp
  obtain ⟨live, hlive, hframes⟩ := (h.held p hp).takes h.tidy h.slot hlater htakes
  have hstorable : Storable decoded.header d.data := by
    refine ⟨(hsized d.data decoded hd).2, ?_, ?_⟩
    · rw [hfrag.count, UInt8.toNat_ofNat_of_lt' (show fragments.length < 256 by omega)]
      exact hf.few
    · rw [hfrag.index, hfrag.count]
      exact ofNat_lt_count hlt hf.few
  have hcount : live.fragmentCount = decoded.header.fragmentCount := by
    have hlive := hlive
    rw [retained_expire h.tidy, Option.filter_eq_some_iff] at hlive
    exact (h.slot live hlive.1).count.trans hfrag.count.symm
  have hkept := retain_joins h.tidy hstorable (hfrag.identity ▸ hlive) hcount
  obtain ⟨slot, hslot, hof, -, hframe, hkeeps⟩ := h.retained_own hf hfrag hdata hkept
  refine ⟨hkept, slot, hslot, hof.datagrams_eq hf.few fun other ho => ?_⟩
  rcases eq_or_ne other index with rfl | hne
  · rw [hframe]
    rfl
  · have hnat : (UInt8.ofNat other).toNat = other :=
      UInt8.toNat_ofNat_of_lt' (show other < 256 by omega)
    have hpresent : p.present (UInt8.ofNat other) = true := by
      refine hothers _ ?_ fun hsame => hne ?_
      · rw [htakes.count, hfrag.count]
        exact ofNat_lt_count ho hf.few
      · rw [← hnat, hsame, hfrag.index_toNat hf hdata]
    have := hkeeps live hlive _ (hframes _ hpresent)
    rwa [hnat] at this

theorem Keeping.completes (hR : ReceiverLaws E.serial.codec E.receiver)
    (hsized : RadioSized E.serial.codec)
    (hf : FragmentsOf E.serial.codec id type objectId fragments)
    (h : Keeping fragments id base clock s) {d : Datagram} {message : RoutedMessage}
    (hlater : NotAfter base clock d.nowMs) (hown : Own E.serial.codec id fragments d.data)
    (hcompletes : Completes s d message) (hid : message.header.identity = id)
    (hproto : s.mux.isProtocolled = true) (hunopened : s.tryOpen message = none) :
    (s.processRxDatagram d).mux.egress =
      fragments.foldl (fun e frame => (enqueueFrameBytes e (classify type objectId) frame).1)
        s.mux.egress := by
  obtain ⟨hreceived, -⟩ := submit_routed (Prod.ext rfl hcompletes)
  obtain ⟨decoded, hd, hid', htype, hobject⟩ := hR.agreeing _ _ _ _ _ hreceived
  dsimp only at hid' htype hobject
  obtain ⟨index, hlt, hdata⟩ := List.getElem_of_mem (hown decoded hd (hid'.trans hid))
  replace hdata : fragments[index]? = some d.data := hdata ▸ List.getElem?_eq_getElem hlt
  obtain ⟨decoded', hd', hfrag⟩ := hf.decode index _ hdata
  rw [hd] at hd'
  cases hd'
  have hmay : Channels.dongleMayConsume decoded.header.type decoded.header.objectId = true := by
    rw [hfrag.type, hfrag.objectId, hf.candidate]
  have htype' : message.header.type ≠ .telemetry := by
    rw [← htype, hfrag.type]
    rintro rfl
    simpa [Channels.dongleMayConsume] using hf.candidate
  obtain ⟨hkept, slot, hslot, hwhole⟩ := h.whole hR hsized hf hlater hd hfrag hdata hreceived
  rw [processRxDatagram_candidate s hd hmay]
  have hframe := s.countDatagram.retain_frame d ⟨decoded.header, true⟩
  have hpending := retain_pending s.countDatagram d
    (show HubRelay.RadioIngress.mayConsume ⟨decoded.header, true⟩ = true from rfl)
  obtain ⟨hrefused, -⟩ | ⟨-, e⟩ :=
    reassemble_cases s.countDatagram d ⟨decoded.header, true⟩
  · exact absurd (hkept.symm.trans (hpending.2.symm.trans hrefused)) (by decide)
  have hrouted : (submit E.receiver s.countDatagram.router d.mac d.data d.nowMs.toUInt64).2 =
    .routed message := hcompletes
  rw [e, hrouted]
  generalize (submit E.receiver s.countDatagram.router d.mac d.data d.nowMs.toUInt64).1 = router
  have hkey : (s.countDatagram.retain d ⟨decoded.header, true⟩).1.keyL = s.keyL := by rw [hframe]; rfl
  have hmux : (s.countDatagram.retain d ⟨decoded.header, true⟩).1.mux = s.mux := by rw [hframe]; rfl
  have hmissed : State.tryOpen
      { (s.countDatagram.retain d ⟨decoded.header, true⟩).1 with router } message = none := by
    rw [State.tryOpen] at hunopened ⊢
    rwa [hkey]
  rw [onOutcome_unopened rfl hmissed]
  refine (unopened_egress ?_ ?_ hfrag.fragmented ?_ hwhole htype' ?_).trans ?_
  · exact hpending.1 ▸ retain_tidy h.tidy ..
  · exact hmux ▸ hproto
  · rw [hid]
    exact hpending.1 ▸ hslot
  · intro frame hm hnil
    obtain ⟨i, hi, hget⟩ := List.getElem_of_mem hm
    obtain ⟨decoded', hd', -⟩ := hf.decode i frame (hget ▸ List.getElem?_eq_getElem hi)
    have := (hsized frame decoded' hd').1
    rw [hnil] at this
    cases this
  · rw [hmux, ← htype, ← hobject, hfrag.type, hfrag.objectId]

/-- Every fragment is queued once, and in fragment order. -/
def AllQueued (queued fragments : List Bytes) : Prop :=
  fragments.Sublist queued ∧ ∀ fragment ∈ fragments, queued.count fragment = 1

/-- What the queue of a class keeps of frames it was empty for is all of them just
when they fit. -/
theorem allQueued_iff {cls : PriorityClass} {e : Egress} (hnodup : fragments.Nodup)
    (hsize : ∀ frame ∈ fragments, frame.length ≤ kClassFrameCap cls)
    (hempty : e.queues.frames cls = []) :
    AllQueued ((fragments.foldl (fun e frame => (enqueueFrameBytes e cls frame).1) e).queues.frames
      cls) fragments ↔ fragments.length ≤ kQueueDepth cls := by
  rw [frames_foldl_enqueue hsize hempty]
  constructor
  · rintro ⟨hsub, -⟩
    have := hsub.length_le
    split at this
    · rw [List.length_drop] at this
      omega
    · rw [List.length_take] at this
      omega
  · intro hfits
    have hall : (if evicts cls then fragments.drop (fragments.length - kQueueDepth cls)
        else fragments.take (kQueueDepth cls)) = fragments := by
      split
      · rw [Nat.sub_eq_zero_of_le hfits, List.drop_zero]
      · exact List.take_of_length_le hfits
    rw [hall]
    exact ⟨.refl _, fun fragment hm => List.count_eq_one_of_mem hnodup hm⟩

/-- Nothing of the message is held yet. -/
structure Fresh (id : Identity) (s : State E) : Prop where
  slot : retained s.pending id = none
  held : E.receiver.held s.router id = none

/-- A message of several fragments that completes for the desktop and does not open
is queued whole just when the queue of its class has room for all of them. -/
theorem run_relaysAll (hR : ReceiverLaws E.serial.codec E.receiver)
    (hsized : RadioSized E.serial.codec)
    (hf : FragmentsOf E.serial.codec id type objectId fragments) (s₀ : State E)
    (h₀ : s₀.pending = fun _ => {}) (earlier inputs : List (Input E)) (d : Datagram)
    (message : RoutedMessage) :
    let s := (s₀.run earlier).run inputs
    Fresh id (s₀.run earlier) →
    Receives E.serial.codec id fragments base (datagramsOf inputs ++ [d]) →
    Completes s d message → message.header.identity = id →
    s.mux.isProtocolled = true → (∀ cls, s.mux.egress.queues.frames cls = []) →
    s.tryOpen message = none →
    (AllQueued ((s.processRxDatagram d).mux.egress.queues.frames (classify type objectId))
      fragments ↔ fragments.length ≤ kQueueDepth (classify type objectId)) := by
  intro s hfresh hreceives hcompletes hid hproto hempty hunopened
  have ht : Tidy (s₀.run earlier).pending := run_tidy hR.agreeing (h₀ ▸ init_tidy) earlier
  obtain ⟨clock, hlater, hkeeping⟩ := (Keeping.fresh ht hfresh.slot hfresh.held).run hR hf inputs
    hreceives fun d _ => .start base d.nowMs
  rw [hkeeping.completes hR hsized hf hlater (hreceives.own d (by simp)) hcompletes hid hproto
    hunopened]
  refine allQueued_iff hf.nodup (fun frame hm => ?_) (hempty _)
  obtain ⟨i, hi, hget⟩ := List.getElem_of_mem hm
  obtain ⟨decoded, hd, -⟩ := hf.decode i frame (hget ▸ List.getElem?_eq_getElem hi)
  refine (hsized frame decoded hd).2.trans ?_
  cases classify type objectId <;> decide

/-! ## On the bench -/

theorem benchFragments_of {count : Nat} (h2 : 2 ≤ count) (hcount : count ≤ 10) :
    FragmentsOf bench.serial.codec ⟨9, 1, 1⟩ .control Channels.kManifestDataObjectId
      (benchFragments count) := by
  have hlen : (benchFragments count).length = count := by simp [benchFragments]
  refine ⟨rfl, hlen.symm ▸ h2, hlen.symm ▸ hcount, fun index data hdata => ?_⟩
  rw [hlen]
  rw [benchFragments, List.getElem?_map, Option.map_eq_some_iff] at hdata
  obtain ⟨index', hindex, rfl⟩ := hdata
  obtain ⟨hlt, hget⟩ := List.getElem?_eq_some_iff.1 hindex
  rw [List.getElem_range] at hget
  subst hget
  exact ⟨_, rfl, rfl, rfl, rfl, rfl, rfl, rfl⟩

theorem benchReceived_receives (count : Nat) (d : Datagram) (hd : d.data ∈ benchFragments count)
    (h0 : d.nowMs = 0) (n : Nat) :
    Receives bench.serial.codec ⟨9, 1, 1⟩ (benchFragments count) 0
      (datagramsOf ((benchReceived count).take n) ++ [d]) := by
  have hall : ∀ d' ∈ datagramsOf ((benchReceived count).take n) ++ [d],
      d'.data ∈ benchFragments count ∧ d'.nowMs = 0 := by
    intro d' hm
    rw [List.mem_append, List.mem_singleton] at hm
    obtain hm | rfl := hm
    · obtain ⟨input, hin, hsome⟩ := List.mem_filterMap.1 hm
      obtain ⟨data, hdata, rfl⟩ := List.mem_map.1 (List.mem_of_mem_take hin)
      cases hsome
      exact ⟨hdata, rfl⟩
    · exact ⟨hd, h0⟩
  refine ⟨fun d' hm decoded _ _ => (hall d' hm).1, List.pairwise_of_forall_mem_list fun d₁ h₁ d₂ h₂ => ?_⟩
  rw [(hall d₁ h₁).2, (hall d₂ h₂).2]
  exact .refl 0 0

def benchLast (count : Nat) : Datagram := benchDatagram (benchFragment count (count - 1)) 0

theorem run_relaysAll_two :
    AllQueued
      ((((benchState .active).run ((benchReceived 2).take 1)).processRxDatagram
        (benchLast 2)).mux.egress.queues.frames .logStatus) (benchFragments 2) := by
  refine (run_relaysAll (benchReceiver_laws bench.serial.codec) (benchDecode_sized _ rfl)
    (benchFragments_of (by decide) (by decide)) (benchState .active) rfl []
    ((benchReceived 2).take 1) (benchLast 2) _ ⟨rfl, rfl⟩
    (benchReceived_receives 2 _ (by decide) rfl 1) rfl rfl rfl (fun cls => rfl) rfl).2 (by decide)

theorem relaysAll_seven :
    let s := (benchState .active).run ((benchReceived 7).take 6)
    FragmentsOf bench.serial.codec ⟨9, 1, 1⟩ .control Channels.kManifestDataObjectId
      (benchFragments 7) ∧
    Fresh ⟨9, 1, 1⟩ (benchState .active) ∧
    Receives bench.serial.codec ⟨9, 1, 1⟩ (benchFragments 7) 0
      (datagramsOf ((benchReceived 7).take 6) ++ [benchLast 7]) ∧
    (∃ message, Completes s (benchLast 7) message ∧ message.header.identity = ⟨9, 1, 1⟩ ∧
      s.tryOpen message = none) ∧
    s.mux.isProtocolled = true ∧ (∀ cls, s.mux.egress.queues.frames cls = []) ∧
    ¬ AllQueued ((s.processRxDatagram (benchLast 7)).mux.egress.queues.frames .logStatus)
      (benchFragments 7) := by
  refine ⟨benchFragments_of (by decide) (by decide), ⟨rfl, rfl⟩,
    benchReceived_receives 7 _ (by decide) rfl 6, ⟨_, rfl, rfl, rfl⟩, rfl, fun cls => rfl,
    fun ⟨hsub, _⟩ => ?_⟩
  -- the queue keeps six of the seven
  exact absurd hsub.length_le (by decide)

end BallyDongle.EspNowConfig
