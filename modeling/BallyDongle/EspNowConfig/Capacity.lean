import BallyDongle.EspNowConfig.Reception

/-!
# The room retention takes

The table has as many slots as the reassembler. A slot that has not timed out
belongs to a message the reassembler holds (`Mirrors`), so that retention runs
out of slots only when the reassembler does. Two ways to end a message leave its
slot behind, and `Releases` rules them out.
-/

namespace BallyDongle.EspNowConfig

open Btp BtpTransport BtpCommand ProtocolRouter SerialMux

variable {E : Platform} {s s' : State E} {clock now : UInt32} {d : Datagram}

/-! ## Outcomes that free a slot -/

theorem relayPendingUp_releases (ht : Tidy s.pending) (header : Header) :
    retained (s.relayPendingUp header).1.pending header.identity = none := by
  unfold State.relayPendingUp
  cases hi : SlotTable.find PendingRelay.key header.identity s.pending with
  | none => exact SlotTable.lookup_eq_none.2 (SlotTable.find_eq_none.1 hi)
  | some i =>
    have hkey := SlotTable.find_key hi
    dsimp only
    split
    · exact ht.retained_reset hkey
    · rename_i frames _
      have hall := (relayAll_untouched header frames s).pending
      exact Tidy.retained_reset (hall ▸ ht) (hall ▸ hkey)

/-- With a desktop, a message that does not open gives up its slot. -/
theorem unopened_releases (ht : Tidy s.pending) (hproto : s.mux.isProtocolled = true)
    {ingress : HubRelay.RadioIngress} (hf : ingress.header.flags.fragmented = true) (data : Bytes)
    (routed : RoutedMessage) :
    retained (s.unopened ingress data routed).pending routed.header.identity = none := by
  have hcount : (s.unopened ingress data routed).pending =
      (s.relayUnopened ingress data routed).pending := by
    unfold State.unopened State.countUnauthenticated
    split <;> rfl
  have hfreed := relayPendingUp_releases ht routed.header
  rw [hcount, State.relayUnopened, if_neg (by simp [hproto]), if_pos hf]
  generalize s.relayPendingUp routed.header = out at hfreed ⊢
  obtain ⟨s', complete⟩ := out
  cases complete <;> exact hfreed

/-- A message that opened gives up its slot. -/
theorem opened_releases (ht : Tidy s.pending) (d : Datagram) (routed : RoutedMessage)
    (plaintext : Bytes) :
    retained (s.opened d routed plaintext).pending routed.header.identity = none := by
  have hclear : ∀ s' : State E, s'.pending = s.pending →
      retained (s'.clearPending routed.header).pending routed.header.identity = none :=
    fun s' hp => (retained_clear (hp ▸ ht) routed.header _).trans (if_pos rfl)
  have hknown := (remember_quiet (s.note (.opened routed plaintext)) d routed.header).pending
  unfold State.opened
  generalize (s.note (.opened routed plaintext)).remember d routed.header = s₁ at hknown ⊢
  dsimp only
  split
  · rw [(deliver_untouched _ d.mac _).pending]
    exact hclear s₁ hknown
  · exact hclear _ ((noteConsumeRejected_quiet s₁ routed.header).pending.trans hknown)

/-! ## The invariant -/

/-- A slot that has not timed out belongs to a message the reassembler holds, last
heard of at the same time. -/
structure Mirrors (clock : UInt32) (s : State E) : Prop where
  tidy : Tidy s.pending
  heard : ∀ id slot, retained s.pending id = some slot → slot.lastArrivalMs ≤ clock
  held : ∀ id slot, retained s.pending id = some slot → expired clock slot = false →
    ∃ p, E.receiver.held s.router id = some p ∧ p.lastArrivalMs = slot.lastArrivalMs.toUInt64

/-- What has not timed out now had not before. -/
theorem live_earlier {slot : PendingRelay} (hheard : slot.lastArrivalMs ≤ clock)
    (hlater : clock ≤ now) (h : expired now slot = false) : expired clock slot = false := by
  rw [expired, Bool.and_eq_false_iff, decide_eq_false_iff_not] at h ⊢
  refine h.imp_right fun hrecent => ?_
  have hc := UInt32.le_iff_toNat_le.1 hheard
  have hn := UInt32.le_iff_toNat_le.1 hlater
  rw [UInt32.toNat_sub_of_le _ _ hheard]
  rw [UInt32.toNat_sub_of_le _ _ (UInt32.le_trans hheard hlater)] at hrecent
  omega

theorem retained_active {g : PendingRelays} {id : Identity} {slot : PendingRelay} (ht : Tidy g)
    (h : retained g id = some slot) : slot.active = true := by
  obtain ⟨_, _, hkey⟩ := ht.distinct.lookup_eq_some.1 h
  exact (key_eq_some.1 hkey).1

/-- The reassembler agrees that the message has not timed out. -/
theorem recent_of_live {slot : PendingRelay} (hactive : slot.active = true)
    (hheard : slot.lastArrivalMs ≤ now) (h : expired now slot = false) :
    now.toUInt64 - slot.lastArrivalMs.toUInt64 < kReassemblyTimeoutMs.toUInt64 := by
  rw [expired, hactive, Bool.true_and, decide_eq_false_iff_not,
    UInt32.toNat_sub_of_le _ _ hheard] at h
  have hle := UInt32.le_iff_toNat_le.1 hheard
  have hwide : slot.lastArrivalMs.toUInt64 ≤ now.toUInt64 := by
    rw [UInt64.le_iff_toNat_le, UInt32.toNat_toUInt64, UInt32.toNat_toUInt64]
    exact hle
  rw [UInt64.lt_iff_toNat_lt, UInt64.toNat_sub_of_le _ _ hwide, UInt32.toNat_toUInt64,
    UInt32.toNat_toUInt64]
  exact Nat.not_le.1 h

/-- Each slot is one from before, whose message the reassembler kept if it had not
timed out, or it was heard of now. -/
theorem Mirrors.step_of (h : Mirrors clock s) (hlater : clock ≤ now) (ht : Tidy s'.pending)
    (hslot : ∀ id slot, retained s'.pending id = some slot →
      retained s.pending id = some slot ∧
        (expired now slot = false → ∀ p, E.receiver.held s.router id = some p →
          now.toUInt64 - p.lastArrivalMs < kReassemblyTimeoutMs.toUInt64 →
          E.receiver.held s'.router id = some p) ∨
      slot.lastArrivalMs = now ∧
        ∃ p, E.receiver.held s'.router id = some p ∧ p.lastArrivalMs = now.toUInt64) :
    Mirrors now s' := by
  refine ⟨ht, fun id slot hs => ?_, fun id slot hs hlive => ?_⟩
  · obtain ⟨hbefore, -⟩ | ⟨hnow, -⟩ := hslot id slot hs
    · exact UInt32.le_trans (h.heard id slot hbefore) hlater
    · exact hnow ▸ UInt32.le_refl _
  · obtain ⟨hbefore, hkept⟩ | ⟨hnow, hheld⟩ := hslot id slot hs
    · have hheard := h.heard id slot hbefore
      obtain ⟨p, hp, hlast⟩ := h.held id slot hbefore (live_earlier hheard hlater hlive)
      refine ⟨p, hkept hlive p hp ?_, hlast⟩
      rw [hlast]
      exact recent_of_live (retained_active h.tidy hbefore) (UInt32.le_trans hheard hlater) hlive
    · rwa [hnow]

theorem Mirrors.untouched (h : Mirrors clock s) (hlater : clock ≤ now) (hu : Untouched s s') :
    Mirrors now s' := by
  refine h.step_of hlater (hu.pending ▸ h.tidy) fun id slot hs => .inl ⟨hu.pending ▸ hs, ?_⟩
  intro _ p hp _
  rwa [hu.router]

/-! ## A datagram -/

/-- What a datagram may not do, for the table to keep in step: complete a candidate
of several datagrams that does not open when no desktop takes it, or bear the
identity of a retained message without being a candidate. -/
structure Releases (s : State E) (d : Datagram) : Prop where
  taken : ∀ decoded message, E.serial.codec.decode .espNow d.data = .ok decoded →
    Channels.dongleMayConsume decoded.header.type decoded.header.objectId = true →
    decoded.header.flags.fragmented = true →
    (retainPendingRelay s.pending decoded.header d.data d.nowMs).2 = true →
    Completes s d message → s.tryOpen message = none → s.mux.isProtocolled = true
  own : ∀ decoded slot, E.serial.codec.decode .espNow d.data = .ok decoded →
    Channels.dongleMayConsume decoded.header.type decoded.header.objectId = false →
    decoded.header.flags.fragmented = true → s.mux.isProtocolled = false →
    retained s.pending decoded.header.identity = some slot → expired d.nowMs slot = true

/-- The end of a candidate of several datagrams frees its slot. -/
theorem onOutcome_ends (ht : Tidy s.pending) {ingress : HubRelay.RadioIngress} {outcome : Outcome}
    (hmay : ingress.mayConsume = true) (hf : ingress.header.flags.fragmented = true)
    (hid : ∀ routed, outcome = .routed routed → routed.header.identity = ingress.header.identity)
    (htaken : ∀ routed, outcome = .routed routed → s.tryOpen routed = none →
      s.mux.isProtocolled = true)
    (hend : outcome = .droppedReassembly ∨ ∃ routed, outcome = .routed routed) :
    retained (s.onOutcome d ingress outcome).pending ingress.header.identity = none := by
  obtain rfl | ⟨routed, rfl⟩ := hend
  · rw [State.onOutcome, if_pos hmay]
    exact (retained_clear ht ingress.header _).trans (if_pos rfl)
  · rw [← hid routed rfl]
    cases hopen : s.tryOpen routed with
    | none =>
      rw [onOutcome_unopened hmay hopen]
      exact unopened_releases ht (htaken routed rfl hopen) hf d.data routed
    | some plaintext =>
      rw [State.onOutcome, if_pos hmay, hopen]
      exact opened_releases ht d routed plaintext

/-- What the reassembler held and had not timed out it keeps, unless the datagram is
a fragment of it. -/
theorem submit_keeps (hS : SlotLaws E.serial.codec E.receiver) {id : Identity} {p : Partial}
    {decoded : DecodedFrame} (hd : E.serial.codec.decode .espNow d.data = .ok decoded)
    (hother : decoded.header.flags.fragmented = true → decoded.header.identity ≠ id)
    (hp : E.receiver.held s.router id = some p)
    (hrecent : d.nowMs.toUInt64 - p.lastArrivalMs < kReassemblyTimeoutMs.toUInt64) :
    E.receiver.held (submit E.receiver s.router d.mac d.data d.nowMs.toUInt64).1 id = some p := by
  obtain e | e := submit_cases E.receiver s.router d.mac d.data d.nowMs.toUInt64
  · rwa [e]
  · rw [e]
    refine hS.keeps s.router d.data _ id p hp hrecent fun decoded' hd' => ?_
    rw [hd] at hd'
    cases hd'
    exact hother

/-- A fragment that neither ends its message nor is dropped is held. -/
theorem submit_stored (hS : SlotLaws E.serial.codec E.receiver)
    (hsized : RadioSized E.serial.codec) {decoded : DecodedFrame}
    (hd : E.serial.codec.decode .espNow d.data = .ok decoded)
    (hdrop : (submit E.receiver s.router d.mac d.data d.nowMs.toUInt64).2 ≠ .droppedReassembly)
    (hrouted : ∀ routed,
      (submit E.receiver s.router d.mac d.data d.nowMs.toUInt64).2 ≠ .routed routed) :
    ∃ p, E.receiver.held (submit E.receiver s.router d.mac d.data d.nowMs.toUInt64).1
        decoded.header.identity = some p ∧ p.lastArrivalMs = d.nowMs.toUInt64 := by
  have hdata : d.data ≠ [] := by
    intro hnil
    have := (hsized d.data decoded hd).1
    rw [hnil] at this
    cases this
  rw [submit_of_ne_nil _ _ _ _ hdata] at hdrop hrouted ⊢
  have hdecodes := hS.decodes s.router d.data d.nowMs.toUInt64 decoded hd
  refine hS.stored s.router d.data d.nowMs.toUInt64 decoded hd ?_
  generalize (E.receiver.receive s.router d.data d.nowMs.toUInt64).2 = outcome at *
  cases outcome with
  | fragmentAccepted | duplicateFragment => simp
  | droppedCrc | droppedDecode | invalidArgument => simp at hdecodes
  | droppedReassembly => exact absurd rfl hdrop
  | complete message => exact absurd rfl (hrouted _)

/-- Of a message that no fragment was retained of just now, the table has what it
had, or less. -/
theorem retain_before (ht : Tidy s.pending) {ingress : HubRelay.RadioIngress} {id : Identity}
    (hnot : (s.retain d ingress).2 = true → ingress.mayConsume = true →
      ingress.header.flags.fragmented = true → ingress.header.identity ≠ id)
    {slot : PendingRelay} (hs : retained (s.retain d ingress).1.pending id = some slot) :
    retained s.pending id = some slot := by
  by_cases hid : ingress.header.identity = id
  · subst hid
    cases hmay : ingress.mayConsume with
    | false =>
      rw [State.retain, if_neg (by simp [hmay])] at hs
      exact hs
    | true =>
      obtain ⟨hpending, hkept⟩ := retain_pending s d hmay
      rw [hpending] at hs
      cases hf : ingress.header.flags.fragmented with
      | false =>
        rw [retain_whole hf] at hs
        exact hs
      | true =>
        have hrefused : (s.retain d ingress).2 = false :=
          Bool.eq_false_iff.2 fun hr => hnot hr hmay hf rfl
        rw [hkept] at hrefused
        obtain e | ⟨e, -⟩ := retained_retain_false ht hrefused <;> rw [e] at hs
        · exact hs
        · cases hs
  · obtain e | e := retain_other ht d hid <;> rw [e] at hs
    · exact hs
    · rw [retained_expire ht, Option.filter_eq_some_iff] at hs
      exact hs.1

theorem Mirrors.received (hR : ReceiverLaws E.serial.codec E.receiver)
    (hS : SlotLaws E.serial.codec E.receiver) (hsized : RadioSized E.serial.codec)
    (h : Mirrors clock s) (hlater : clock ≤ d.nowMs) (hreleases : Releases s d) :
    Mirrors d.nowMs (s.processRxDatagram d) := by
  obtain hu | ⟨decoded, ingress, hd, hheader, hmay, hfast, e⟩ := processRxDatagram_cases s d
  · exact h.untouched hlater hu
  rw [e]
  have hcount : Untouched s s.countDatagram := ⟨rfl, rfl⟩
  replace h : Mirrors clock s.countDatagram := h.untouched (UInt32.le_refl _) hcount
  replace hreleases : Releases s.countDatagram d := ⟨hreleases.taken, hreleases.own⟩
  replace hfast : ingress.mayConsume = false → s.countDatagram.mux.isProtocolled = false := hfast
  generalize s.countDatagram = s at h hreleases hfast ⊢
  have hframe := s.retain_frame d ingress
  have htidy := tidy_retain h.tidy d ingress
  obtain ⟨hrefused, e⟩ | ⟨hkept, e⟩ := reassemble_cases s d ingress <;> rw [e]
  · -- refused by the table
    refine h.step_of hlater htidy fun id slot hs => .inl ⟨?_, fun _ p hp _ => ?_⟩
    · refine retain_before h.tidy (fun hr => ?_) hs
      rw [hrefused] at hr
      cases hr
    · rw [State.dropReassembly, hframe]
      exact hp
  have hid : ∀ routed, (submit E.receiver s.router d.mac d.data d.nowMs.toUInt64).2 =
      .routed routed → routed.header.identity = ingress.header.identity := by
    intro routed hrouted
    rw [hheader]
    exact (hR.agreeing.submit_routed hd hrouted).1
  have hforget := onOutcome_forgets (s := { (s.retain d ingress).1 with
    router := (submit E.receiver s.router d.mac d.data d.nowMs.toUInt64).1 }) htidy d hid
  refine h.step_of hlater hforget.tidy fun id slot hs => ?_
  by_cases hown : ingress.mayConsume = true ∧ ingress.header.flags.fragmented = true ∧
      ingress.header.identity = id
  · -- a fragment of the message was retained
    obtain ⟨hmay', hf, rfl⟩ := hown
    obtain ⟨hpending, hkept'⟩ := retain_pending s d hmay'
    by_cases hend : (submit E.receiver s.router d.mac d.data d.nowMs.toUInt64).2 =
        .droppedReassembly ∨
        ∃ routed, (submit E.receiver s.router d.mac d.data d.nowMs.toUInt64).2 = .routed routed
    · have hfreed := onOutcome_ends (d := d) (s := { (s.retain d ingress).1 with
        router := (submit E.receiver s.router d.mac d.data d.nowMs.toUInt64).1 }) htidy hmay' hf hid
        (fun routed hrouted hmissed => ?_) hend
      · rw [hfreed] at hs
        cases hs
      · have hmux : (s.retain d ingress).1.mux = s.mux := by rw [hframe]
        have hmissed : s.tryOpen routed = none := by
          rw [State.tryOpen] at hmissed ⊢
          rwa [hframe] at hmissed
        refine (congrArg Mux.isProtocolled hmux).trans ?_
        exact hreleases.taken decoded routed hd (hmay ▸ hmay') (hheader ▸ hf)
          (hheader ▸ hkept' ▸ hkept) hrouted hmissed
    · rw [not_or, not_exists] at hend
      right
      rw [(onOutcome_untouched _ d ingress hend.1 hend.2).pending] at hs
      obtain ⟨before, -, -, hstored⟩ := retained_retain_true h.tidy hf (hkept' ▸ hkept)
      have hs : retained (s.retain d ingress).1.pending ingress.header.identity = some slot := hs
      rw [hpending, hstored] at hs
      cases hs
      refine ⟨rfl, ?_⟩
      rw [(onOutcome_untouched _ d ingress hend.1 hend.2).router, hheader]
      exact submit_stored hS hsized hd hend.1 hend.2
  · -- what is left of the slot was there before
    left
    have hs₂ : retained (s.retain d ingress).1.pending id = some slot := by
      by_cases he : ingress.header.identity = id
      · subst he
        obtain e | e := hforget.self <;> rw [e] at hs
        · exact hs
        · cases hs
      · rw [hforget.other id (Ne.symm he)] at hs
        exact hs
    have hbefore := retain_before h.tidy (fun _ hm hf he => hown ⟨hm, hf, he⟩) hs₂
    refine ⟨hbefore, fun hlive p hp hrecent => ?_⟩
    rw [hforget.router]
    refine submit_keeps hS hd (fun hf he => ?_) hp hrecent
    -- a fragment of the message that is no candidate
    have hno : ingress.mayConsume = false :=
      Bool.eq_false_iff.2 fun hm => hown ⟨hm, hheader ▸ hf, hheader ▸ he⟩
    have := hreleases.own decoded slot hd (hmay ▸ hno) hf (hfast hno) (he ▸ hbefore)
    rw [hlive] at this
    cases this

/-! ## A run -/

/-- A step that leaves no slot behind. -/
def Input.Releases (s : State E) : Input E → Prop
  | .received d => EspNowConfig.Releases s d
  | .elsewhere _ _ => True

theorem Mirrors.run (hR : ReceiverLaws E.serial.codec E.receiver)
    (hS : SlotLaws E.serial.codec E.receiver) (hsized : RadioSized E.serial.codec)
    (inputs : List (Input E)) (h : Mirrors clock s)
    (hreleases : AllSteps Input.Releases s inputs)
    (hpaced : (clock :: (datagramsOf inputs).map Datagram.nowMs ++ [now]).Pairwise (· ≤ ·)) :
    Mirrors now (s.run inputs) := by
  induction inputs generalizing s clock with
  | nil =>
    have hlater : clock ≤ now := by simpa [datagramsOf] using hpaced
    exact h.untouched hlater (.refl s)
  | cons input inputs ih =>
    obtain ⟨hstep, hrest⟩ := hreleases
    cases input with
    | elsewhere dongle queues =>
      have hu : Untouched s (s.step (.elsewhere dongle queues)) := ⟨rfl, rfl⟩
      exact ih (h.untouched (UInt32.le_refl _) hu) hrest hpaced
    | received d =>
      obtain ⟨hfirst, hpaced⟩ := List.pairwise_cons.1 hpaced
      exact ih (h.received hR hS hsized (hfirst d.nowMs (.head _)) hstep) hrest hpaced

/-- Every slot of the reassembler has another message, one that has not timed out. -/
def Full (R : ReceiverApi) (n : R.Node) (id : Identity) (now : UInt32) : Prop :=
  ∃ others : Fin kSlotCount → Identity, Function.Injective others ∧
    ∀ i, others i ≠ id ∧ ∃ p, R.held n (others i) = some p ∧
      now.toUInt64 - p.lastArrivalMs < kReassemblyTimeoutMs.toUInt64

/-- Retention has no slot for the message `id`: none is its own and none is free. -/
def LacksSlot (g : PendingRelays) (id : Identity) (now : UInt32) : Prop :=
  SlotTable.find PendingRelay.key id (expirePendingRelays g now) = none ∧
    SlotTable.free PendingRelay.key (expirePendingRelays g now) = none

theorem Mirrors.full (h : Mirrors now s) {id : Identity} (hlacks : LacksSlot s.pending id now) :
    Full E.receiver s.router id now := by
  obtain ⟨hfind, hfree⟩ := hlacks
  have htidy := expirePendingRelays_tidy h.tidy now
  have hkey : ∀ i, ∃ other, (expirePendingRelays s.pending now i).key = some other :=
    fun i => Option.isSome_iff_exists.1 (SlotTable.free_eq_none.1 hfree i)
  choose others hothers using hkey
  refine ⟨others, fun i j hij => htidy.distinct (hothers i) (hij ▸ hothers j), fun i => ⟨?_, ?_⟩⟩
  · rintro rfl
    exact SlotTable.find_eq_none.1 hfind i (hothers i)
  · have hs : retained (expirePendingRelays s.pending now) (others i) = some _ :=
      htidy.distinct.lookup_eq_some.2 ⟨i, rfl, hothers i⟩
    rw [retained_expire h.tidy, Option.filter_eq_some_iff] at hs
    obtain ⟨hs, hlive⟩ := hs
    rw [Bool.not_eq_true'] at hlive
    obtain ⟨p, hp, hlast⟩ := h.held _ _ hs hlive
    refine ⟨p, hp, ?_⟩
    rw [hlast]
    exact recent_of_live (retained_active h.tidy hs) (h.heard _ _ hs) hlive

/-- In a run whose steps leave no slot behind, a slot that has not timed out belongs
to a message the reassembler holds, and retention lacks a slot for a message only
when the reassembler is full of others. -/
theorem run_mirrors (hR : ReceiverLaws E.serial.codec E.receiver)
    (hS : SlotLaws E.serial.codec E.receiver) (hsized : RadioSized E.serial.codec) (s₀ : State E)
    (h₀ : s₀.pending = fun _ => {}) (inputs : List (Input E))
    (hreleases : AllSteps Input.Releases s₀ inputs) (now : UInt32)
    (hpaced : ((datagramsOf inputs).map Datagram.nowMs ++ [now]).Pairwise (· ≤ ·)) :
    let s := s₀.run inputs
    (∀ id slot, retained s.pending id = some slot → expired now slot = false →
      ∃ p, E.receiver.held s.router id = some p) ∧
    ∀ id, LacksSlot s.pending id now → Full E.receiver s.router id now := by
  intro s
  have hinit : Mirrors 0 s₀ := by
    have hnone : ∀ id, retained s₀.pending id = none := by
      intro id
      rw [h₀]
      exact SlotTable.lookup_eq_none.2 fun _ => nofun
    refine ⟨h₀ ▸ init_tidy, fun id slot hs => ?_, fun id slot hs => ?_⟩ <;>
      · rw [hnone] at hs
        cases hs
  have hmirrors := hinit.run hR hS hsized inputs hreleases
    (List.pairwise_cons.2 ⟨fun _ _ => UInt32.zero_le, hpaced⟩)
  refine ⟨fun id slot hs hlive => ?_, fun id hlacks => hmirrors.full hlacks⟩
  obtain ⟨p, hp, -⟩ := hmirrors.held id slot hs hlive
  exact ⟨p, hp⟩

/-- A message that completes for the desktop gives its slot up, and one on its way has
one. -/
theorem run_mirrors_bench :
    let s := (benchState .active).run (benchReceived 2 ++ (benchReceived 2).take 1)
    (∃ slot, retained s.pending ⟨9, 1, 1⟩ = some slot ∧ expired 0 slot = false ∧
      ∃ p, bench.receiver.held s.router ⟨9, 1, 1⟩ = some p) ∧
    ∀ id, LacksSlot s.pending id 0 → Full bench.receiver s.router id 0 := by
  have hreleases : AllSteps Input.Releases (benchState .active)
      (benchReceived 2 ++ (benchReceived 2).take 1) := by
    refine ⟨⟨fun _ _ _ _ _ _ _ _ => rfl, ?_⟩, ⟨fun _ _ _ _ _ _ _ _ => rfl, ?_⟩,
      ⟨fun _ _ _ _ _ _ _ _ => rfl, ?_⟩, trivial⟩ <;>
    · intro decoded slot hd hno
      cases hd
      cases hno
  obtain ⟨hheld, hfull⟩ := run_mirrors (benchReceiver_laws bench.serial.codec)
    (benchReceiver_slotLaws _) (benchDecode_sized _ rfl) (benchState .active) rfl _ hreleases 0
    (by decide)
  exact ⟨⟨_, rfl, rfl, hheld _ _ rfl rfl⟩, hfull⟩

/-- With the console in charge, the slot outlives its message. -/
theorem unopened_keeps_slot :
    let s := (benchState .idle).run (benchReceived 2)
    ∃ slot, retained s.pending ⟨9, 1, 1⟩ = some slot ∧ expired 0 slot = false ∧
      bench.receiver.held s.router ⟨9, 1, 1⟩ = none :=
  ⟨_, rfl, rfl, rfl⟩

end BallyDongle.EspNowConfig
