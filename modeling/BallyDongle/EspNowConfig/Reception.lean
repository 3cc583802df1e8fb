import BallyDongle.EspNowConfig.Authenticated

/-!
# What a datagram leaves alone

The handlers touch neither the retention table nor the reassembler, and an
outcome forgets its own message at most. The clock of a reception is read from
where it started, so that a wrap of its 32 bits does not show.
-/

namespace BallyDongle.EspNowConfig

open Btp BtpTransport BtpCommand ProtocolRouter SerialMux

variable {E : Platform} {s s' s'' : State E}

/-! ## What the handlers leave alone -/

/-- Neither the table nor the reassembler moved. -/
structure Untouched (s s' : State E) : Prop where
  pending : s'.pending = s.pending
  router : s'.router = s.router

theorem Untouched.refl (s : State E) : Untouched s s := ⟨rfl, rfl⟩

theorem Untouched.trans (h : Untouched s s') (h' : Untouched s' s'') : Untouched s s'' :=
  ⟨h'.pending.trans h.pending, h'.router.trans h.router⟩

/-- Nor did the counters and the queues of routed messages. -/
structure Quiet (s s' : State E) : Prop extends Untouched s s' where
  totals : s'.totals = s.totals
  queues : s'.queues = s.queues

theorem Quiet.refl (s : State E) : Quiet s s := ⟨.refl s, rfl, rfl⟩

theorem Quiet.trans (h : Quiet s s') (h' : Quiet s' s'') : Quiet s s'' :=
  ⟨h.toUntouched.trans h'.toUntouched, h'.totals.trans h.totals, h'.queues.trans h.queues⟩

theorem replyCommandResult_quiet (s : State E) (mac : Mac) (header : Header)
    (actionId version : UInt16) (status : Status) (errorCode : ErrorCode) (text : Bytes) :
    Quiet s (s.replyCommandResult mac header actionId version status errorCode text) := by
  unfold State.replyCommandResult
  dsimp only
  split <;> exact ⟨⟨rfl, rfl⟩, rfl, rfl⟩

theorem handleRoutedCommandResult_quiet (s : State E) (mac : Mac) (routed : RoutedMessage) :
    Quiet s (s.handleRoutedCommandResult mac routed) := by
  unfold State.handleRoutedCommandResult
  split
  · exact .refl s
  dsimp only
  split
  · exact ⟨⟨rfl, rfl⟩, rfl, rfl⟩
  split
  · split <;> exact ⟨⟨rfl, rfl⟩, rfl, rfl⟩
  · split <;> exact ⟨⟨rfl, rfl⟩, rfl, rfl⟩

theorem handleRoutedCommandRequest_quiet (s : State E) (mac : Mac) (routed : RoutedMessage) :
    Quiet s (s.handleRoutedCommandRequest mac routed) := by
  unfold State.handleRoutedCommandRequest
  split
  · exact .refl s
  split
  · exact .refl s
  · exact replyCommandResult_quiet s mac _ _ _ _ _ _
  · split
    · exact replyCommandResult_quiet s mac _ _ _ _ _ _
    · rename_i line _
      have hran : Quiet s (s.runLine mac line).1 := ⟨⟨rfl, rfl⟩, rfl, rfl⟩
      exact hran.trans (replyCommandResult_quiet _ mac _ _ _ _ _ _)

theorem handleRoutedCommand_quiet (s : State E) (mac : Mac) (routed : RoutedMessage) :
    Quiet s (s.handleRoutedCommand mac routed) := by
  unfold State.handleRoutedCommand
  split
  · exact handleRoutedCommandResult_quiet s mac routed
  split
  · exact handleRoutedCommandRequest_quiet s mac routed
  · exact .refl s

theorem handleControlItem_quiet (s : State E) (routed : RoutedMessage) :
    Quiet s (s.handleControlItem routed) := by
  unfold State.handleControlItem
  split <;> exact ⟨⟨rfl, rfl⟩, rfl, rfl⟩

theorem primeManifestIfNeeded_quiet (s : State E) (mac : Mac) (header : Header) :
    Quiet s (s.primeManifestIfNeeded mac header) := by
  unfold State.primeManifestIfNeeded
  split
  · exact .refl s
  · dsimp only
    split <;> exact ⟨⟨rfl, rfl⟩, rfl, rfl⟩

theorem remember_quiet (s : State E) (d : Datagram) (header : Header) :
    Quiet s (s.remember d header) := by
  unfold State.remember
  dsimp only
  split
  · exact ⟨⟨rfl, rfl⟩, rfl, rfl⟩
  · split <;> exact ⟨⟨rfl, rfl⟩, rfl, rfl⟩

theorem noteConsumeRejected_quiet (s : State E) (header : Header) :
    Quiet s (s.noteConsumeRejected header) := by
  unfold State.noteConsumeRejected
  split <;> exact ⟨⟨rfl, rfl⟩, rfl, rfl⟩

theorem enqueueRouted_untouched (s : State E) (queue : Option QueueId) (routed : RoutedMessage) :
    Untouched s (s.enqueueRouted queue routed) := by
  unfold State.enqueueRouted
  split
  · exact .refl s
  · split
    · split <;> exact ⟨rfl, rfl⟩
    · exact ⟨rfl, rfl⟩

theorem deliver_untouched (s : State E) (mac : Mac) (routed : RoutedMessage) :
    Untouched s (s.deliver mac routed) := by
  refine (primeManifestIfNeeded_quiet s mac routed.header).toUntouched.trans ?_
  unfold State.deliver State.dispatchRouted
  generalize s.primeManifestIfNeeded mac routed.header = s
  have hcount : Untouched s (s.countRouted routed.header.type) := ⟨rfl, rfl⟩
  refine hcount.trans ?_
  generalize s.countRouted routed.header.type = s
  dsimp only
  split
  · exact (handleRoutedCommand_quiet s mac routed).toUntouched
  · exact (handleControlItem_quiet s routed).toUntouched
  · exact enqueueRouted_untouched s _ routed

theorem relayAll_untouched (header : Header) (frames : List Bytes) (s : State E) :
    Untouched s (s.relayAll header frames) := by
  induction frames generalizing s with
  | nil => exact .refl s
  | cons frame frames ih =>
    have hrelay : Untouched s (s.relayUp header frame) := ⟨rfl, rfl⟩
    exact hrelay.trans (ih _)

/-! ## What an outcome forgets -/

/-- The reassembler kept, and of the table at most the message `id` cleared. -/
structure Forgets (id : Identity) (s s' : State E) : Prop where
  router : s'.router = s.router
  tidy : Tidy s'.pending
  other : ∀ other, other ≠ id → retained s'.pending other = retained s.pending other
  self : retained s'.pending id = retained s.pending id ∨ retained s'.pending id = none

theorem Untouched.forgets (h : Untouched s s') (ht : Tidy s.pending) (id : Identity) :
    Forgets id s s' :=
  ⟨h.router, h.pending ▸ ht, fun _ _ => by rw [h.pending], .inl (by rw [h.pending])⟩

theorem clearPending_forgets (ht : Tidy s.pending) (header : Header) :
    Forgets header.identity s (s.clearPending header) where
  router := rfl
  tidy := clearPendingRelay_tidy ht header
  other _ hne := (retained_clear ht header _).trans (if_neg hne.symm)
  self := .inr ((retained_clear ht header _).trans (if_pos rfl))

theorem Forgets.trans {id : Identity} (h : Forgets id s s') (h' : Forgets id s' s'') :
    Forgets id s s'' where
  router := h'.router.trans h.router
  tidy := h'.tidy
  other other hne := (h'.other other hne).trans (h.other other hne)
  self := by
    rcases h'.self with e | e
    · rw [e]; exact h.self
    · exact .inr e

theorem resetSlot_forgets (ht : Tidy s.pending) {header : Header} {i : Fin kPendingRelaySlots}
    (hi : SlotTable.find PendingRelay.key header.identity s.pending = some i) :
    Forgets header.identity s (s.resetSlot i) := by
  have hclear := clearPending_forgets ht header
  rwa [State.clearPending, clearPendingRelay, hi] at hclear

theorem relayPendingUp_forgets (ht : Tidy s.pending) (header : Header) :
    Forgets header.identity s (s.relayPendingUp header).1 := by
  unfold State.relayPendingUp
  cases hi : SlotTable.find PendingRelay.key header.identity s.pending with
  | none => exact (Untouched.refl s).forgets ht _
  | some i =>
    dsimp only
    split
    · exact resetSlot_forgets ht hi
    · rename_i frames _
      have hall := relayAll_untouched header frames s
      have hf := hall.forgets ht header.identity
      exact hf.trans (resetSlot_forgets hf.tidy (by rw [hall.pending, hi]))

theorem unopened_forgets (ht : Tidy s.pending) (ingress : HubRelay.RadioIngress) (data : Bytes)
    (routed : RoutedMessage) :
    Forgets routed.header.identity s (s.unopened ingress data routed) := by
  have hrelay : Forgets routed.header.identity s (s.relayUnopened ingress data routed) := by
    unfold State.relayUnopened
    split
    · exact (Untouched.refl s).forgets ht _
    split
    · have h := relayPendingUp_forgets ht routed.header
      generalize s.relayPendingUp routed.header = out at h ⊢
      obtain ⟨s', complete⟩ := out
      cases complete
      · have hdrop : Untouched s' s'.dropReassembly := ⟨rfl, rfl⟩
        exact h.trans (hdrop.forgets h.tidy _)
      · exact h
    · have hup : Untouched s (s.relayUp ingress.header data) := ⟨rfl, rfl⟩
      exact hup.forgets ht _
  refine hrelay.trans ?_
  have hcount : Untouched (s.relayUnopened ingress data routed)
      (s.unopened ingress data routed) := by
    unfold State.unopened State.countUnauthenticated
    split <;> exact ⟨rfl, rfl⟩
  exact hcount.forgets hrelay.tidy _

theorem opened_forgets (ht : Tidy s.pending) (d : Datagram) (routed : RoutedMessage)
    (plaintext : Bytes) : Forgets routed.header.identity s (s.opened d routed plaintext) := by
  have hknown : Untouched s ((s.note (.opened routed plaintext)).remember d routed.header) := by
    have hnote : Untouched s (s.note (.opened routed plaintext)) := ⟨rfl, rfl⟩
    exact hnote.trans (remember_quiet _ d routed.header).toUntouched
  have hf := hknown.forgets ht routed.header.identity
  unfold State.opened
  generalize (s.note (.opened routed plaintext)).remember d routed.header = s₁ at hf ⊢
  dsimp only
  split
  · have hclear := clearPending_forgets hf.tidy routed.header
    refine (hf.trans hclear).trans ?_
    exact (deliver_untouched _ d.mac _).forgets hclear.tidy _
  · have hr := (noteConsumeRejected_quiet s₁ routed.header).forgets hf.tidy routed.header.identity
    exact (hf.trans hr).trans (clearPending_forgets hr.tidy routed.header)

theorem onOutcome_forgets (ht : Tidy s.pending) (d : Datagram) {ingress : HubRelay.RadioIngress}
    {outcome : Outcome}
    (hid : ∀ routed, outcome = .routed routed → routed.header.identity = ingress.header.identity) :
    Forgets ingress.header.identity s (s.onOutcome d ingress outcome) := by
  have hkept : ∀ {s'}, Untouched s s' → Forgets ingress.header.identity s s' :=
    fun h => h.forgets ht _
  unfold State.onOutcome
  split
  · exact hkept ⟨rfl, rfl⟩
  · exact hkept ⟨rfl, rfl⟩
  · have hdrop : ∀ s' : State E, Untouched s' s'.dropReassembly := fun _ => ⟨rfl, rfl⟩
    split
    · have hclear := clearPending_forgets ht ingress.header
      exact hclear.trans ((hdrop _).forgets hclear.tidy _)
    · exact hkept (hdrop s)
  · exact hkept ⟨rfl, rfl⟩
  · exact hkept (.refl s)
  · exact hkept (.refl s)
  · rename_i routed
    rw [← hid routed rfl]
    split
    · split
      · exact unopened_forgets ht ingress d.data routed
      · exact opened_forgets ht d routed _
    · exact (deliver_untouched s d.mac routed).forgets ht _

theorem onOutcome_untouched (s : State E) (d : Datagram) (ingress : HubRelay.RadioIngress)
    {outcome : Outcome} (hdrop : outcome ≠ .droppedReassembly)
    (hrouted : ∀ routed, outcome ≠ .routed routed) :
    Untouched s (s.onOutcome d ingress outcome) := by
  unfold State.onOutcome
  split
  · exact ⟨rfl, rfl⟩
  · exact ⟨rfl, rfl⟩
  · exact absurd rfl hdrop
  · exact ⟨rfl, rfl⟩
  · exact .refl s
  · exact .refl s
  · exact absurd rfl (hrouted _)

theorem onOutcome_unopened {d : Datagram} {ingress : HubRelay.RadioIngress}
    {routed : RoutedMessage} (hmay : ingress.mayConsume = true) (h : s.tryOpen routed = none) :
    s.onOutcome d ingress (.routed routed) = s.unopened ingress d.data routed := by
  rw [State.onOutcome, if_pos hmay, h]

/-! ## A datagram -/

/-- A datagram that is not reassembled leaves both alone. -/
theorem processRxDatagram_cases (s : State E) (d : Datagram) :
    Untouched s (s.processRxDatagram d) ∨
    ∃ decoded ingress, E.serial.codec.decode .espNow d.data = .ok decoded ∧
      ingress.header = decoded.header ∧
      ingress.mayConsume =
        Channels.dongleMayConsume decoded.header.type decoded.header.objectId ∧
      (ingress.mayConsume = false → s.mux.isProtocolled = false) ∧
      s.processRxDatagram d = s.countDatagram.reassemble d ingress := by
  unfold State.processRxDatagram
  dsimp only
  split
  · exact .inl ⟨rfl, rfl⟩
  · exact .inl ⟨rfl, rfl⟩
  · rename_i ingress hingress
    obtain ⟨decoded, hd, hheader, hmay⟩ := classifyRadio_ok hingress
    split
    · exact .inl ⟨rfl, rfl⟩
    · rename_i hfast
      refine .inr ⟨decoded, ingress, hd, hheader, hmay, fun hno => ?_, rfl⟩
      rw [hno, Bool.not_false, Bool.true_and] at hfast
      exact Bool.not_eq_true _ ▸ hfast

/-- A candidate is reassembled, session or none. -/
theorem processRxDatagram_candidate (s : State E) {d : Datagram} {decoded : DecodedFrame}
    (hd : E.serial.codec.decode .espNow d.data = .ok decoded)
    (hmay : Channels.dongleMayConsume decoded.header.type decoded.header.objectId = true) :
    s.processRxDatagram d =
      s.countDatagram.reassemble d { header := decoded.header, mayConsume := true } := by
  have hclass : HubRelay.classifyRadio E.serial.codec d.data =
      .ok { header := decoded.header, mayConsume := true } := by
    rw [HubRelay.classifyRadio, hd, Except.map, hmay]
  rw [State.processRxDatagram]
  simp only [hclass, Bool.not_true, Bool.false_and, Bool.false_eq_true, if_false]

/-- Refused by the table, or given to the reassembler. -/
theorem reassemble_cases (s : State E) (d : Datagram) (ingress : HubRelay.RadioIngress) :
    (s.retain d ingress).2 = false ∧
        s.reassemble d ingress = (s.retain d ingress).1.dropReassembly ∨
      (s.retain d ingress).2 = true ∧
        s.reassemble d ingress =
          State.onOutcome
            { (s.retain d ingress).1 with
              router := (submit E.receiver s.router d.mac d.data d.nowMs.toUInt64).1 }
            d ingress (submit E.receiver s.router d.mac d.data d.nowMs.toUInt64).2 := by
  have hframe := s.retain_frame d ingress
  unfold State.reassemble
  generalize s.retain d ingress = out at hframe ⊢
  obtain ⟨s₁, kept⟩ := out
  have hrouter := congrArg State.router hframe
  dsimp only at hrouter
  cases kept with
  | false => exact .inl ⟨rfl, rfl⟩
  | true => exact .inr ⟨rfl, by rw [← hrouter]⟩

theorem retain_pending (s : State E) (d : Datagram) {ingress : HubRelay.RadioIngress}
    (h : ingress.mayConsume = true) :
    (s.retain d ingress).1.pending = (retainPendingRelay s.pending ingress.header d.data d.nowMs).1 ∧
      (s.retain d ingress).2 = (retainPendingRelay s.pending ingress.header d.data d.nowMs).2 := by
  rw [State.retain, if_pos h]
  exact ⟨rfl, rfl⟩

theorem tidy_retain (ht : Tidy s.pending) (d : Datagram) (ingress : HubRelay.RadioIngress) :
    Tidy (s.retain d ingress).1.pending := by
  unfold State.retain
  split
  · exact retain_tidy ht ..
  · exact ht

/-- Of another message, retaining forgets at most what timed out. -/
theorem retain_other (ht : Tidy s.pending) (d : Datagram) {ingress : HubRelay.RadioIngress}
    {id : Identity} (hid : ingress.header.identity ≠ id) :
    retained (s.retain d ingress).1.pending id = retained s.pending id ∨
      retained (s.retain d ingress).1.pending id =
        retained (expirePendingRelays s.pending d.nowMs) id := by
  cases h : ingress.mayConsume with
  | false =>
    rw [State.retain, if_neg (by simp [h])]
    exact .inl rfl
  | true =>
    rw [(retain_pending s d h).1]
    exact retained_retain_of_ne ht hid

theorem processRxDatagram_tidy (hR : Agreeing E.serial.codec E.receiver) (ht : Tidy s.pending)
    (d : Datagram) : Tidy (s.processRxDatagram d).pending := by
  obtain hu | ⟨decoded, ingress, hd, hheader, -, -, e⟩ := processRxDatagram_cases s d
  · exact hu.pending ▸ ht
  rw [e]
  have hretain := tidy_retain (s := s.countDatagram) ht d ingress
  obtain ⟨-, e⟩ | ⟨-, e⟩ := reassemble_cases s.countDatagram d ingress <;> rw [e]
  · exact hretain
  · refine (onOutcome_forgets (s := { (s.countDatagram.retain d ingress).1 with
      router := (submit E.receiver s.router d.mac d.data d.nowMs.toUInt64).1 }) hretain d
      fun routed hrouted => ?_).tidy
    rw [hheader]
    exact (hR.submit_routed hd hrouted).1

theorem run_tidy (hR : Agreeing E.serial.codec E.receiver) (ht : Tidy s.pending)
    (inputs : List (Input E)) : Tidy (s.run inputs).pending := by
  induction inputs generalizing s with
  | nil => exact ht
  | cons input inputs ih =>
    cases input with
    | received d => exact ih (s := s.processRxDatagram d) (processRxDatagram_tidy hR ht d)
    | elsewhere dongle queues =>
      exact ih (s := { s with toDongle := dongle, queues }) ht

/-! ## The clock -/

/-- `a` is not after `b` on a clock that started at `base`. -/
def NotAfter (base a b : UInt32) : Prop := a - base ≤ b - base

theorem NotAfter.refl (base a : UInt32) : NotAfter base a a := UInt32.le_refl _

theorem NotAfter.start (base a : UInt32) : NotAfter base base a := by
  rw [NotAfter, UInt32.sub_self]
  exact UInt32.zero_le

theorem NotAfter.trans {base a b c : UInt32} (h : NotAfter base a b) (h' : NotAfter base b c) :
    NotAfter base a c := UInt32.le_trans h h'

/-- Three times in order: the clock does not wrap twice between them. -/
theorem NotAfter.elapsed_add {base a b c : UInt32} (h : NotAfter base a b)
    (h' : NotAfter base b c) : (b - a).toNat + (c - b).toNat = (c - a).toNat := by
  rw [NotAfter, UInt32.le_iff_toNat_le, UInt32.toNat_sub, UInt32.toNat_sub] at h h'
  simp only [UInt32.toNat_sub]
  have := a.toNat_lt
  have := b.toNat_lt
  have := c.toNat_lt
  have := base.toNat_lt
  omega

/-- The time since `a` grows. -/
theorem NotAfter.elapsed_le {base a b c : UInt32} (h : NotAfter base a b) (h' : NotAfter base b c) :
    (b - a).toNat ≤ (c - a).toNat := by
  have hadd := h.elapsed_add h'
  omega

/-- What happened later is less long ago. -/
theorem NotAfter.elapsed_anti {base a b c : UInt32} (h : NotAfter base a b)
    (h' : NotAfter base b c) : (c - b).toNat ≤ (c - a).toNat := by
  have hadd := h.elapsed_add h'
  omega

/-- The reassembler widens the clock before it subtracts. -/
theorem elapsed_of_widened {a b : UInt32} {bound : Nat} (hb : bound < 2 ^ 32)
    (h : b.toUInt64 - a.toUInt64 < bound.toUInt64) : (b - a).toNat < bound := by
  rw [UInt64.lt_iff_toNat_lt, UInt64.toNat_sub] at h
  rw [UInt32.toNat_sub]
  have hbound : bound.toUInt64.toNat = bound :=
    UInt64.toNat_ofNat_of_lt (Nat.lt_of_lt_of_le hb (by decide))
  rw [hbound, UInt32.toNat_toUInt64, UInt32.toNat_toUInt64] at h
  have := a.toNat_lt
  have := b.toNat_lt
  omega

end BallyDongle.EspNowConfig
