import BallyDongle.SerialMux.Topics
import BallyDongle.SubscriptionRegistry.Actions

/-!
# The registry and the publisher agree

`Agrees`: each topic of the dongle is published exactly while its row asserts a
rate, at the period of that rate. A registry call changes what is asserted only
through the actions it returns (`Follows`), and the publisher replays them.
-/

namespace BallyDongle.SerialMux

open Btp SubscriptionRegistry DonglePublisher

/-- A topic the dongle publishes itself. -/
def Own (topicId : UInt16) : Prop := (stateFor {} topicId).isSome = true

/-- The registry and the publisher of the dongle `selfSourceId`. A topic id past
16 bits names no topic, so no row has one. -/
structure Agrees (selfSourceId : UInt32) (t : Topics) : Prop where
  coherent : Coherent t.registry
  narrow : ∀ r k, (t.registry.rows r).key = some k → k.2 ≤ 0xFFFF
  published : ∀ topicId, Own topicId → published t.publisher topicId =
    (assertedAt t.registry (selfSourceId, topicId.toUInt32)).map (periodFor topicId)

variable {selfSourceId : UInt32} {t : Topics}

theorem init_key (r : Fin kMaxTopics) : (({} : Registry).rows r).key = none := rfl

theorem init_agrees (selfSourceId : UInt32) : Agrees selfSourceId {} where
  coherent := init_coherent
  narrow r k h := by rw [init_key] at h; cases h
  published topicId _ := by
    rw [assertedAt_absent fun r h => by rw [init_key] at h; cases h]
    simp only [DonglePublisher.published, stateFor]
    split_ifs <;> rfl

/-! ## Replaying the actions -/

theorem toUInt16_eq_iff {topicId : UInt32} (h : topicId ≤ 0xFFFF) (other : UInt16) :
    other = topicId.toUInt16 ↔ topicId = other.toUInt32 := by
  rw [UInt32.le_iff_toNat_le, show UInt32.toNat 0xFFFF = 65535 from rfl] at h
  rw [← UInt16.toNat_inj, ← UInt32.toNat_inj, UInt32.toNat_toUInt16, UInt16.toNat_toUInt32,
    Nat.mod_eq_of_lt (by omega), eq_comm]

/-- An action about another topic changes no publication of this one. -/
theorem dispatch_published_of_ne {g : Publisher} {a : UpstreamAction} {topicId : UInt16}
    (ha : a.kind ≠ .none → a.topicId ≤ 0xFFFF)
    (hne : a.key ≠ (selfSourceId, topicId.toUInt32)) :
    published (dispatchUpstreamAction selfSourceId g a) topicId = published g topicId := by
  unfold dispatchUpstreamAction
  split
  · rename_i hsrc
    have hto : a.kind ≠ .none → topicId ≠ a.topicId.toUInt16 := fun hk e =>
      hne (Prod.ext hsrc.2 ((toUInt16_eq_iff (ha hk) topicId).1 e))
    cases hk : a.kind with
    | none => rfl
    | subscribe => exact published_onLocalSubscribe_of_ne g (hto (by rw [hk]; nofun)) _
    | unsubscribe => exact published_onLocalUnsubscribe_of_ne g (hto (by rw [hk]; nofun))
  · rfl

/-- The publisher replays an action as a reader of the registry does. -/
theorem dispatch_published (hself : selfSourceId ≠ 0) {g : Publisher} {a : UpstreamAction}
    (ha : a.kind ≠ .none → a.topicId ≤ 0xFFFF) {topicId : UInt16} (hown : Own topicId)
    {before : Option UInt32} (hb : published g topicId = before.map (periodFor topicId)) :
    published (dispatchUpstreamAction selfSourceId g a) topicId =
      (assertOn (selfSourceId, topicId.toUInt32) before a).map (periodFor topicId) := by
  by_cases hkey : a.key = (selfSourceId, topicId.toUInt32)
  · have hsrc : a.sourceId = selfSourceId := congrArg Prod.fst hkey
    have htopic : a.topicId = topicId.toUInt32 := congrArg Prod.snd hkey
    have hown' : (stateFor g topicId).isSome = true := isSome_stateFor {} g topicId ▸ hown
    have hself' : a.sourceId ≠ 0 ∧ a.sourceId = selfSourceId := ⟨hsrc ▸ hself, hsrc⟩
    rw [assertOn, if_pos hkey, UpstreamAction.asserts, dispatchUpstreamAction, if_pos hself']
    cases hk : a.kind with
    | none => exact hb
    | subscribe =>
      rw [← (toUInt16_eq_iff (ha (by rw [hk]; intro h; cases h)) topicId).2 htopic]
      exact (published_onLocalSubscribe hown' _ _).trans (if_pos rfl)
    | unsubscribe =>
      rw [← (toUInt16_eq_iff (ha (by rw [hk]; intro h; cases h)) topicId).2 htopic]
      exact (published_onLocalUnsubscribe hown' _).trans (if_pos rfl)
  · rw [assertOn_of_ne hkey, dispatch_published_of_ne ha hkey]
    exact hb

/-- Replaying the actions of a call keeps the two in step. -/
theorem Agrees.follow (hself : selfSourceId ≠ 0) (h : Agrees selfSourceId t) {g' : Registry}
    {actions : List UpstreamAction} (hf : Follows t.registry g' actions)
    (hnarrow : ∀ r k, (g'.rows r).key = some k → k.2 ≤ 0xFFFF) :
    Agrees selfSourceId
      { registry := g', publisher := dispatchUpstreamActions selfSourceId t.publisher actions } := by
  refine ⟨hf.coherent, hnarrow, fun topicId hown => ?_⟩
  have hact : ∀ a ∈ actions, a.kind ≠ .none → a.topicId ≤ 0xFFFF := fun a ha hk =>
    have ⟨r, hr⟩ := hf.named a ha hk
    hnarrow r _ hr
  rw [hf.asserted]
  have hb := h.published topicId hown
  clear hf
  generalize assertedAt t.registry (selfSourceId, topicId.toUInt32) = before at hb ⊢
  generalize t.publisher = g at hb ⊢
  unfold dispatchUpstreamActions
  induction actions generalizing g before with
  | nil => exact hb
  | cons a actions ih =>
    exact ih (fun b hb => hact b (List.mem_cons_of_mem _ hb)) _ _
      (dispatch_published hself (hact a List.mem_cons_self) hown hb)

/-! ## Each call -/

theorem lookupTopic_narrow {manifest : ManifestCache.Cache} {sourceId topicId rate : UInt32}
    (h : ManifestCache.lookupTopicMaxRateMillihz manifest selfSourceId sourceId topicId =
      some rate) : topicId ≤ 0xFFFF := by
  unfold ManifestCache.lookupTopicMaxRateMillihz at h
  split at h
  · cases h
  · rename_i hn
    rw [not_or, UInt32.not_lt] at hn
    exact hn.2

theorem Agrees.subscribe (hself : selfSourceId ≠ 0) (h : Agrees selfSourceId t)
    (manifest : ManifestCache.Cache) (clientId : UInt32) (sub : Subscribe) (now : UInt32) :
    Agrees selfSourceId (t.subscribe selfSourceId manifest clientId sub now).1 := by
  unfold Topics.subscribe
  dsimp only
  split
  · exact h
  · rename_i schemaMax hl
    generalize cappedRateMillihz sub.requestedRateMillihz schemaMax = capped
    have hf := subscribe_follows h.coherent clientId sub.targetSourceId sub.topicId capped
      sub.requestedLeaseMs now
    have hnarrow : ∀ r k, ((onDesktopSubscribe t.registry clientId sub.targetSourceId sub.topicId
        capped sub.requestedLeaseMs now).1.rows r).key = some k → k.2 ≤ 0xFFFF := by
      intro r k hk
      rcases subscribe_key t.registry clientId sub.targetSourceId sub.topicId capped
        sub.requestedLeaseMs now r with e | e
      · exact h.narrow r k (e ▸ hk)
      · rw [e] at hk
        cases hk
        exact lookupTopic_narrow hl
    split
    · exact h.follow hself hf hnarrow
    · rename_i hrej
      rw [Bool.not_eq_true] at hrej
      rw [onDesktopSubscribe_refused hrej]
      exact h

theorem Agrees.unsubscribe (hself : selfSourceId ≠ 0) (h : Agrees selfSourceId t)
    (clientId subscriptionId now : UInt32) :
    Agrees selfSourceId (t.unsubscribe selfSourceId clientId subscriptionId now) :=
  h.follow hself (unsubscribe_follows h.coherent clientId subscriptionId now) fun r k hk =>
    h.narrow r k (unsubscribe_key t.registry clientId subscriptionId now r ▸ hk)

theorem Agrees.overRows (hself : selfSourceId ≠ 0) (h : Agrees selfSourceId t)
    {edit : TopicRow → TopicRow × UpstreamAction} (he : Edits edit) :
    let res := overRows t.registry edit {}
    Agrees selfSourceId
      ⟨res.1, dispatchUpstreamActions selfSourceId t.publisher res.2.stored⟩ :=
  h.follow hself (h.coherent.follows_overRows he) fun r k hk =>
    h.narrow r k ((he.keeps (t.registry.rows r)).key ▸ hk)

theorem Agrees.disconnect (hself : selfSourceId ≠ 0) (h : Agrees selfSourceId t)
    (clientId now : UInt32) : Agrees selfSourceId (t.disconnect selfSourceId clientId now) :=
  h.overRows hself (disconnectRow_edits clientId now)

theorem Agrees.sweep (hself : selfSourceId ≠ 0) (h : Agrees selfSourceId t) (now : UInt32) :
    Agrees selfSourceId (t.sweep selfSourceId now) :=
  h.overRows hself (sweepRow_edits now)

/-- Counting samples is no action. -/
theorem Agrees.recordSample (hself : selfSourceId ≠ 0) (h : Agrees selfSourceId t) (queued : Bool)
    (sourceId : UInt32) (objectId : UInt16) (payloadSize : Nat) :
    Agrees selfSourceId (t.recordSample queued sourceId objectId payloadSize) := by
  have hedit : ∀ edit : TopicRow → TopicRow, (∀ row, Keeps row (edit row)) →
      (∀ row, Reconciled row → Reconciled (edit row)) → (∀ row, asserted (edit row) = asserted row) →
      Agrees selfSourceId { t with registry := onRow t.registry sourceId objectId.toUInt32 edit } :=
    fun edit hk hr ha =>
      h.follow hself (h.coherent.follows_onRow sourceId objectId.toUInt32 hk hr ha)
        fun r k hrow => h.narrow r k (onRow_key hk r ▸ hrow)
  cases queued with
  | false =>
    exact hedit (fun row => { row with samplesDroppedTotal := row.samplesDroppedTotal + 1 })
      (fun _ => ⟨rfl, rfl, rfl, fun _ hu => ⟨hu, rfl, rfl⟩⟩)
      (fun _ hr => ⟨hr.active, hr.rate, hr.lease⟩) fun _ => rfl
  | true =>
    exact hedit (fun row => { row with bytesTotal := row.bytesTotal + payloadSize.toUInt64 })
      (fun _ => ⟨rfl, rfl, rfl, fun _ hu => ⟨hu, rfl, rfl⟩⟩)
      (fun _ hr => ⟨hr.active, hr.rate, hr.lease⟩) fun _ => rfl

/-- Emitting samples changes no subscription. -/
theorem Agrees.tick (h : Agrees selfSourceId t) (nowMs : UInt32) (snapshot : Snapshot) :
    Agrees selfSourceId { t with publisher := (tick t.publisher nowMs snapshot).1 } :=
  ⟨h.coherent, h.narrow, fun topicId hown => (published_tick _ _ _ _).trans (h.published topicId hown)⟩

/-! ## Runs -/

/-- A call that changes the registry or the publisher, with the manifest it sees.
A SUBSCRIBE that decodes asks for a rate that is not 0. -/
inductive TopicsOp
  | subscribe (manifest : ManifestCache.Cache) (clientId : UInt32)
      (sub : { sub : Subscribe // sub.requestedRateMillihz ≠ 0 }) (nowMs : UInt32)
  | unsubscribe (clientId subscriptionId nowMs : UInt32)
  | disconnect (clientId nowMs : UInt32)
  | sweep (nowMs : UInt32)

def TopicsOp.apply (selfSourceId : UInt32) (t : Topics) : TopicsOp → Topics
  | .subscribe manifest clientId sub now => (t.subscribe selfSourceId manifest clientId sub now).1
  | .unsubscribe clientId subscriptionId now =>
    t.unsubscribe selfSourceId clientId subscriptionId now
  | .disconnect clientId now => t.disconnect selfSourceId clientId now
  | .sweep now => t.sweep selfSourceId now

def runTopics (selfSourceId : UInt32) (t : Topics) (ops : List TopicsOp) : Topics :=
  ops.foldl (TopicsOp.apply selfSourceId) t

/-- Every live client asked for a rate. -/
abbrev Rated (g : Registry) : Prop := LiveAll (fun _ rate => rate ≠ 0) g

theorem capped_ne_zero {requested schemaMax : UInt32} (h : requested ≠ 0) :
    cappedRateMillihz requested schemaMax ≠ 0 := by
  unfold cappedRateMillihz
  split
  · rename_i hs; exact hs.1
  · exact h

theorem apply_agrees (hself : selfSourceId ≠ 0) (h : Agrees selfSourceId t)
    (hr : Rated t.registry) (op : TopicsOp) :
    Agrees selfSourceId (op.apply selfSourceId t) ∧ Rated (op.apply selfSourceId t).registry := by
  cases op with
  | subscribe manifest clientId sub now =>
    refine ⟨h.subscribe hself manifest clientId sub now, ?_⟩
    unfold TopicsOp.apply Topics.subscribe
    dsimp only
    split
    · exact hr
    · split <;> exact hr.subscribe (capped_ne_zero sub.2) _ _ _ now
  | unsubscribe clientId subscriptionId now =>
    exact ⟨h.unsubscribe hself clientId subscriptionId now, hr.unsubscribe _ _ now⟩
  | disconnect clientId now =>
    exact ⟨h.disconnect hself clientId now, hr.overRows (disconnectRow_prunes clientId now) {}⟩
  | sweep now => exact ⟨h.sweep hself now, hr.overRows (sweepRow_prunes now) {}⟩

theorem run_topicsAgree (hself : selfSourceId ≠ 0) (ops : List TopicsOp) (h : Agrees selfSourceId t)
    (hr : Rated t.registry) : Agrees selfSourceId (runTopics selfSourceId t ops) ∧
      Rated (runTopics selfSourceId t ops).registry := by
  induction ops generalizing t with
  | nil => exact ⟨h, hr⟩
  | cons op ops ih =>
    obtain ⟨h', hr'⟩ := apply_agrees hself h hr op
    exact ih h' hr'

/-- What agreement means for a topic of the dongle with state `state`. -/
structure InStep (selfSourceId : UInt32) (g : Registry) (topicId : UInt16) (state : TopicState) :
    Prop where
  subscribed : state.subscribed = true ↔
    ∃ r, (g.rows r).key = some (selfSourceId, topicId.toUInt32) ∧ Live (g.rows r)
  period : ∀ r, (g.rows r).key = some (selfSourceId, topicId.toUInt32) → Live (g.rows r) →
    ∃ rate, IsMax ClientSub.requestedRateMillihz (g.rows r) rate ∧
      state.periodMs = periodMsFromRate rate

theorem Agrees.inStep (h : Agrees selfSourceId t) (hr : Rated t.registry) {topicId : UInt16}
    {state : TopicState} (hs : stateFor t.publisher topicId = some state) :
    InStep selfSourceId t.registry topicId state := by
  have hown : Own topicId := by
    rw [Own, isSome_stateFor {} t.publisher, hs]
    rfl
  have hpub := h.published topicId hown
  rw [DonglePublisher.published, hs, Option.bind_some, TopicState.period] at hpub
  -- the row of the topic, when it has one
  have hrow : ∀ r, (t.registry.rows r).key = some (selfSourceId, topicId.toUInt32) →
      (Live (t.registry.rows r) ↔ state.subscribed = true) ∧
      (Live (t.registry.rows r) → state.periodMs =
        periodFor topicId (t.registry.rows r).upstreamRequestedRateMillihz) := by
    intro r hk
    rw [h.coherent.assertedAt_row hk, asserted] at hpub
    rw [← (h.coherent.reconciled r).active]
    cases ha : (t.registry.rows r).upstreamActive <;> cases hsub : state.subscribed <;>
      simp_all
  refine ⟨⟨fun hsub => ?_, Exists.rec fun r hr => (hrow r hr.1).1.1 hr.2⟩, fun r hk hl => ?_⟩
  · rw [if_pos hsub] at hpub
    by_contra hno
    rw [not_exists] at hno
    have hdead : assertedAt t.registry (selfSourceId, topicId.toUInt32) = none := by
      by_cases hex : ∃ r, (t.registry.rows r).key = some (selfSourceId, topicId.toUInt32)
      · obtain ⟨r, hk⟩ := hex
        exact absurd ⟨hk, (hrow r hk).1.2 hsub⟩ (hno r)
      · exact assertedAt_absent fun r hk => hex ⟨r, hk⟩
    rw [hdead] at hpub
    cases hpub
  · have hmax := (h.coherent.reconciled r).rate.isMax hl
    obtain ⟨⟨i, hi, hrate⟩, -⟩ := id hmax
    refine ⟨_, hmax, ((hrow r hk).2 hl).trans (periodFor_of_ne_zero topicId ?_)⟩
    exact hrate ▸ hr r i hi

/-- Along every run each topic of the dongle is published exactly while a client
wants it, at the fastest rate its clients asked for. -/
theorem run_inStep (hself : selfSourceId ≠ 0) (ops : List TopicsOp) {topicId : UInt16}
    {state : TopicState}
    (hs : stateFor (runTopics selfSourceId {} ops).publisher topicId = some state) :
    InStep selfSourceId (runTopics selfSourceId {} ops).registry topicId state :=
  have ⟨h, hr⟩ := run_topicsAgree hself ops (init_agrees selfSourceId) fun _ _ hu => nomatch hu
  h.inStep hr hs

/-- Two clients share `hub.link`; the faster one leaves. -/
def sharedLink : List TopicsOp :=
  [.subscribe {} 9 ⟨⟨7, 0x0F01, 500, 2000⟩, by decide⟩ 0,
    .subscribe {} 8 ⟨⟨7, 0x0F01, 2000, 2000⟩, by decide⟩ 10, .disconnect 8 20]

theorem run_inStep_sharedLink :
    let t := runTopics 7 {} sharedLink
    stateFor t.publisher kLinkTopicId = some { subscribed := true, periodMs := 2000 } ∧
    InStep 7 t.registry kLinkTopicId { subscribed := true, periodMs := 2000 } :=
  ⟨by decide, run_inStep (by decide) sharedLink (by decide)⟩

end BallyDongle.SerialMux
