import BallyDongle.SubscriptionRegistry.Actions
import Mathlib.Data.Finset.Card

/-!
# What the table has room for

A row is never given back: its counters outlive its subscribers. So a run has room
for a new topic as long as it accepted fewer than `kMaxTopics` different ones, and
for a topic it accepted once as long as that row has room for the client.
-/

namespace BallyDongle.SubscriptionRegistry

variable {g : Registry} {k : UInt32 × UInt32}

/-- The topic of a request that is accepted. -/
def acceptedTopic (g : Registry) : Op → Option (UInt32 × UInt32)
  | .subscribe clientId sourceId topicId rate lease now =>
    if (onDesktopSubscribe g clientId sourceId topicId rate lease now).2.accepted then
      some (sourceId, topicId)
    else none
  | _ => none

/-- The topics of the requests a run accepts, in order. -/
def acceptedTopics (g : Registry) : List Op → List (UInt32 × UInt32)
  | [] => []
  | op :: ops => (acceptedTopic g op).toList ++ acceptedTopics (step g op) ops

/-- A free entry, or one of the client's own. -/
def HasEntry (row : TopicRow) (clientId : UInt32) : Prop :=
  ∃ i, (row.clients i).used = false ∨ (row.clients i).clientId = clientId

/-! ## One request -/

theorem slotFor_isSome {row : TopicRow} {clientId : UInt32} :
    (slotFor row clientId).isSome = true ↔ HasEntry row clientId := by
  unfold slotFor HasEntry
  split
  · rename_i i hi
    have hown := SlotTable.first_holds hi
    rw [Bool.and_eq_true, beq_iff_eq] at hown
    exact iff_of_true rfl ⟨i, .inr hown.2⟩
  · rename_i hnone
    rw [Option.isSome_iff_ne_none, ne_eq, SlotTable.first_eq_none, not_forall]
    refine exists_congr fun i => ?_
    have hother := SlotTable.first_eq_none.1 hnone i
    rw [Bool.and_eq_false_iff, beq_eq_false_iff_ne] at hother
    rw [Bool.not_eq_false, Bool.not_eq_true']
    exact ⟨.inl, fun h => h.elim id fun hown => hother.resolve_right fun hne => hne hown⟩

theorem subscribe_existing (h : Coherent g) {r : Fin kMaxTopics} {clientId sourceId topicId : UInt32}
    (hr : (g.rows r).key = some (sourceId, topicId)) (rate lease now : UInt32) :
    (onDesktopSubscribe g clientId sourceId topicId rate lease now).2.accepted = true ↔
      HasEntry (g.rows r) clientId := by
  have hrow : findOrCreateRow g sourceId topicId = (g, some r) := by
    obtain ⟨r', e, hr'⟩ | ⟨r', e, -, hnew⟩ | e := findOrCreateRow_cases g sourceId topicId
    · rw [e, h.rows hr hr']
    · exact absurd hr (hnew r)
    · unfold findOrCreateRow at e
      split at e
      · cases e
      · rename_i hnone
        exact absurd hr (findRow_eq_none.1 hnone r)
  unfold onDesktopSubscribe
  rw [hrow]
  dsimp only
  split
  · rename_i i hi
    have hown := SlotTable.first_holds hi
    simp only [Bool.and_eq_true, beq_iff_eq] at hown
    exact iff_of_true rfl ⟨i, .inr hown.1.1.2⟩
  · rw [← slotFor_isSome]
    split
    · rename_i hslot
      rw [hslot]
      exact iff_of_false nofun nofun
    · rename_i slot hslot
      rw [hslot]
      exact iff_of_true rfl rfl

theorem subscribe_new {clientId sourceId topicId : UInt32}
    (hnew : ∀ j, (g.rows j).key ≠ some (sourceId, topicId)) (rate lease now : UInt32) :
    (onDesktopSubscribe g clientId sourceId topicId rate lease now).2.accepted = true ↔
      SlotTable.free TopicRow.key g.rows ≠ none := by
  have hfree : SlotTable.free TopicRow.key g.rows =
      SlotTable.first (fun row => !row.used) g.rows := by
    refine SlotTable.first_congr fun i => ?_
    unfold TopicRow.key
    cases (g.rows i).used <;> rfl
  rw [hfree]
  unfold onDesktopSubscribe findOrCreateRow
  rw [findRow_eq_none.2 hnew]
  dsimp only
  split
  · rename_i e
    split at e
    · cases e
    · rename_i hnone
      rw [hnone]
      exact iff_of_false nofun fun hne => hne rfl
  · rename_i g₁ r e
    split at e
    · rename_i r' hr'
      cases e
      rw [hr']
      -- a fresh row has nothing to renew and every entry free
      rw [setRow_self]
      exact iff_of_true rfl nofun
    · cases e

/-- A request is accepted when its row has room for the client, or when it has no row
and one is free. -/
theorem subscribe_accepted (h : Coherent g) (clientId sourceId topicId rate lease now : UInt32) :
    (onDesktopSubscribe g clientId sourceId topicId rate lease now).2.accepted = true ↔
      (∃ r, (g.rows r).key = some (sourceId, topicId) ∧ HasEntry (g.rows r) clientId) ∨
      (sourceId, topicId) ∉ SlotTable.keys TopicRow.key g.rows ∧
        (SlotTable.keys TopicRow.key g.rows).length < kMaxTopics := by
  rw [SlotTable.mem_keys]
  by_cases hrow : ∃ r, (g.rows r).key = some (sourceId, topicId)
  · obtain ⟨r, hr⟩ := hrow
    rw [subscribe_existing h hr]
    refine ⟨fun hentry => .inl ⟨r, hr, hentry⟩, ?_⟩
    rintro (⟨r', hr', hentry⟩ | ⟨hno, -⟩)
    · rwa [h.rows hr hr']
    · exact absurd ⟨r, hr⟩ hno
  · rw [subscribe_new (not_exists.1 hrow), ne_eq, SlotTable.free_eq_none_iff_length]
    have hle : (SlotTable.keys TopicRow.key g.rows).length ≤ kMaxTopics := SlotTable.length_keys_le
    constructor
    · exact fun hne => .inr ⟨hrow, Nat.lt_of_le_of_ne hle hne⟩
    · rintro (⟨r, hr, -⟩ | ⟨-, hlt⟩)
      · exact absurd ⟨r, hr⟩ hrow
      · exact Nat.ne_of_lt hlt

/-! ## The topics of a run -/

/-- A request that is accepted adds its topic, and a refused one nothing. -/
theorem subscribe_mem_keys (clientId sourceId topicId rate lease now : UInt32) :
    let res := onDesktopSubscribe g clientId sourceId topicId rate lease now
    k ∈ SlotTable.keys TopicRow.key res.1.rows ↔
      k ∈ SlotTable.keys TopicRow.key g.rows ∨ res.2.accepted = true ∧ k = (sourceId, topicId) := by
  intro res
  simp only [SlotTable.mem_keys]
  obtain e | ⟨g₁, r, hrow, hcase⟩ :=
    onDesktopSubscribe_cases g clientId sourceId topicId rate lease now
  · rw [show res = (g, {}) from e]
    simp
  have hsame : (∀ j, (res.1.rows j).key = (g₁.rows j).key) ∧ res.2.accepted = true := by
    obtain ⟨i, -, -, e⟩ | ⟨slot, -, e⟩ := hcase
    · rw [show res = _ from e]
      exact ⟨fun j => setClient_key g₁ r i _ now j, rfl⟩
    · rw [show res = _ from e]
      exact ⟨fun j => setClient_key g₁ r slot _ now j, rfl⟩
  simp only [hsame.1, hsame.2, true_and]
  obtain ⟨r', e, hr'⟩ | ⟨r', e, hfree, -⟩ | e := findOrCreateRow_cases g sourceId topicId
  · rw [e] at hrow
    cases hrow
    refine ⟨.inl, fun hk => hk.elim id ?_⟩
    rintro rfl
    exact ⟨r, hr'⟩
  · rw [e] at hrow
    cases hrow
    constructor
    · rintro ⟨j, hj⟩
      by_cases hjr : j = r
      · rw [hjr, setRow_self] at hj
        cases hj
        exact .inr rfl
      · rw [setRow_of_ne _ _ hjr] at hj
        exact .inl ⟨j, hj⟩
    · rintro (⟨j, hj⟩ | rfl)
      · refine ⟨j, ?_⟩
        rwa [setRow_of_ne _ _ ?_]
        rintro rfl
        rw [TopicRow.key, hfree] at hj
        cases hj
      · exact ⟨r, by rw [setRow_self]; rfl⟩
  · rw [e] at hrow
    cases hrow

theorem overRows_key {edit : TopicRow → TopicRow × UpstreamAction} (he : Edits edit) (out : Out)
    (j : Fin kMaxTopics) : ((overRows g edit out).1.rows j).key = (g.rows j).key :=
  (he.keeps (g.rows j)).key

theorem subscribeResult_key (sequence : UInt32) (status : UInt8) (id rate : UInt32)
    (j : Fin kMaxTopics) :
    ((onUpstreamSubscribeResult g sequence status id rate).1.rows j).key = (g.rows j).key := by
  unfold onUpstreamSubscribeResult
  dsimp only
  split
  · rfl
  · split
    all_goals
      refine setRow_key ?_ j
      rfl

theorem step_mem_keys (op : Op) :
    k ∈ SlotTable.keys TopicRow.key (step g op).rows ↔
      k ∈ SlotTable.keys TopicRow.key g.rows ∨ acceptedTopic g op = some k := by
  have hsame : (∀ j, ((step g op).rows j).key = (g.rows j).key) → acceptedTopic g op = none →
      (k ∈ SlotTable.keys TopicRow.key (step g op).rows ↔
        k ∈ SlotTable.keys TopicRow.key g.rows ∨ acceptedTopic g op = some k) := by
    intro hkey hnone
    simp [SlotTable.mem_keys, hkey, hnone]
  cases op with
  | subscribe clientId sourceId topicId rate lease now =>
    refine (subscribe_mem_keys clientId sourceId topicId rate lease now).trans (or_congr_right ?_)
    unfold acceptedTopic
    dsimp only
    split
    · rename_i haccepted
      rw [and_iff_right haccepted, Option.some_inj, eq_comm]
    · rename_i hrefused
      exact iff_of_false (fun h => hrefused h.1) nofun
  | unsubscribe clientId subscriptionId now =>
    exact hsame (unsubscribe_key g clientId subscriptionId now) rfl
  | clientDisconnected clientId now out =>
    exact hsame (overRows_key (disconnectRow_edits clientId now) out) rfl
  | sweep now out => exact hsame (overRows_key (sweepRow_edits now) out) rfl
  | requestSent sourceId topicId sequence =>
    exact hsame (onRow_key fun _ => ⟨rfl, rfl, rfl, fun _ hu => ⟨hu, rfl, rfl⟩⟩) rfl
  | subscribeResult sequence status id rate =>
    exact hsame (subscribeResult_key sequence status id rate) rfl
  | forwarded sourceId topicId bytes =>
    exact hsame (onRow_key fun _ => ⟨rfl, rfl, rfl, fun _ hu => ⟨hu, rfl, rfl⟩⟩) rfl
  | dropped sourceId topicId =>
    exact hsame (onRow_key fun _ => ⟨rfl, rfl, rfl, fun _ hu => ⟨hu, rfl, rfl⟩⟩) rfl

theorem run_mem_keys (ops : List Op) :
    k ∈ SlotTable.keys TopicRow.key (run g ops).rows ↔
      k ∈ SlotTable.keys TopicRow.key g.rows ∨ k ∈ acceptedTopics g ops := by
  induction ops generalizing g with
  | nil => simp [run, acceptedTopics]
  | cons op ops ih =>
    have hrest := ih (g := step g op)
    rw [step_mem_keys, or_assoc] at hrest
    refine hrest.trans (or_congr_right ?_)
    rw [acceptedTopics, List.mem_append, Option.mem_toList]

/-! ## Coherence needs no bound on the ids -/

theorem Coherent.onRow (h : Coherent g) (sourceId topicId : UInt32) {edit : TopicRow → TopicRow}
    (hk : ∀ row, Keeps row (edit row)) (hr : ∀ row, Reconciled row → Reconciled (edit row)) :
    Coherent (onRow g sourceId topicId edit) := by
  unfold SubscriptionRegistry.onRow
  split
  · exact h
  · rename_i r hf
    exact h.write (TopicRow.key_eq_some.1 (findRow_key hf)).1 (hk _).key (hr _ (h.reconciled r))

theorem Coherent.subscribeResult (h : Coherent g) (sequence : UInt32) (status : UInt8)
    (id rate : UInt32) : Coherent (onUpstreamSubscribeResult g sequence status id rate).1 := by
  unfold onUpstreamSubscribeResult
  dsimp only
  split
  · exact h
  · rename_i r hr
    have hused := SlotTable.first_holds hr
    simp only [Bool.and_eq_true] at hused
    have hrec := h.reconciled r
    split <;> exact h.write hused.1.1 rfl ⟨hrec.active, hrec.rate, hrec.lease⟩

theorem Coherent.step (h : Coherent g) (op : Op) : Coherent (step g op) := by
  cases op with
  | subscribe clientId sourceId topicId rate lease now =>
    exact (subscribe_follows h clientId sourceId topicId rate lease now).coherent
  | unsubscribe clientId subscriptionId now =>
    exact (unsubscribe_follows h clientId subscriptionId now).coherent
  | clientDisconnected clientId now out =>
    exact h.map (fun r => disconnectRow_keeps clientId now (g.rows r))
      fun r => disconnectRow_reconciled clientId now (h.reconciled r)
  | sweep now out =>
    exact h.map (fun r => sweepRow_keeps now (g.rows r))
      fun r => sweepRow_reconciled now (h.reconciled r)
  | requestSent sourceId topicId sequence =>
    unfold SubscriptionRegistry.step noteUpstreamRequestSent
    exact h.onRow sourceId topicId (fun _ => ⟨rfl, rfl, rfl, fun _ hu => ⟨hu, rfl, rfl⟩⟩)
      fun _ hr => ⟨hr.active, hr.rate, hr.lease⟩
  | subscribeResult sequence status id rate => exact h.subscribeResult sequence status id rate
  | forwarded sourceId topicId bytes =>
    unfold SubscriptionRegistry.step recordForwarded
    exact h.onRow sourceId topicId (fun _ => ⟨rfl, rfl, rfl, fun _ hu => ⟨hu, rfl, rfl⟩⟩)
      fun _ hr => ⟨hr.active, hr.rate, hr.lease⟩
  | dropped sourceId topicId =>
    unfold SubscriptionRegistry.step recordDropped
    exact h.onRow sourceId topicId (fun _ => ⟨rfl, rfl, rfl, fun _ hu => ⟨hu, rfl, rfl⟩⟩)
      fun _ hr => ⟨hr.active, hr.rate, hr.lease⟩

theorem Coherent.run (h : Coherent g) (ops : List Op) : Coherent (run g ops) := by
  induction ops generalizing g with
  | nil => exact h
  | cons op ops ih => exact ih (h.step op)

theorem Coherent.findRow_eq (h : Coherent g) {r : Fin kMaxTopics} (hused : (g.rows r).used = true) :
    findRow g (g.rows r).sourceId (g.rows r).topicId = some r := by
  have hkey : (g.rows r).key = some ((g.rows r).sourceId, (g.rows r).topicId) :=
    TopicRow.key_eq_some.2 ⟨hused, rfl, rfl⟩
  cases hfind : findRow g (g.rows r).sourceId (g.rows r).topicId with
  | none => exact absurd hkey (findRow_eq_none.1 hfind r)
  | some r' => rw [h.rows (findRow_key hfind) hkey]

/-! ## The capacity of a run -/

/-- In every run a request is accepted just when the row of its topic has an entry for
the client, or the topic is new and fewer than `kMaxTopics` topics were accepted; the
rows in use are those of the topics accepted so far, subscribed or released. -/
theorem run_capacity (ops : List Op) (clientId sourceId topicId rate lease now : UInt32) :
    let g := run {} ops
    let topics := (acceptedTopics {} ops).toFinset
    ((onDesktopSubscribe g clientId sourceId topicId rate lease now).2.accepted = true ↔
      (∃ r, (g.rows r).key = some (sourceId, topicId) ∧ HasEntry (g.rows r) clientId) ∨
      (sourceId, topicId) ∉ topics ∧ topics.card < kMaxTopics) ∧
    ∀ k, (∃ r, (g.rows r).key = some k) ↔ k ∈ topics := by
  intro g topics
  have hc : Coherent g := init_coherent.run ops
  have hkeys : (SlotTable.keys TopicRow.key g.rows).toFinset = topics := by
    ext k
    rw [List.mem_toFinset, List.mem_toFinset, run_mem_keys]
    refine or_iff_right fun hk => ?_
    obtain ⟨r, hr⟩ := SlotTable.mem_keys.1 hk
    cases hr
  have hmem : ∀ k, k ∈ SlotTable.keys TopicRow.key g.rows ↔ k ∈ topics := by
    intro k
    rw [← hkeys, List.mem_toFinset]
  have hcard : topics.card = (SlotTable.keys TopicRow.key g.rows).length := by
    rw [← hkeys, List.toFinset_card_of_nodup hc.rows.nodup_keys]
  refine ⟨?_, fun k => ?_⟩
  · rw [subscribe_accepted hc, hmem, hcard]
  · rw [← hmem, SlotTable.mem_keys]

/-- Eight topics subscribed and released leave no room for a ninth. -/
theorem released_topics_stay :
    let ops := (List.range kMaxTopics).flatMap fun t =>
      [Op.subscribe 7 1 (UInt32.ofNat t) 500 2000 0, .unsubscribe 7 (UInt32.ofNat (t + 1)) 0]
    (∀ r, refcount ((run {} ops).rows r) = 0) ∧
    (∀ r, ((run {} ops).rows r).key ≠ some (1, 8)) ∧
    (onDesktopSubscribe (run {} ops) 7 1 8 500 2000 0).2.accepted = false := by
  decide

end BallyDongle.SubscriptionRegistry
