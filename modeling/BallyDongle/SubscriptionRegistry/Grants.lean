import BallyDongle.Lib.Run
import BallyDongle.SubscriptionRegistry.Capacity

/-!
# What a released topic still holds

A release clears the robot's grant and leaves the pending request in place. Its
answer is matched by the sequence alone, so one that arrives after the release
stores a grant for a topic nobody subscribes to.
-/

namespace BallyDongle.SubscriptionRegistry

variable {g : Registry} {row : TopicRow} {r : Fin kMaxTopics}

/-- No released topic holds a grant, as the callers see it. -/
def ReleasedClear (g : Registry) : Prop :=
  (∀ sourceId topicId, isWanted g sourceId topicId = false →
    upstreamSubscriptionId g sourceId topicId = 0) ∧
  ∀ maxOut, ∀ record ∈ topicStatusSnapshot g maxOut, record.subscriberCount = 0 →
    record.effectiveRateMillihz = 0

/-- The row a successful answer is matched to has a client, or the answer grants
nothing. -/
def GrantHeld (g : Registry) : Op → Prop
  | .subscribeResult replyToSequence status upstreamSubscriptionId effectiveRateMillihz =>
    status = 0 → ∀ r ∈ SlotTable.first (fun row => row.used && row.pendingRequestSequence != 0 &&
        row.pendingRequestSequence == replyToSequence) g.rows,
      refcount (g.rows r) ≠ 0 ∨ upstreamSubscriptionId = 0 ∧ effectiveRateMillihz = 0
  | _ => True

/-- A row that asserts nothing upstream holds no grant. -/
def Ungranted (row : TopicRow) : Prop :=
  row.upstreamActive = false → row.upstreamSubscriptionId = 0 ∧ row.effectiveRateMillihz = 0

def AllUngranted (g : Registry) : Prop := ∀ r, (g.rows r).used = true → Ungranted (g.rows r)

/-! ## What the callers see -/

theorem Coherent.inactive_iff (h : Coherent g) :
    (g.rows r).upstreamActive = false ↔ refcount (g.rows r) = 0 := by
  rw [refcount_eq_zero, ← (h.reconciled r).active, Bool.not_eq_true]

/-- The record of a row. -/
def TopicRow.status (row : TopicRow) : Btp.TopicStatusRecord :=
  { sourceId := row.sourceId, topicId := row.topicId.toUInt16
    subscriberCount := (refcount row).toUInt16, effectiveRateMillihz := row.effectiveRateMillihz
    bytesTotal := row.bytesTotal, samplesDroppedTotal := row.samplesDroppedTotal }

theorem mem_topicStatusSnapshot {maxOut : Nat} {record : Btp.TopicStatusRecord}
    (h : record ∈ topicStatusSnapshot g maxOut) :
    ∃ r, (g.rows r).used = true ∧ record = (g.rows r).status := by
  obtain ⟨row, hrow, rfl⟩ := List.mem_map.1 (List.mem_of_mem_take h)
  obtain ⟨hrow, hused⟩ := List.mem_filter.1 hrow
  obtain ⟨r, -, rfl⟩ := List.mem_map.1 hrow
  exact ⟨r, hused, rfl⟩

theorem status_mem (hused : (g.rows r).used = true) :
    (g.rows r).status ∈ topicStatusSnapshot g kMaxTopics := by
  rw [topicStatusSnapshot, List.take_of_length_le]
  · exact List.mem_map_of_mem (List.mem_filter.2
      ⟨List.mem_map_of_mem (List.mem_finRange r), hused⟩)
  · rw [List.length_map]
    exact (List.length_filter_le _ _).trans (by simp)

theorem refcount_le (row : TopicRow) : refcount row ≤ kMaxClientsPerTopic :=
  List.countP_le_length.trans (by simp)

theorem Coherent.releasedClear_iff (h : Coherent g) : ReleasedClear g ↔ AllUngranted g := by
  constructor
  · rintro ⟨hid, hrate⟩ r hused hoff
    have hdead : refcount (g.rows r) = 0 := h.inactive_iff.1 hoff
    have hfind := h.findRow_eq hused
    constructor
    · have := hid (g.rows r).sourceId (g.rows r).topicId (by simp [isWanted, hfind, hdead])
      rwa [upstreamSubscriptionId, hfind] at this
    · exact hrate kMaxTopics _ (status_mem hused) (by rw [TopicRow.status, hdead]; rfl)
  · intro hall
    constructor
    · intro sourceId topicId hwanted
      rw [upstreamSubscriptionId]
      cases hfind : findRow g sourceId topicId with
      | none => rfl
      | some r =>
        have hused := (TopicRow.key_eq_some.1 (findRow_key hfind)).1
        have hdead : refcount (g.rows r) = 0 := by simpa [isWanted, hfind] using hwanted
        exact (hall r hused (h.inactive_iff.2 hdead)).1
    · intro maxOut record hrecord hcount
      obtain ⟨r, hused, rfl⟩ := mem_topicStatusSnapshot hrecord
      have hdead : refcount (g.rows r) = 0 := by
        have hle : refcount (g.rows r) < UInt16.size :=
          Nat.lt_of_le_of_lt (refcount_le (g.rows r)) (by decide)
        have hnat := congrArg UInt16.toNat hcount
        rwa [TopicRow.status, Nat.toUInt16, UInt16.toNat_ofNat_of_lt' hle] at hnat
      exact (hall r hused (h.inactive_iff.2 hdead)).2

/-! ## What each call does to the grants -/

theorem Ungranted.evaluate (h : Ungranted row) (nowMs : UInt32) :
    Ungranted (evaluateUpstream row nowMs).1 := by
  unfold evaluateUpstream
  dsimp only
  split_ifs
  · exact h
  · exact fun _ => ⟨rfl, rfl⟩
  · exact h
  · exact nofun

theorem AllUngranted.setRow (h : AllUngranted g) (hrow : row.used = true → Ungranted row) :
    AllUngranted (g.setRow r row) := by
  intro j hused
  by_cases hj : j = r
  · subst hj
    rw [setRow_self] at hused ⊢
    exact hrow hused
  · rw [setRow_of_ne _ _ hj] at hused ⊢
    exact h j hused

theorem AllUngranted.onRow (h : AllUngranted g) (sourceId topicId : UInt32)
    {edit : TopicRow → TopicRow} (hu : ∀ row, (edit row).used = row.used)
    (hedit : ∀ row, Ungranted row → Ungranted (edit row)) :
    AllUngranted (onRow g sourceId topicId edit) := by
  unfold SubscriptionRegistry.onRow
  split
  · exact h
  · exact h.setRow fun hused => hedit _ (h _ (by rwa [hu] at hused))

theorem AllUngranted.overRows (h : AllUngranted g) {edit : TopicRow → TopicRow × UpstreamAction}
    (hu : ∀ row, (edit row).1.used = row.used)
    (hedit : ∀ row, Ungranted row → Ungranted (edit row).1) (out : Out) :
    AllUngranted (overRows g edit out).1 := fun r hused =>
  hedit _ (h r (by rwa [SubscriptionRegistry.overRows, hu] at hused))

theorem AllUngranted.subscribe (h : AllUngranted g)
    (clientId sourceId topicId rate lease now : UInt32) :
    AllUngranted (onDesktopSubscribe g clientId sourceId topicId rate lease now).1 := by
  obtain e | ⟨g₁, r, hrow, hedit⟩ :=
    onDesktopSubscribe_cases g clientId sourceId topicId rate lease now
  · rw [e]
    exact h
  · have h₁ : AllUngranted g₁ := by
      obtain ⟨r', e, -⟩ | ⟨r', e, -⟩ | e := findOrCreateRow_cases g sourceId topicId
      · rw [e] at hrow
        cases hrow
        exact h
      · rw [e] at hrow
        cases hrow
        exact h.setRow fun _ _ => ⟨rfl, rfl⟩
      · rw [e] at hrow
        cases hrow
    have hused : (g₁.rows r).used = true := (TopicRow.key_eq_some.1 (findOrCreateRow_key hrow)).1
    have hclient : ∀ i c, Ungranted ((g₁.rows r).setClient i c) := fun _ _ => h₁ r hused
    obtain ⟨i, -, -, e⟩ | ⟨slot, -, e⟩ := hedit
    · rw [e]
      exact h₁.setRow fun _ => (hclient _ _).evaluate now
    · rw [e]
      exact AllUngranted.setRow (g := (nextSubscriptionId g₁).1) h₁
        fun _ => (hclient _ _).evaluate now

theorem AllUngranted.unsubscribe (h : AllUngranted g) (clientId subscriptionId now : UInt32) :
    AllUngranted (onDesktopUnsubscribe g clientId subscriptionId now).1 := by
  unfold onDesktopUnsubscribe
  split
  · exact h
  · rename_i r hr
    have hholds := SlotTable.first_holds hr
    rw [Bool.and_eq_true] at hholds
    split
    · exact h
    · rename_i i _
      have hclient : Ungranted ((g.rows r).setClient i {}) := h r hholds.1
      exact h.setRow fun _ => hclient.evaluate now

/-- An answer leaves the released topics clear just when it is not a grant for one. -/
theorem Coherent.ungranted_result (hc : Coherent g) (h : AllUngranted g) (sequence : UInt32)
    (status : UInt8) (id rate : UInt32) :
    AllUngranted (onUpstreamSubscribeResult g sequence status id rate).1 ↔
      GrantHeld g (.subscribeResult sequence status id rate) := by
  unfold onUpstreamSubscribeResult GrantHeld
  dsimp only
  cases hfirst : SlotTable.first (fun row => row.used && row.pendingRequestSequence != 0 &&
    row.pendingRequestSequence == sequence) g.rows with
  | none => exact iff_of_true h fun _ r hr => nomatch hr
  | some r =>
    have hused : (g.rows r).used = true := by
      have := SlotTable.first_holds hfirst
      simp only [Bool.and_eq_true] at this
      exact this.1.1
    dsimp only
    split
    · rename_i hstatus
      constructor
      · intro hall _ r' hr'
        cases hr'
        refine or_iff_not_imp_left.2 fun hlive => ?_
        have hrow := hall r
        rw [setRow_self] at hrow
        exact hrow hused (hc.inactive_iff.2 (not_not.1 hlive))
      · refine fun hgrant => h.setRow fun _ hoff => ?_
        exact (hgrant hstatus r rfl).resolve_left (not_not_intro (hc.inactive_iff.1 hoff))
    · rename_i hstatus
      exact iff_of_true (h.setRow fun _ => h r hused) fun hs => absurd hs hstatus

theorem Coherent.ungranted_step (hc : Coherent g) (h : AllUngranted g) (op : Op) :
    AllUngranted (SubscriptionRegistry.step g op) ↔ GrantHeld g op := by
  cases op with
  | subscribe clientId sourceId topicId rate lease now =>
    exact iff_of_true (h.subscribe clientId sourceId topicId rate lease now) trivial
  | unsubscribe clientId subscriptionId now =>
    exact iff_of_true (h.unsubscribe clientId subscriptionId now) trivial
  | clientDisconnected clientId now out =>
    refine iff_of_true (h.overRows (fun row => (disconnectRow_keeps clientId now row).used)
      (fun row hrow => ?_) out) trivial
    unfold disconnectRow
    dsimp only
    split
    · exact hrow
    · exact @Ungranted.evaluate (row.dropClients _) hrow now
  | sweep now out =>
    refine iff_of_true (h.overRows (fun row => (sweepRow_keeps now row).used)
      (fun row hrow => ?_) out) trivial
    unfold sweepRow
    dsimp only
    split
    · exact hrow
    · exact @Ungranted.evaluate (row.dropClients _) hrow now
  | requestSent sourceId topicId sequence =>
    exact iff_of_true (h.onRow sourceId topicId (fun _ => rfl) fun _ hrow => hrow) trivial
  | subscribeResult sequence status id rate => exact hc.ungranted_result h sequence status id rate
  | forwarded sourceId topicId bytes =>
    exact iff_of_true (h.onRow sourceId topicId (fun _ => rfl) fun _ hrow => hrow) trivial
  | dropped sourceId topicId =>
    exact iff_of_true (h.onRow sourceId topicId (fun _ => rfl) fun _ hrow => hrow) trivial

/-! ## Runs -/

/-- Released topics stay clear along a run just when no answer grants one anything. -/
theorem run_released (ops : List Op) :
    Run.Throughout step ReleasedClear {} ops ↔ Run.AllSteps step GrantHeld {} ops := by
  have hstep : ∀ g op, Coherent g ∧ ReleasedClear g →
      (Coherent (step g op) ∧ ReleasedClear (step g op) ↔ GrantHeld g op) := by
    rintro g op ⟨hc, hclear⟩
    rw [← hc.ungranted_step (hc.releasedClear_iff.1 hclear) op, ← (hc.step op).releasedClear_iff]
    exact and_iff_right (hc.step op)
  have hstart : Coherent {} ∧ ReleasedClear {} :=
    ⟨init_coherent, init_coherent.releasedClear_iff.2 fun _ hused => nomatch hused⟩
  rw [← Run.throughout_iff_allSteps hstep hstart]
  refine ⟨fun h => ?_, fun h => h.imp fun _ hs => hs.2⟩
  exact h.with_invariant (fun _ op hc => hc.step op) init_coherent

/-- The grant of a topic released while its request was under way. -/
theorem stale_grant :
    ¬∀ ops, Run.Throughout step ReleasedClear {} ops := by
  intro h
  have hclear := (h [.subscribe 7 1 2 500 2000 0, .requestSent 1 2 42, .unsubscribe 7 1 10,
    .subscribeResult 42 0 777 5000]).final
  exact absurd (hclear.1 1 2 (by decide)) (by decide)

end BallyDongle.SubscriptionRegistry
