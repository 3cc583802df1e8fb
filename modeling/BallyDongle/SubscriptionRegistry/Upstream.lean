import BallyDongle.SubscriptionRegistry

/-!
# Reconciliation of one row

`Reconciled` is what a row owes the robot: asserted exactly while it has a live
client, at the largest rate and lease its live clients asked for.
`evaluateUpstream` restores it after any edit of the clients, and the action it
returns carries the whole change of the asserted rate.
-/

namespace BallyDongle.SubscriptionRegistry

variable {row row' : TopicRow} {field : ClientSub → UInt32} {nowMs : UInt32}

/-- The row has a live client. -/
def Live (row : TopicRow) : Prop := ∃ i, (row.clients i).used = true

/-- `v` is the largest `field` of the live clients, 0 when there is none. -/
def IsUnion (field : ClientSub → UInt32) (row : TopicRow) (v : UInt32) : Prop :=
  (∀ i, (row.clients i).used = true → field (row.clients i) ≤ v) ∧
    (v = 0 ∨ ∃ i, (row.clients i).used = true ∧ field (row.clients i) = v)

/-- `v` is the maximum of `field` over the live clients. -/
def IsMax (field : ClientSub → UInt32) (row : TopicRow) (v : UInt32) : Prop :=
  (∃ i, (row.clients i).used = true ∧ field (row.clients i) = v) ∧
    ∀ i, (row.clients i).used = true → field (row.clients i) ≤ v

structure Reconciled (row : TopicRow) : Prop where
  active : row.upstreamActive = true ↔ Live row
  rate : IsUnion ClientSub.requestedRateMillihz row row.upstreamRequestedRateMillihz
  lease : IsUnion ClientSub.requestedLeaseMs row row.upstreamLeaseMs

theorem refcount_eq_zero : refcount row = 0 ↔ ¬ Live row := by
  simp [refcount, List.countP_eq_zero, Live]

theorem isUnion_of_not_live (h : ¬ Live row) : IsUnion field row 0 :=
  ⟨fun i hi => absurd ⟨i, hi⟩ h, .inl rfl⟩

theorem IsUnion.unique {v w : UInt32} (hv : IsUnion field row v) (hw : IsUnion field row w) :
    v = w := by
  have hle : ∀ {v w : UInt32}, IsUnion field row v → IsUnion field row w → v ≤ w := by
    rintro v w ⟨-, rfl | ⟨i, hi, rfl⟩⟩ hw
    · exact UInt32.zero_le
    · exact hw.1 i hi
  exact UInt32.le_antisymm (hle hv hw) (hle hw hv)

theorem IsUnion.isMax {v : UInt32} (h : IsUnion field row v) (hl : Live row) :
    IsMax field row v := by
  refine ⟨?_, h.1⟩
  rcases h.2 with rfl | hatt
  · obtain ⟨i, hi⟩ := hl
    exact ⟨i, hi, UInt32.le_antisymm (h.1 i hi) UInt32.zero_le⟩
  · exact hatt

/-! ## The scans -/

/-- The scan invariant of `unionOf`, from any starting value. -/
theorem foldl_union (field : ClientSub → UInt32) (row : TopicRow)
    (l : List (Fin kMaxClientsPerTopic)) (best : UInt32) :
    let r := l.foldl
      (fun best i =>
        if (row.clients i).used && decide (best < field (row.clients i)) then
          field (row.clients i)
        else best) best
    best ≤ r ∧ (∀ i ∈ l, (row.clients i).used = true → field (row.clients i) ≤ r) ∧
      (r = best ∨ ∃ i ∈ l, (row.clients i).used = true ∧ field (row.clients i) = r) := by
  induction l generalizing best with
  | nil => exact ⟨UInt32.le_refl _, nofun, .inl rfl⟩
  | cons j l ih =>
    simp only [List.foldl_cons]
    split
    · rename_i h
      rw [Bool.and_eq_true, decide_eq_true_eq] at h
      obtain ⟨hbest, hall, hatt⟩ := ih (field (row.clients j))
      refine ⟨UInt32.le_trans (UInt32.le_of_lt h.2) hbest, ?_, ?_⟩
      · rintro i hi hu
        rcases List.mem_cons.1 hi with rfl | hi
        · exact hbest
        · exact hall i hi hu
      · rcases hatt with heq | ⟨i, hi, hu, heq⟩
        · exact .inr ⟨j, List.mem_cons_self, h.1, heq.symm⟩
        · exact .inr ⟨i, List.mem_cons_of_mem _ hi, hu, heq⟩
    · rename_i h
      rw [Bool.and_eq_true, decide_eq_true_eq, not_and, UInt32.not_lt] at h
      obtain ⟨hbest, hall, hatt⟩ := ih best
      refine ⟨hbest, ?_, ?_⟩
      · rintro i hi hu
        rcases List.mem_cons.1 hi with rfl | hi
        · exact UInt32.le_trans (h hu) hbest
        · exact hall i hi hu
      · rcases hatt with heq | ⟨i, hi, hu, heq⟩
        · exact .inl heq
        · exact .inr ⟨i, List.mem_cons_of_mem _ hi, hu, heq⟩

theorem isUnion_unionOf (field : ClientSub → UInt32) (row : TopicRow) :
    IsUnion field row (unionOf field row) := by
  obtain ⟨-, hall, hatt⟩ := foldl_union field row (List.finRange _) 0
  refine ⟨fun i hi => hall i (List.mem_finRange i) hi, ?_⟩
  rcases hatt with h | ⟨i, -, hu, h⟩
  · exact .inl h
  · exact .inr ⟨i, hu, h⟩

/-! ## What `evaluateUpstream` leaves alone -/

@[simp] theorem evaluateUpstream_used : (evaluateUpstream row nowMs).1.used = row.used := by
  unfold evaluateUpstream; dsimp only; split_ifs <;> rfl

@[simp] theorem evaluateUpstream_sourceId :
    (evaluateUpstream row nowMs).1.sourceId = row.sourceId := by
  unfold evaluateUpstream; dsimp only; split_ifs <;> rfl

@[simp] theorem evaluateUpstream_topicId :
    (evaluateUpstream row nowMs).1.topicId = row.topicId := by
  unfold evaluateUpstream; dsimp only; split_ifs <;> rfl

@[simp] theorem evaluateUpstream_clients :
    (evaluateUpstream row nowMs).1.clients = row.clients := by
  unfold evaluateUpstream; dsimp only; split_ifs <;> rfl

/-! ## What it restores -/

/-- A row that asserts nothing remembers no rate and no lease. -/
def Quiet (row : TopicRow) : Prop :=
  row.upstreamActive = false →
    row.upstreamRequestedRateMillihz = 0 ∧ row.upstreamLeaseMs = 0

theorem Reconciled.quiet (h : Reconciled row) : Quiet row := by
  intro hoff
  have hdead : ¬ Live row := fun hl => by rw [h.active.2 hl] at hoff; cases hoff
  exact ⟨h.rate.unique (isUnion_of_not_live hdead), h.lease.unique (isUnion_of_not_live hdead)⟩

theorem evaluateUpstream_reconciled (hq : Quiet row) (nowMs : UInt32) :
    Reconciled (evaluateUpstream row nowMs).1 := by
  unfold evaluateUpstream
  dsimp only
  by_cases hdead : refcount row = 0
  · rw [if_pos hdead]
    rw [refcount_eq_zero] at hdead
    split
    · rename_i hact
      rw [Bool.not_eq_true'] at hact
      obtain ⟨hr, hl⟩ := hq hact
      refine ⟨by simp [hact, hdead], ?_, ?_⟩
      · change IsUnion _ row row.upstreamRequestedRateMillihz
        rw [hr]; exact isUnion_of_not_live hdead
      · change IsUnion _ row row.upstreamLeaseMs
        rw [hl]; exact isUnion_of_not_live hdead
    · exact ⟨by simpa [Live] using hdead, isUnion_of_not_live hdead, isUnion_of_not_live hdead⟩
  · rw [if_neg hdead]
    rw [refcount_eq_zero, not_not] at hdead
    split
    · rename_i h
      simp only [Bool.and_eq_true, Bool.not_eq_true', Bool.or_eq_false_iff, Bool.not_eq_false',
        bne_eq_false_iff_eq] at h
      obtain ⟨⟨⟨hact, hr⟩, hl⟩, -⟩ := h
      exact ⟨by simp [hact, hdead], hr ▸ isUnion_unionOf _ row, hl ▸ isUnion_unionOf _ row⟩
    · exact ⟨by simpa [Live] using hdead, isUnion_unionOf _ row, isUnion_unionOf _ row⟩

/-! ## What its action says -/

/-- The rate a row has asserted upstream, if any. -/
def asserted (row : TopicRow) : Option UInt32 :=
  if row.upstreamActive then some row.upstreamRequestedRateMillihz else none

/-- The asserted rate after an action. -/
def UpstreamAction.asserts (action : UpstreamAction) (before : Option UInt32) : Option UInt32 :=
  match action.kind with
  | .none => before
  | .subscribe => some action.rateMillihz
  | .unsubscribe => none

/-- The action is the whole difference between the rate asserted before and after. -/
theorem asserted_evaluateUpstream (row : TopicRow) (nowMs : UInt32) :
    asserted (evaluateUpstream row nowMs).1 =
      (evaluateUpstream row nowMs).2.asserts (asserted row) := by
  unfold evaluateUpstream
  dsimp only
  split_ifs <;> rfl

/-- The action names the row it is about. -/
theorem evaluateUpstream_names (row : TopicRow) (nowMs : UInt32) :
    (evaluateUpstream row nowMs).2.sourceId = row.sourceId ∧
      (evaluateUpstream row nowMs).2.topicId = row.topicId := by
  unfold evaluateUpstream
  dsimp only
  split_ifs <;> exact ⟨rfl, rfl⟩

end BallyDongle.SubscriptionRegistry
