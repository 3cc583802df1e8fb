import BallyDongle.SubscriptionRegistry.Invariant

/-!
# Runs of the aggregator

Every entry point keeps `Inv`; a run keeps it as long as fewer than `2^32 - 1`
ids were handed out, since the counter then has not come round.
-/

namespace BallyDongle.SubscriptionRegistry

/-! ## Subscribing -/

section subscribe

variable (g : Registry) (clientId sourceId topicId requestedRateMillihz requestedLeaseMs nowMs : UInt32)

/-- The entry a new or replacing request writes. -/
def newClient : ClientSub :=
  { used := true, clientId, subscriptionId := g.nextId, requestedRateMillihz
    requestedLeaseMs := clampLease requestedLeaseMs
    leaseDeadlineMs := nowMs + clampLease requestedLeaseMs }

/-- An entry renewed by an identical request. -/
def renewed (c : ClientSub) : ClientSub :=
  { c with leaseDeadlineMs := nowMs + clampLease requestedLeaseMs }

/-- What a request does: refused, it changes nothing; otherwise it edits one
client of the row of its topic, renewing the entry or writing a new one. -/
theorem onDesktopSubscribe_cases :
    let res := onDesktopSubscribe g clientId sourceId topicId requestedRateMillihz
      requestedLeaseMs nowMs
    res = (g, {}) ∨
    ∃ g₁ r, findOrCreateRow g sourceId topicId = (g₁, some r) ∧
      ((∃ i, ((g₁.rows r).clients i).used = true ∧
          (((g₁.rows r).clients i).clientId = clientId ∧
            ((g₁.rows r).clients i).requestedLeaseMs = clampLease requestedLeaseMs) ∧
          let up := evaluateUpstream
            ((g₁.rows r).setClient i (renewed requestedLeaseMs nowMs ((g₁.rows r).clients i))) nowMs
          res = (g₁.setRow r up.1,
            ⟨true, ((g₁.rows r).clients i).subscriptionId, up.2⟩)) ∨
        (∃ slot, slotFor (g₁.rows r) clientId = some slot ∧
          let up := evaluateUpstream ((g₁.rows r).setClient slot
            (newClient g₁ clientId requestedRateMillihz requestedLeaseMs nowMs)) nowMs
          res = ((nextSubscriptionId g₁).1.setRow r up.1, ⟨true, g₁.nextId, up.2⟩))) := by
  dsimp only
  unfold onDesktopSubscribe
  obtain ⟨r, e, -⟩ | ⟨r, e, hu, hnew⟩ | e := findOrCreateRow_cases g sourceId topicId
  · rw [e]
    dsimp only
    split
    · rename_i i hi
      have := SlotTable.first_holds hi
      simp only [Bool.and_eq_true, beq_iff_eq] at this
      exact .inr ⟨g, r, rfl, .inl ⟨i, this.1.1.1, ⟨this.1.1.2, this.2⟩, rfl⟩⟩
    · split
      · exact .inl rfl
      · rename_i slot hs
        exact .inr ⟨g, r, rfl, .inr ⟨slot, hs, rfl⟩⟩
  · -- a fresh row has no client to renew and every slot free
    have hrow : (g.setRow r { used := true, sourceId, topicId }).rows r =
        { used := true, sourceId, topicId } := Function.update_self ..
    rw [e]
    dsimp only
    rw [hrow]
    exact .inr ⟨_, r, rfl, .inr ⟨⟨0, by decide⟩, by rw [hrow]; rfl, by rw [hrow]; rfl⟩⟩
  · rw [e]; exact .inl rfl

end subscribe

theorem findOrCreateRow_key {g g₁ : Registry} {sourceId topicId : UInt32} {r : Fin kMaxTopics}
    (h : findOrCreateRow g sourceId topicId = (g₁, some r)) :
    (g₁.rows r).key = some (sourceId, topicId) := by
  obtain ⟨r', e, hk⟩ | ⟨r', e, -⟩ | e := findOrCreateRow_cases g sourceId topicId
  · rw [e] at h; cases h; exact hk
  · rw [e] at h; cases h
    rw [setRow_self]
    rfl
  · rw [e] at h; cases h

theorem setClient_quiet {row : TopicRow} (h : Reconciled row) (i : Fin kMaxClientsPerTopic)
    (c : ClientSub) : Quiet (row.setClient i c) := h.quiet

theorem dropClients_quiet {row : TopicRow} (h : Reconciled row) (p : ClientSub → Bool) :
    Quiet (row.dropClients p) := h.quiet

theorem nextSubscriptionId_ne (g : Registry) : (nextSubscriptionId g).1.nextId ≠ g.nextId := by
  simp only [nextSubscriptionId]
  split
  · rename_i h
    intro h1
    rw [← h1] at h
    exact absurd h (by decide)
  · intro h
    have := congrArg UInt32.toNat h
    rw [UInt32.toNat_add, show UInt32.toNat 1 = 1 from rfl] at this
    have := g.nextId.toNat_lt
    omega

/-- A request refused for lack of room changes nothing at all. -/
theorem onDesktopSubscribe_refused {g : Registry} {clientId sourceId topicId rate lease now : UInt32}
    (h : (onDesktopSubscribe g clientId sourceId topicId rate lease now).2.accepted = false) :
    onDesktopSubscribe g clientId sourceId topicId rate lease now = (g, {}) := by
  obtain e | ⟨g₁, r, -, ⟨i, -, -, e⟩ | ⟨slot, -, e⟩⟩ :=
    onDesktopSubscribe_cases g clientId sourceId topicId rate lease now
  · exact e
  · rw [e] at h; cases h
  · rw [e] at h; cases h

/-! ## Each entry point keeps the invariant -/

/-- An operation of the registry, with the arguments its caller passes. -/
inductive Op
  | subscribe (clientId sourceId topicId requestedRateMillihz requestedLeaseMs nowMs : UInt32)
  | unsubscribe (clientId subscriptionId nowMs : UInt32)
  | clientDisconnected (clientId nowMs : UInt32) (out : Out)
  | sweep (nowMs : UInt32) (out : Out)
  | requestSent (sourceId topicId sequence : UInt32)
  | subscribeResult (replyToSequence : UInt32) (status : UInt8)
      (upstreamSubscriptionId effectiveRateMillihz : UInt32)
  | forwarded (sourceId topicId : UInt32) (payloadBytes : Nat)
  | dropped (sourceId topicId : UInt32)
  deriving DecidableEq, Repr

def step (g : Registry) : Op → Registry
  | .subscribe clientId sourceId topicId rate lease now =>
    (onDesktopSubscribe g clientId sourceId topicId rate lease now).1
  | .unsubscribe clientId subscriptionId now => (onDesktopUnsubscribe g clientId subscriptionId now).1
  | .clientDisconnected clientId now out => (onClientDisconnected g clientId now out).1
  | .sweep now out => (SubscriptionRegistry.sweep g now out).1
  | .requestSent sourceId topicId sequence => noteUpstreamRequestSent g sourceId topicId sequence
  | .subscribeResult sequence status id rate =>
    (onUpstreamSubscribeResult g sequence status id rate).1
  | .forwarded sourceId topicId bytes => recordForwarded g sourceId topicId bytes
  | .dropped sourceId topicId => recordDropped g sourceId topicId

/-- The ids handed out between two states of one step, 0 or 1. -/
def allocates (g g' : Registry) : Nat := if g'.nextId = g.nextId then 0 else 1

theorem subscribe_inv {n : Nat} {g : Registry} (h : Inv n g)
    (clientId sourceId topicId rate lease now : UInt32) :
    let g' := step g (.subscribe clientId sourceId topicId rate lease now)
    n + allocates g g' < 2 ^ 32 - 1 → Inv (n + allocates g g') g' := by
  intro g' hn
  obtain e | ⟨g₁, r, hrow, ⟨i, hu, -, e⟩ | ⟨slot, hslot, e⟩⟩ :=
    onDesktopSubscribe_cases g clientId sourceId topicId rate lease now
  · have hg' : g' = g := congrArg Prod.fst e
    rw [hg', allocates, if_pos rfl]
    exact h
  all_goals
    have hg₁ : Inv n g₁ := by simpa [hrow] using h.findOrCreateRow sourceId topicId
    have hid : g₁.nextId = g.nextId := UInt32.toNat_inj.1 (hg₁.nextId.trans h.nextId.symm)
    have hg' := congrArg Prod.fst e
    dsimp only at hg'
    change g' = _ at hg'
  · rw [hg', allocates, setRow_nextId, if_pos hid]
    refine hg₁.edit ((keeps_setClient ?_).evaluate now)
      (evaluateUpstream_reconciled (setClient_quiet (hg₁.reconciled r) _ _) now)
    exact fun _ => ⟨hu, rfl, rfl⟩
  · have hne : (nextSubscriptionId g₁).1.nextId ≠ g.nextId := hid ▸ nextSubscriptionId_ne g₁
    rw [hg', allocates, setRow_nextId, if_neg hne] at hn
    rw [hg', allocates, setRow_nextId, if_neg hne]
    have hused := (TopicRow.key_eq_some.1 (findOrCreateRow_key hrow)).1
    refine hg₁.write hn hused hslot rfl rfl evaluateUpstream_clients ?_
      (evaluateUpstream_reconciled (setClient_quiet (hg₁.reconciled r) _ _) now)
    simp [TopicRow.key, TopicRow.setClient]

theorem unsubscribe_inv {n : Nat} {g : Registry} (h : Inv n g)
    (clientId subscriptionId now : UInt32) :
    Inv n (onDesktopUnsubscribe g clientId subscriptionId now).1 := by
  unfold onDesktopUnsubscribe
  split
  · exact h
  · split
    · exact h
    · rename_i r _ _ i _
      refine h.edit ((keeps_setClient ?_).evaluate now)
        (evaluateUpstream_reconciled (setClient_quiet (h.reconciled r) _ _) now)
      exact fun hu => nomatch hu

/-- A pass over the rows keeps the invariant when its edit of each row does. -/
theorem overRows_inv {n : Nat} {g : Registry} (h : Inv n g) {out : Out}
    {edit : TopicRow → TopicRow × UpstreamAction} (hk : ∀ row, Keeps row (edit row).1)
    (hr : ∀ row, Reconciled row → Reconciled (edit row).1) : Inv n (overRows g edit out).1 :=
  h.map rfl (fun r => hk (g.rows r)) fun r => hr _ (h.reconciled r)

theorem disconnectRow_keeps (clientId now : UInt32) (row : TopicRow) :
    Keeps row (disconnectRow clientId now row).1 := by
  unfold disconnectRow
  dsimp only
  split
  · exact Keeps.refl row
  · exact (keeps_dropClients row _).evaluate now

theorem disconnectRow_reconciled (clientId now : UInt32) {row : TopicRow} (h : Reconciled row) :
    Reconciled (disconnectRow clientId now row).1 := by
  unfold disconnectRow
  dsimp only
  split
  · exact h
  · exact evaluateUpstream_reconciled (dropClients_quiet h _) now

theorem sweepRow_keeps (now : UInt32) (row : TopicRow) : Keeps row (sweepRow now row).1 := by
  unfold sweepRow
  dsimp only
  split
  · exact Keeps.refl row
  · exact (keeps_dropClients row _).evaluate now

theorem sweepRow_reconciled (now : UInt32) {row : TopicRow} (h : Reconciled row) :
    Reconciled (sweepRow now row).1 := by
  unfold sweepRow
  dsimp only
  split
  · exact h
  · exact evaluateUpstream_reconciled (dropClients_quiet h _) now

/-- Editing only the request bookkeeping or the counters of a row. -/
theorem onRow_inv {n : Nat} {g : Registry} (h : Inv n g) {sourceId topicId : UInt32}
    {edit : TopicRow → TopicRow} (hk : ∀ row, Keeps row (edit row))
    (hr : ∀ row, Reconciled row → Reconciled (edit row)) :
    Inv n (onRow g sourceId topicId edit) := by
  unfold onRow
  split
  · exact h
  · exact h.edit (hk _) (hr _ (h.reconciled _))

theorem subscribeResult_inv {n : Nat} {g : Registry} (h : Inv n g) (sequence : UInt32)
    (status : UInt8) (id rate : UInt32) :
    Inv n (onUpstreamSubscribeResult g sequence status id rate).1 := by
  unfold onUpstreamSubscribeResult
  dsimp only
  split
  · exact h
  · rename_i r _
    have hrec := h.reconciled r
    split
    all_goals
      exact h.edit ⟨rfl, rfl, rfl, fun _ hu => ⟨hu, rfl, rfl⟩⟩ ⟨hrec.active, hrec.rate, hrec.lease⟩

theorem step_inv {n : Nat} {g : Registry} (h : Inv n g) (op : Op)
    (hn : n + allocates g (step g op) < 2 ^ 32 - 1) :
    Inv (n + allocates g (step g op)) (step g op) := by
  have hsame : Inv n (step g op) → Inv (n + allocates g (step g op)) (step g op) := by
    intro h'
    have hid : (step g op).nextId = g.nextId :=
      UInt32.toNat_inj.1 (h'.nextId.trans h.nextId.symm)
    rwa [allocates, if_pos hid]
  cases op with
  | subscribe clientId sourceId topicId rate lease now =>
    exact subscribe_inv h clientId sourceId topicId rate lease now hn
  | unsubscribe clientId subscriptionId now =>
    exact hsame (unsubscribe_inv h clientId subscriptionId now)
  | clientDisconnected clientId now out =>
    exact hsame (overRows_inv h (disconnectRow_keeps clientId now)
      fun _ => disconnectRow_reconciled clientId now)
  | sweep now out =>
    exact hsame (overRows_inv h (sweepRow_keeps now) fun _ => sweepRow_reconciled now)
  | requestSent sourceId topicId sequence =>
    apply hsame
    unfold step noteUpstreamRequestSent
    exact onRow_inv h (fun _ => ⟨rfl, rfl, rfl, fun _ hu => ⟨hu, rfl, rfl⟩⟩)
      fun _ hr => ⟨hr.active, hr.rate, hr.lease⟩
  | subscribeResult sequence status id rate =>
    exact hsame (subscribeResult_inv h sequence status id rate)
  | forwarded sourceId topicId bytes =>
    apply hsame
    unfold step recordForwarded
    exact onRow_inv h (fun _ => ⟨rfl, rfl, rfl, fun _ hu => ⟨hu, rfl, rfl⟩⟩)
      fun _ hr => ⟨hr.active, hr.rate, hr.lease⟩
  | dropped sourceId topicId =>
    apply hsame
    unfold step recordDropped
    exact onRow_inv h (fun _ => ⟨rfl, rfl, rfl, fun _ hu => ⟨hu, rfl, rfl⟩⟩)
      fun _ hr => ⟨hr.active, hr.rate, hr.lease⟩

/-! ## Runs -/

def run (g : Registry) (ops : List Op) : Registry := ops.foldl step g

/-- The ids handed out along a run. -/
def idsAllocated (g : Registry) : List Op → Nat
  | [] => 0
  | op :: ops => allocates g (step g op) + idsAllocated (step g op) ops

theorem run_inv {n : Nat} {g : Registry} (h : Inv n g) (ops : List Op)
    (hn : n + idsAllocated g ops < 2 ^ 32 - 1) : Inv (n + idsAllocated g ops) (run g ops) := by
  induction ops generalizing n g with
  | nil => exact h
  | cons op ops ih =>
    simp only [idsAllocated] at hn ⊢
    rw [← Nat.add_assoc] at hn ⊢
    exact ih (step_inv h op (by omega)) hn

/-! ## Output arrays -/

/-- The actions a pass over the rows reports, in row order. -/
def reported (g : Registry) (edit : TopicRow → TopicRow × UpstreamAction) : List UpstreamAction :=
  ((List.finRange kMaxTopics).map fun r => (edit (g.rows r)).2).filter fun a => a.kind ≠ .none

/-- `w` is what the array holds once `actions` were reported. -/
structure Written.Holds (out : Out) (w : Written) (actions : List UpstreamAction) : Prop where
  count : w.count = min out.maxOut actions.length
  stored : w.stored = if out.isNull then [] else actions.take out.maxOut

theorem Written.Holds.push {out : Out} {w : Written} {actions : List UpstreamAction}
    (h : w.Holds out actions) {a : UpstreamAction} (ha : a.kind ≠ .none) :
    (w.push out a).Holds out (actions ++ [a]) := by
  unfold Written.push
  rw [if_neg ha]
  have hlt : w.count < out.maxOut ↔ actions.length < out.maxOut := by rw [h.count]; omega
  refine ⟨?_, ?_⟩
  · dsimp only
    rw [h.count, List.length_append, List.length_singleton]
    split <;> omega
  · dsimp only
    rw [h.stored]
    by_cases hn : out.isNull = true
    · simp [hn]
    · simp only [hn, Bool.not_false, Bool.true_and, decide_eq_true_eq, if_false, hlt,
        Bool.false_eq_true]
      split
      · rename_i hl
        rw [List.take_of_length_le (by omega), List.take_of_length_le (by simp; omega)]
      · rw [List.take_append_of_le_length (by omega)]

theorem foldl_push_holds {out : Out} {w : Written} {pre : List UpstreamAction}
    (h : w.Holds out pre) (actions : List UpstreamAction) :
    (actions.foldl (Written.push out) w).Holds out
      (pre ++ actions.filter fun a => a.kind ≠ .none) := by
  induction actions generalizing w pre with
  | nil => simpa using h
  | cons a actions ih =>
    rw [List.foldl_cons]
    by_cases ha : a.kind = .none
    · have hskip : w.push out a = w := by rw [Written.push, if_pos ha]
      rw [hskip, List.filter_cons_of_neg (by simpa using ha)]
      exact ih h
    · rw [List.filter_cons_of_pos (by simpa using ha)]
      simpa using ih (h.push ha)

theorem overRows_holds (g : Registry) (edit : TopicRow → TopicRow × UpstreamAction) (out : Out) :
    (overRows g edit out).2.Holds out (reported g edit) := by
  have h := @foldl_push_holds out {} [] ⟨by simp, by simp⟩
    ((List.finRange kMaxTopics).map fun r => (edit (g.rows r)).2)
  rwa [List.nil_append, List.foldl_map] at h

theorem length_reported_le (g : Registry) (edit : TopicRow → TopicRow × UpstreamAction) :
    (reported g edit).length ≤ kMaxTopics :=
  (List.length_filter_le _ _).trans (by simp)

/-- A full-size array receives every reported action. -/
theorem overRows_stored_full (g : Registry) (edit : TopicRow → TopicRow × UpstreamAction) :
    (overRows g edit {}).2.stored = reported g edit := by
  rw [(overRows_holds g edit {}).stored, if_neg (by decide)]
  exact List.take_of_length_le (length_reported_le g edit)

/-- A smaller array only loses the last actions. -/
theorem overRows_stored_prefix (g : Registry) (edit : TopicRow → TopicRow × UpstreamAction)
    (out : Out) : (overRows g edit out).2.stored <+: (overRows g edit {}).2.stored := by
  rw [overRows_stored_full, (overRows_holds g edit out).stored]
  split
  · exact List.nil_prefix
  · exact List.take_prefix _ _

/-- The same call with an array that holds every action. -/
def Op.fullOut : Op → Op
  | .clientDisconnected clientId now _ => .clientDisconnected clientId now {}
  | .sweep now _ => .sweep now {}
  | op => op

theorem step_fullOut (g : Registry) (op : Op) : step g op.fullOut = step g op := by
  cases op <;> rfl

theorem run_fullOut (g : Registry) (ops : List Op) : run g (ops.map Op.fullOut) = run g ops := by
  simp only [run, List.foldl_map, step_fullOut]

/-! ## The representation -/

/-- What the table promises its callers. -/
structure Represents (g : Registry) : Prop where
  row_unique : ∀ r r', (g.rows r).used = true → (g.rows r').used = true →
    (g.rows r).sourceId = (g.rows r').sourceId → (g.rows r).topicId = (g.rows r').topicId → r = r'
  client_unique : ∀ r i j, ((g.rows r).clients i).used = true → ((g.rows r).clients j).used = true →
    ((g.rows r).clients i).clientId = ((g.rows r).clients j).clientId → i = j
  id_ne_zero : ∀ r i, ((g.rows r).clients i).used = true →
    ((g.rows r).clients i).subscriptionId ≠ 0
  id_distinct : ∀ r i r' i', ((g.rows r).clients i).used = true →
    ((g.rows r').clients i').used = true →
    ((g.rows r).clients i).subscriptionId = ((g.rows r').clients i').subscriptionId →
    r = r' ∧ i = i'
  active : ∀ r, (g.rows r).upstreamActive = true ↔ Live (g.rows r)
  rate : ∀ r, Live (g.rows r) →
    IsMax ClientSub.requestedRateMillihz (g.rows r) (g.rows r).upstreamRequestedRateMillihz
  lease : ∀ r, Live (g.rows r) →
    IsMax ClientSub.requestedLeaseMs (g.rows r) (g.rows r).upstreamLeaseMs

theorem Inv.represents {n : Nat} {g : Registry} (h : Inv n g) : Represents g where
  row_unique r r' hu hu' hs ht := by
    have hk : (g.rows r).key = some ((g.rows r').sourceId, (g.rows r').topicId) :=
      TopicRow.key_eq_some.2 ⟨hu, hs, ht⟩
    exact h.rows hk (TopicRow.key_eq_some.2 ⟨hu', rfl, rfl⟩)
  client_unique r i j hi hj hc :=
    h.clients r (ClientSub.key_eq_some.2 ⟨hi, hc⟩) (ClientSub.key_eq_some.2 ⟨hj, rfl⟩)
  id_ne_zero r i hi h0 := by
    have := (h.ids r i hi).1
    rw [h0] at this
    exact absurd this (by decide)
  id_distinct := h.distinct
  active r := (h.reconciled r).active
  rate r hl := (h.reconciled r).rate.isMax hl
  lease r hl := (h.reconciled r).lease.isMax hl

/-- Along every run that hands out fewer than `2^32 - 1` ids the table keeps its
representation, a refused request changes nothing, and the size of the output
arrays decides only how many actions their caller sees. -/
theorem run_represents (ops : List Op) (hids : idsAllocated {} ops < 2 ^ 32 - 1) :
    Represents (run {} ops) ∧
    (∀ clientId sourceId topicId rate lease now,
      (onDesktopSubscribe (run {} ops) clientId sourceId topicId rate lease now).2.accepted = false →
      (onDesktopSubscribe (run {} ops) clientId sourceId topicId rate lease now).1 = run {} ops) ∧
    (∀ ops', ops'.map Op.fullOut = ops.map Op.fullOut → run {} ops' = run {} ops) ∧
    (∀ clientId now out, (onClientDisconnected (run {} ops) clientId now out).2.stored <+:
      (onClientDisconnected (run {} ops) clientId now {}).2.stored) ∧
    (∀ now out, (sweep (run {} ops) now out).2.stored <+: (sweep (run {} ops) now {}).2.stored) := by
  have hinv := run_inv init_inv ops (by omega)
  refine ⟨hinv.represents, fun _ _ _ _ _ _ hrej => ?_, fun ops' h => ?_,
    fun _ _ out => overRows_stored_prefix _ _ out, fun _ out => overRows_stored_prefix _ _ out⟩
  · rw [onDesktopSubscribe_refused hrej]
  · rw [← run_fullOut {} ops', h, run_fullOut]

/-- Two clients share a topic at different rates; the faster one leaves. -/
theorem run_represents_two_clients :
    let ops : List Op := [.subscribe 7 1 2 500 2000 0, .subscribe 9 1 2 800 2000 5,
      .unsubscribe 9 2 10, .sweep 20 { maxOut := 0 }]
    idsAllocated {} ops < 2 ^ 32 - 1 ∧ Represents (run {} ops) :=
  have h : idsAllocated {} [.subscribe 7 1 2 500 2000 0, .subscribe 9 1 2 800 2000 5,
      .unsubscribe 9 2 10, .sweep 20 { maxOut := 0 }] < 2 ^ 32 - 1 := by decide
  ⟨h, (run_represents _ h).1⟩

end BallyDongle.SubscriptionRegistry
