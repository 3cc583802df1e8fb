import BallyDongle.Lib.Run
import BallyDongle.Lib.WrapClock
import BallyDongle.SubscriptionRegistry.Capacity

/-!
# Leases in real time

A `Timeline` is a registry with the time that passes, the last sweep, and what its
entries go back to: the last request accepted of a client for a topic, and the last
SUBSCRIBE decided about a topic. `Ledger` says that every deadline and every renewal
instant of the table is the reading of a real instant, one the last sweep had not
reached.
-/

namespace BallyDongle.SubscriptionRegistry

open WrapClock

variable {row row' edited : TopicRow} {swept swept' now ms : Nat}

/-- The operation, called at the instant `ms`. -/
def Op.calledAt (ms : Nat) : Op → Op
  | .subscribe clientId sourceId topicId rate lease _ =>
    .subscribe clientId sourceId topicId rate lease (reading ms)
  | .unsubscribe clientId subscriptionId _ => .unsubscribe clientId subscriptionId (reading ms)
  | .clientDisconnected clientId _ out => .clientDisconnected clientId (reading ms) out
  | .sweep _ out => .sweep (reading ms) out
  | op => op

def Op.isSweep : Op → Bool
  | .sweep _ _ => true
  | _ => false

/-- The actions an operation decides, whatever room its caller has for them. -/
def decided (g : Registry) : Op → List UpstreamAction
  | .subscribe clientId sourceId topicId rate lease now =>
    [(onDesktopSubscribe g clientId sourceId topicId rate lease now).2.upstream]
  | .unsubscribe clientId subscriptionId now =>
    [(onDesktopUnsubscribe g clientId subscriptionId now).2.upstream]
  | .clientDisconnected clientId now _ => reported g (disconnectRow clientId now)
  | .sweep now _ => reported g (sweepRow now)
  | _ => []

/-- A request accepted, or a SUBSCRIBE decided: its instant and its lease. -/
structure Asked where
  ms : Nat
  leaseMs : UInt32
  deriving DecidableEq, Repr

/-- The last SUBSCRIBE about topic `k` after an action decided at `ms`. -/
def askOn (ms : Nat) (k : UInt32 × UInt32) (before : Option Asked) (a : UpstreamAction) :
    Option Asked :=
  if a.kind = .subscribe ∧ a.key = k then some ⟨ms, a.leaseMs⟩ else before

/-- The last request of a client for a topic after an operation at `ms`. -/
def grantOn (ms : Nat) (g : Registry) (op : Op) (k : UInt32 × UInt32) (clientId : UInt32)
    (before : Option Asked) : Option Asked :=
  match op with
  | .subscribe client _ _ _ lease _ =>
    if acceptedTopic g op = some k ∧ client = clientId then some ⟨ms, lease⟩ else before
  | _ => before

structure Timeline where
  registry : Registry := {}
  granted : UInt32 × UInt32 → UInt32 → Option Asked := fun _ _ => none
  asked : UInt32 × UInt32 → Option Asked := fun _ => none
  swept : Nat
  now : Nat

/-- A call is an operation and its instant. -/
def Timeline.step (t : Timeline) (call : Nat × Op) : Timeline :=
  let ms := call.1
  let op := call.2.calledAt ms
  { registry := SubscriptionRegistry.step t.registry op
    granted := fun k clientId => grantOn ms t.registry op k clientId (t.granted k clientId)
    asked := fun k => (decided t.registry op).foldl (askOn ms k) (t.asked k)
    swept := if op.isSweep then ms else t.swept
    now := ms }

/-! ## One row -/

/-- An entry goes back to a request of its client, and its deadline was not reached at
the last sweep. -/
def EntryGranted (swept now : Nat) (granted : UInt32 → Option Asked) (c : ClientSub) : Prop :=
  ∃ request, granted c.clientId = some request ∧ c.requestedLeaseMs = clampLease request.leaseMs ∧
    c.leaseDeadlineMs = reading (request.ms + (clampLease request.leaseMs).toNat) ∧
    request.ms ≤ now ∧ swept < request.ms + (clampLease request.leaseMs).toNat

def RowGranted (swept now : Nat) (granted : UInt32 → Option Asked) (row : TopicRow) : Prop :=
  ∀ i, (row.clients i).used = true → EntryGranted swept now granted (row.clients i)

/-- What a row asserts goes back to a SUBSCRIBE, and its renewal was not due at the last
sweep. -/
def RowAsked (swept now : Nat) (asked : Option Asked) (row : TopicRow) : Prop :=
  row.upstreamActive = true → ∃ request, asked = some request ∧
    request.leaseMs = row.upstreamLeaseMs ∧
    row.upstreamRenewAtMs =
      reading (request.ms + (row.upstreamLeaseMs / kUpstreamRenewDivisor).toNat) ∧
    request.ms ≤ now ∧
    swept < request.ms + (row.upstreamLeaseMs / kUpstreamRenewDivisor).toNat

theorem clampLease_bounds (lease : UInt32) :
    1000 ≤ (clampLease lease).toNat ∧ (clampLease lease).toNat ≤ 300000 := by
  unfold clampLease kMinLeaseMs kMaxLeaseMs
  split
  · decide
  split
  · decide
  · rename_i hmin hmax
    rw [UInt32.not_lt, UInt32.le_iff_toNat_le] at hmin hmax
    exact ⟨hmin, hmax⟩

theorem RowGranted.later {granted : UInt32 → Option Asked} (h : RowGranted swept now granted row)
    (hnow : now ≤ ms) : RowGranted swept ms granted row := by
  intro i hi
  obtain ⟨request, hg, hl, hd, hm, hs⟩ := h i hi
  exact ⟨request, hg, hl, hd, Nat.le_trans hm hnow, hs⟩

theorem RowAsked.later {asked : Option Asked} (h : RowAsked swept now asked row) (hnow : now ≤ ms) :
    RowAsked swept ms asked row := by
  intro hactive
  obtain ⟨request, ha, hl, hr, hm, hs⟩ := h hactive
  exact ⟨request, ha, hl, hr, Nat.le_trans hm hnow, hs⟩

theorem RowGranted.prunes {granted : UInt32 → Option Asked} (h : RowGranted swept now granted row)
    (hp : Prunes row row') : RowGranted swept now granted row' := by
  intro i hi
  have hsame := hp i hi
  rw [hsame] at hi ⊢
  exact h i hi

/-- Writing an entry, or freeing it. -/
theorem RowGranted.setClient {granted granted' : UInt32 → Option Asked}
    (h : RowGranted swept now granted row) (hnow : now ≤ ms) {i : Fin kMaxClientsPerTopic}
    {c : ClientSub} (hd : SlotTable.Distinct ClientSub.key (row.setClient i c).clients)
    (hc : c.used = true → EntryGranted swept ms granted' c)
    (hsame : ∀ id, (c.used = true → id ≠ c.clientId) → granted' id = granted id) :
    RowGranted swept ms granted' (row.setClient i c) := by
  have hself : (row.setClient i c).clients i = c := Function.update_self ..
  intro j hj
  by_cases hji : j = i
  · rw [hji, hself] at hj ⊢
    exact hc hj
  · have hother : (row.setClient i c).clients j = row.clients j := Function.update_of_ne hji ..
    -- no other entry is of the client written
    have hid : c.used = true → (row.clients j).clientId ≠ c.clientId := by
      intro hu he
      refine hji (hd (ClientSub.key_eq_some.2 ⟨hj, rfl⟩) (ClientSub.key_eq_some.2 ?_))
      rw [hself, hother]
      exact ⟨hu, he.symm⟩
    rw [hother] at hj ⊢
    obtain ⟨request, hg, hrest⟩ := h.later hnow j hj
    exact ⟨request, (hsame _ hid).trans hg, hrest⟩

/-- The leases of a live row are clamped, and so is their union. -/
theorem RowGranted.lease_bounds {granted : UInt32 → Option Asked}
    (h : RowGranted swept now granted row) (hlive : Live row) :
    1000 ≤ (unionLeaseMs row).toNat ∧ (unionLeaseMs row).toNat ≤ 300000 := by
  obtain ⟨⟨i, hi, heq⟩, -⟩ := (isUnion_unionOf ClientSub.requestedLeaseMs row).isMax hlive
  obtain ⟨request, -, hl, -⟩ := h i hi
  rw [unionLeaseMs, ← heq, hl]
  exact clampLease_bounds _

theorem half_lease (lease : UInt32) :
    (lease / kUpstreamRenewDivisor).toNat = lease.toNat / 2 := UInt32.toNat_div ..

/-- What `evaluateUpstream` does to a live row: nothing, when the row asserts its union
and no renewal is due, else a SUBSCRIBE. -/
theorem evaluateUpstream_live (hlive : Live edited) (nowMs : UInt32) :
    (evaluateUpstream edited nowMs =
        (edited, { sourceId := edited.sourceId, topicId := edited.topicId }) ∧
      edited.upstreamActive = true ∧ reached nowMs edited.upstreamRenewAtMs = false) ∨
    ((evaluateUpstream edited nowMs).2.kind = .subscribe ∧
      (evaluateUpstream edited nowMs).2.leaseMs = unionLeaseMs edited ∧
      (evaluateUpstream edited nowMs).1.upstreamLeaseMs = unionLeaseMs edited ∧
      (evaluateUpstream edited nowMs).1.upstreamRenewAtMs =
        nowMs + unionLeaseMs edited / kUpstreamRenewDivisor) := by
  unfold evaluateUpstream
  dsimp only
  rw [if_neg fun h0 => refcount_eq_zero.1 h0 hlive]
  split
  · rename_i h
    simp only [Bool.and_eq_true, Bool.not_eq_true', Bool.or_eq_false_iff, Bool.not_eq_false',
      Bool.and_eq_false_iff] at h
    obtain ⟨⟨⟨hactive, -⟩, -⟩, hdue⟩ := h
    refine .inl ⟨rfl, hactive, hdue.resolve_left fun hoff => ?_⟩
    rw [hactive] at hoff
    cases hoff
  · exact .inr ⟨rfl, rfl, rfl, rfl⟩

/-- A dead row asserts nothing once it was evaluated. -/
theorem evaluateUpstream_dead (hdead : ¬ Live edited) (nowMs : UInt32) :
    (evaluateUpstream edited nowMs).1.upstreamActive = false := by
  unfold evaluateUpstream
  dsimp only
  rw [if_pos (refcount_eq_zero.2 hdead)]
  split
  · rename_i h
    rwa [Bool.not_eq_true'] at h
  · rfl

/-- Evaluating a row at `ms` renews what it asserts, or finds it was not due. -/
theorem RowAsked.evaluate {asked : Option Asked} {granted : UInt32 → Option Asked}
    (h : RowAsked swept now asked edited) (hgranted : RowGranted swept' ms granted edited)
    (hnow : now ≤ ms) (hle : swept ≤ now)
    (hswept : swept' = swept ∨ swept' = ms ∧ ms < swept + 2 ^ 31) :
    let up := evaluateUpstream edited (reading ms)
    RowAsked swept' ms (askOn ms (edited.sourceId, edited.topicId) asked up.2) up.1 := by
  intro up hactive
  by_cases hlive : Live edited
  · obtain ⟨hmin, -⟩ := hgranted.lease_bounds hlive
    obtain ⟨e, hbefore, hdue⟩ | ⟨hkind, hlease, hunion, hrenew⟩ :=
      evaluateUpstream_live hlive (reading ms)
    · obtain ⟨request, hasked, hl, hr, hm, hs⟩ := h hbefore
      rw [show up = _ from e]
      refine ⟨request, ?_, hl, hr, Nat.le_trans hm hnow, ?_⟩
      · rw [askOn, if_neg fun hsub => by cases hsub.1]
        exact hasked
      · obtain rfl | ⟨rfl, hpaced⟩ := hswept
        · exact hs
        · -- not due, so the sweep has not reached the renewal
          have hhalf := half_lease edited.upstreamLeaseMs
          have := edited.upstreamLeaseMs.toNat_lt
          rw [reached, hr, decide_eq_false_iff_not] at hdue
          refine Nat.lt_of_not_le fun hreached => hdue ((sub_lt_half ?_ ?_).2 hreached) <;> omega
    · have hkey : up.2.key = (edited.sourceId, edited.topicId) := by
        obtain ⟨hsource, htopic⟩ := evaluateUpstream_names edited (reading ms)
        exact Prod.ext hsource htopic
      refine ⟨⟨ms, unionLeaseMs edited⟩, ?_, hunion.symm, ?_, Nat.le_refl _, ?_⟩
      · rw [askOn, if_pos ⟨hkind, hkey⟩, hlease]
      · rw [hrenew, hunion, reading_add]
      · have hhalf := half_lease (unionLeaseMs edited)
        rw [hunion]
        dsimp only
        omega
  · rw [show up.1.upstreamActive = false from evaluateUpstream_dead hlive _] at hactive
    cases hactive

/-! ## The table -/

def TopicRow.topic (row : TopicRow) : UInt32 × UInt32 := (row.sourceId, row.topicId)

theorem TopicRow.key_of_used (hu : row.used = true) : row.key = some row.topic :=
  TopicRow.key_eq_some.2 ⟨hu, rfl, rfl⟩

structure Ledger (t : Timeline) : Prop where
  coherent : Coherent t.registry
  clients : ∀ r, SlotTable.Distinct ClientSub.key (t.registry.rows r).clients
  granted : ∀ r, (t.registry.rows r).used = true →
    RowGranted t.swept t.now (t.granted (t.registry.rows r).topic) (t.registry.rows r)
  asked : ∀ r, (t.registry.rows r).used = true →
    RowAsked t.swept t.now (t.asked (t.registry.rows r).topic) (t.registry.rows r)
  swept_le : t.swept ≤ t.now

/-- A call no earlier than the last one, and a sweep less than half a turn after the
last one, a lease short. -/
def Paced (t : Timeline) (call : Nat × Op) : Prop :=
  t.now ≤ call.1 ∧
    (call.2.isSweep = true → call.1 + kMaxLeaseMs.toNat < t.swept + 2 ^ 31)

variable {t t' : Timeline} {r : Fin kMaxTopics}

theorem Coherent.of_rows {g g' : Registry} (h : Coherent g) (hrows : g'.rows = g.rows) :
    Coherent g' := by
  refine ⟨?_, ?_, ?_⟩ <;> rw [hrows]
  · exact h.rows
  · exact h.unused
  · exact h.reconciled

/-- Only one row was written; the others have their topics' entries as they were. -/
theorem Ledger.setRow (h : Ledger t) (hc : Coherent t'.registry)
    (hrows : t'.registry.rows = Function.update t.registry.rows r row) (hused : row.used = true)
    (hclients : SlotTable.Distinct ClientSub.key row.clients)
    (hgranted : RowGranted t'.swept t'.now (t'.granted row.topic) row)
    (hasked : RowAsked t'.swept t'.now (t'.asked row.topic) row)
    (hsame : ∀ k, k ≠ row.topic → t'.granted k = t.granted k ∧ t'.asked k = t.asked k)
    (hswept : t'.swept = t.swept) (hnow : t.now ≤ t'.now) : Ledger t' := by
  have hself : t'.registry.rows r = row := by rw [hrows, Function.update_self]
  have hother : ∀ j, j ≠ r → t'.registry.rows j = t.registry.rows j := by
    intro j hj
    rw [hrows, Function.update_of_ne hj]
  -- the topic of another row in use is another one
  have htopic : ∀ j, j ≠ r → (t.registry.rows j).used = true →
      (t.registry.rows j).topic ≠ row.topic := by
    intro j hj hu he
    have hkey : (t'.registry.rows j).key = some row.topic := by
      rw [hother j hj, TopicRow.key_of_used hu, he]
    exact hj (hc.rows hkey (by rw [hself, TopicRow.key_of_used hused]))
  refine ⟨hc, fun j => ?_, fun j hu => ?_, fun j hu => ?_, ?_⟩
  · by_cases hj : j = r
    · rw [hj, hself]
      exact hclients
    · rw [hother j hj]
      exact h.clients j
  · by_cases hj : j = r
    · rw [hj, hself]
      exact hgranted
    · rw [hother j hj] at hu ⊢
      rw [(hsame _ (htopic j hj hu)).1, hswept]
      exact (h.granted j hu).later hnow
  · by_cases hj : j = r
    · rw [hj, hself]
      exact hasked
    · rw [hother j hj] at hu ⊢
      rw [(hsame _ (htopic j hj hu)).2, hswept]
      exact (h.asked j hu).later hnow
  · rw [hswept]
    exact Nat.le_trans h.swept_le hnow

theorem Ledger.later (h : Ledger t) (hnow : t.now ≤ ms) : Ledger { t with now := ms } where
  coherent := h.coherent
  clients := h.clients
  granted r hu := (h.granted r hu).later hnow
  asked r hu := (h.asked r hu).later hnow
  swept_le := Nat.le_trans h.swept_le hnow

/-- A fresh row has no entry and asserts nothing. -/
theorem Ledger.create (h : Ledger t) {sourceId topicId : UInt32}
    (hnew : ∀ j, (t.registry.rows j).key ≠ some (sourceId, topicId)) :
    Ledger { t with registry := t.registry.setRow r { used := true, sourceId, topicId } } :=
  h.setRow (h.coherent.create hnew) rfl rfl (fun _ _ _ hi => nomatch hi) (fun _ hi => nomatch hi)
    (fun ha => nomatch ha) (fun _ _ => ⟨rfl, rfl⟩) rfl (Nat.le_refl _)

theorem askOn_of_ne {a : UpstreamAction} {k : UInt32 × UInt32} (hk : a.key ≠ k)
    (before : Option Asked) : askOn ms k before a = before := if_neg fun h => hk h.2

theorem askOn_none {a : UpstreamAction} {k : UInt32 × UInt32} (ha : a.kind = .none)
    (before : Option Asked) : askOn ms k before a = before := by
  rw [askOn, if_neg fun h => by cases ha.symm.trans h.1]

/-- An entry of a row is written or freed, and the row evaluated. -/
theorem Ledger.setClient (h : Ledger t) (hused : (t.registry.rows r).used = true)
    (hnow : t.now ≤ ms) {i : Fin kMaxClientsPerTopic} {c : ClientSub} {g' : Registry}
    {granted' : UInt32 × UInt32 → UInt32 → Option Asked}
    (hrows : g'.rows = Function.update t.registry.rows r
      (evaluateUpstream ((t.registry.rows r).setClient i c) (reading ms)).1)
    (hd : SlotTable.Distinct ClientSub.key ((t.registry.rows r).setClient i c).clients)
    (hc : c.used = true → EntryGranted t.swept ms (granted' (t.registry.rows r).topic) c)
    (hsame : ∀ k id, (k = (t.registry.rows r).topic → c.used = true → id ≠ c.clientId) →
      granted' k id = t.granted k id) :
    Ledger
      { registry := g'
        granted := granted'
        asked := fun k => askOn ms k (t.asked k)
          (evaluateUpstream ((t.registry.rows r).setClient i c) (reading ms)).2
        swept := t.swept
        now := ms } := by
  set edited := (t.registry.rows r).setClient i c with hedited
  have htopic : (evaluateUpstream edited (reading ms)).1.topic = (t.registry.rows r).topic := by
    simp [TopicRow.topic, hedited, TopicRow.setClient]
  have hkey : (evaluateUpstream edited (reading ms)).2.key = (t.registry.rows r).topic := by
    obtain ⟨hsource, htop⟩ := evaluateUpstream_names edited (reading ms)
    exact Prod.ext hsource htop
  have hgranted : RowGranted t.swept ms (granted' (t.registry.rows r).topic) edited :=
    (h.granted r hused).setClient hnow hd hc fun id hid => hsame _ id fun _ => hid
  have hcoherent : Coherent (t.registry.setRow r (evaluateUpstream edited (reading ms)).1) := by
    refine h.coherent.write hused ?_
      (evaluateUpstream_reconciled (setClient_quiet (h.coherent.reconciled r) i c) _)
    simp [TopicRow.key, hedited, TopicRow.setClient]
  refine h.setRow (hcoherent.of_rows hrows) hrows ?_ ?_ ?_ ?_ (fun k hk => ⟨?_, ?_⟩) rfl hnow
  · simpa [hedited, TopicRow.setClient] using hused
  · simpa using hd
  · rw [htopic]
    exact hgranted.prunes (by simp [Prunes])
  · rw [htopic]
    exact RowAsked.evaluate (h.asked r hused) hgranted hnow h.swept_le (.inl rfl)
  · rw [htopic] at hk
    exact funext fun id => hsame k id fun he => absurd he hk
  · rw [htopic] at hk
    exact askOn_of_ne (hkey ▸ Ne.symm hk) _

/-! ## The operations -/

/-- A topic's reader follows the action about its row. -/
theorem foldl_askOn (hc : Coherent t.registry) {edit : TopicRow → TopicRow × UpstreamAction}
    (he : Edits edit) (hused : (t.registry.rows r).used = true) (before : Option Asked) :
    (reported t.registry edit).foldl (askOn ms (t.registry.rows r).topic) before =
      askOn ms (t.registry.rows r).topic before (edit (t.registry.rows r)).2 := by
  rw [foldl_reported fun b a ha => askOn_none ha b]
  refine foldl_single (List.nodup_finRange _) (List.mem_finRange r) (fun j _ hj b => ?_) before
  by_cases hk : (edit (t.registry.rows j)).2.kind = .none
  · exact askOn_none hk b
  · refine askOn_of_ne (fun htopic => hj (hc.rows (he.names _ hk) ?_)) b
    rw [htopic, TopicRow.key_of_used hused]

/-- A pass over the rows. -/
theorem Ledger.overRows (h : Ledger t) {edit : TopicRow → TopicRow × UpstreamAction}
    (he : Edits edit) (out : Out) (hle : swept' ≤ ms)
    (hrow : ∀ r, (t.registry.rows r).used = true →
      RowGranted t.swept t.now (t.granted (t.registry.rows r).topic) (t.registry.rows r) →
      RowAsked t.swept t.now (t.asked (t.registry.rows r).topic) (t.registry.rows r) →
      RowGranted swept' ms (t.granted (t.registry.rows r).topic) (edit (t.registry.rows r)).1 ∧
      RowAsked swept' ms
        (askOn ms (t.registry.rows r).topic (t.asked (t.registry.rows r).topic)
          (edit (t.registry.rows r)).2) (edit (t.registry.rows r)).1) :
    Ledger
      { registry := (overRows t.registry edit out).1
        granted := t.granted
        asked := fun k => (reported t.registry edit).foldl (askOn ms k) (t.asked k)
        swept := swept'
        now := ms } := by
  have hkeeps : ∀ r, Keeps (t.registry.rows r) (edit (t.registry.rows r)).1 :=
    fun r => he.keeps _
  have htopic : ∀ r, (edit (t.registry.rows r)).1.topic = (t.registry.rows r).topic :=
    fun r => Prod.ext (hkeeps r).sourceId (hkeeps r).topicId
  refine ⟨h.coherent.map hkeeps fun r => he.reconciled _ (h.coherent.reconciled r),
    fun r => (hkeeps r).distinct (h.clients r), fun r hu => ?_, fun r hu => ?_, hle⟩
  all_goals
    change (edit (t.registry.rows r)).1.used = true at hu
    rw [(hkeeps r).used] at hu
    obtain ⟨hgranted, hasked⟩ := hrow r hu (h.granted r hu) (h.asked r hu)
  · change RowGranted swept' ms (t.granted (edit (t.registry.rows r)).1.topic) _
    rw [htopic]
    exact hgranted
  · change RowAsked swept' ms
      ((reported t.registry edit).foldl (askOn ms (edit (t.registry.rows r)).1.topic)
        (t.asked (edit (t.registry.rows r)).1.topic)) _
    rw [htopic, foldl_askOn h.coherent he hu]
    exact hasked

theorem Ledger.clientDisconnected (h : Ledger t) (hnow : t.now ≤ ms) (clientId : UInt32)
    (nowMs : UInt32) (out : Out) : Ledger (t.step (ms, .clientDisconnected clientId nowMs out)) := by
  unfold Timeline.step
  simp only [Op.calledAt, Op.isSweep, Bool.false_eq_true, if_false]
  refine h.overRows (disconnectRow_edits clientId (reading ms)) out
    (Nat.le_trans h.swept_le hnow) fun r hu hgranted hasked => ?_
  unfold disconnectRow
  dsimp only
  split
  · exact ⟨hgranted.later hnow, by rw [askOn_none rfl]; exact hasked.later hnow⟩
  · have hleft := (hgranted.later hnow).prunes (prunes_dropClients (t.registry.rows r)
      fun c => c.used && c.clientId == clientId)
    refine ⟨hleft.prunes (by simp [Prunes]), ?_⟩
    exact RowAsked.evaluate hasked hleft hnow h.swept_le (.inl rfl)

/-- The entries a sweep keeps have deadlines it did not reach. -/
theorem RowGranted.sweep {granted : UInt32 → Option Asked} (h : RowGranted swept now granted row)
    (hnow : now ≤ ms) (hpaced : ms + kMaxLeaseMs.toNat < swept + 2 ^ 31) :
    RowGranted ms ms granted
      (row.dropClients fun c => c.used && reached (reading ms) c.leaseDeadlineMs) := by
  intro i hi
  simp only [TopicRow.dropClients] at hi ⊢
  split at hi
  · cases hi
  · rename_i hkeep
    rw [if_neg hkeep]
    obtain ⟨request, hg, hl, hd, hm, hs⟩ := h i hi
    refine ⟨request, hg, hl, hd, Nat.le_trans hm hnow, Nat.lt_of_not_le fun hle => hkeep ?_⟩
    have := clampLease_bounds request.leaseMs
    rw [hi, Bool.true_and, reached, hd, decide_eq_true_eq]
    exact (sub_lt_half (by omega) (by omega)).2 hle

theorem Ledger.sweep (h : Ledger t) (nowMs : UInt32) (out : Out)
    (hpaced : Paced t (ms, .sweep nowMs out)) : Ledger (t.step (ms, .sweep nowMs out)) := by
  obtain ⟨hnow, hturn⟩ := hpaced
  have hturn := hturn rfl
  unfold Timeline.step
  simp only [Op.calledAt, Op.isSweep, if_true]
  refine h.overRows (sweepRow_edits (reading ms)) out (Nat.le_refl ms)
    fun r hu hgranted hasked => ?_
  have hleft := hgranted.sweep hnow hturn
  dsimp only at hturn
  unfold sweepRow
  dsimp only
  rw [if_neg (by rw [hu]; decide)]
  refine ⟨hleft.prunes (by simp [Prunes]), ?_⟩
  exact RowAsked.evaluate hasked hleft hnow h.swept_le (.inr ⟨rfl, by omega⟩)

theorem Ledger.unsubscribe (h : Ledger t) (hnow : t.now ≤ ms) (clientId subscriptionId : UInt32)
    (nowMs : UInt32) : Ledger (t.step (ms, .unsubscribe clientId subscriptionId nowMs)) := by
  unfold Timeline.step Op.calledAt SubscriptionRegistry.step decided onDesktopUnsubscribe
  dsimp only [grantOn, Op.isSweep, List.foldl_cons, List.foldl_nil]
  cases hr : SlotTable.first
      (fun row => row.used && (findClient row clientId subscriptionId).isSome) t.registry.rows with
  | none =>
    simp only [askOn_none]
    exact h.later hnow
  | some r =>
    dsimp only
    cases findClient (t.registry.rows r) clientId subscriptionId with
    | none =>
      simp only [askOn_none]
      exact h.later hnow
    | some i =>
      have hused := SlotTable.first_holds hr
      rw [Bool.and_eq_true] at hused
      have hkeeps : Keeps (t.registry.rows r) ((t.registry.rows r).setClient i {}) :=
        keeps_setClient nofun
      exact h.setClient hused.1 hnow rfl (hkeeps.distinct (h.clients r)) nofun fun _ _ _ => rfl

theorem Ledger.findOrCreateRow (h : Ledger t) {sourceId topicId : UInt32} {g₁ : Registry}
    (e : findOrCreateRow t.registry sourceId topicId = (g₁, some r)) :
    Ledger { t with registry := g₁ } := by
  obtain ⟨r', e', -⟩ | ⟨r', e', -, hnew⟩ | e' :=
    findOrCreateRow_cases t.registry sourceId topicId
  · rw [e'] at e
    cases e
    exact h
  · rw [e'] at e
    cases e
    exact h.create hnew
  · rw [e'] at e
    cases e

theorem Ledger.subscribe (h : Ledger t) (hnow : t.now ≤ ms)
    (clientId sourceId topicId rate lease nowMs : UInt32) :
    Ledger (t.step (ms, .subscribe clientId sourceId topicId rate lease nowMs)) := by
  have hle := h.swept_le
  obtain ⟨hmin, -⟩ := clampLease_bounds lease
  obtain e | ⟨g₁, r, hrow, hcase⟩ :=
    onDesktopSubscribe_cases t.registry clientId sourceId topicId rate lease (reading ms)
  · have hstep : t.step (ms, .subscribe clientId sourceId topicId rate lease nowMs) =
        { t with now := ms } := by
      simp [Timeline.step, Op.calledAt, SubscriptionRegistry.step, decided, grantOn, acceptedTopic,
        Op.isSweep, e, askOn_none]
    rw [hstep]
    exact h.later hnow
  have h₁ := h.findOrCreateRow hrow
  have hkey := findOrCreateRow_key hrow
  obtain ⟨hused, hsource, htop⟩ := TopicRow.key_eq_some.1 hkey
  have htopic : (g₁.rows r).topic = (sourceId, topicId) := Prod.ext hsource htop
  -- the entry written is of this client and goes back to this request
  have hentry : ∀ (accepted : Option (UInt32 × UInt32)) c, accepted = some (sourceId, topicId) →
      c.clientId = clientId → c.requestedLeaseMs = clampLease lease →
      c.leaseDeadlineMs = reading ms + clampLease lease →
      EntryGranted t.swept ms (fun id => if accepted = some (g₁.rows r).topic ∧ clientId = id then
        some ⟨ms, lease⟩ else t.granted (g₁.rows r).topic id) c := by
    intro accepted c ha hid hl hd
    refine ⟨⟨ms, lease⟩, ?_, hl, by rw [hd, reading_add], Nat.le_refl _, ?_⟩
    · dsimp only
      rw [if_pos ⟨ha.trans (congrArg some htopic.symm), hid.symm⟩]
    · dsimp only
      omega
  have hother : ∀ (accepted : Option (UInt32 × UInt32)) (c : ClientSub) k id,
      accepted = some (sourceId, topicId) → c.clientId = clientId → c.used = true →
      (k = (g₁.rows r).topic → c.used = true → id ≠ c.clientId) →
      (if accepted = some k ∧ clientId = id then some ⟨ms, lease⟩ else t.granted k id) =
        t.granted k id := by
    intro accepted c k id ha hid hu hne
    refine if_neg fun hsame => hne ?_ hu (hsame.2.symm.trans hid.symm)
    rw [htopic]
    exact Option.some.inj (hsame.1.symm.trans ha)
  have haccepted : ∀ res : Registry × DesktopSubscribeOutcome, res.2.accepted = true →
      onDesktopSubscribe t.registry clientId sourceId topicId rate lease (reading ms) = res →
      acceptedTopic t.registry (.subscribe clientId sourceId topicId rate lease (reading ms)) =
        some (sourceId, topicId) := by
    rintro res ha rfl
    rw [acceptedTopic, if_pos ha]
  unfold Timeline.step
  simp only [Op.calledAt, Op.isSweep, Bool.false_eq_true, if_false, grantOn, decided,
    SubscriptionRegistry.step, List.foldl_cons, List.foldl_nil]
  obtain ⟨i, hu, ⟨hid, hl⟩, e⟩ | ⟨slot, hslot, e⟩ := hcase
  · have ha := haccepted _ rfl e
    rw [e]
    refine h₁.setClient hused hnow rfl ?_ (fun _ => hentry _ _ ha hid hl rfl)
      fun k id hne => hother _ _ k id ha hid hu hne
    exact (h₁.clients r).update_same rfl
  · have ha := haccepted _ rfl e
    rw [e]
    refine h₁.setClient hused hnow rfl ?_ (fun _ => hentry _ _ ha rfl rfl rfl)
      fun k id hne => hother _ _ k id ha rfl rfl hne
    exact setClient_distinct (h₁.clients r) hslot rfl

/-- `row'` has the entries of `row` and asserts what it asserts. -/
structure SameLeases (row row' : TopicRow) : Prop where
  used : row'.used = row.used
  topic : row'.topic = row.topic
  clients : row'.clients = row.clients
  active : row'.upstreamActive = row.upstreamActive
  lease : row'.upstreamLeaseMs = row.upstreamLeaseMs
  renewAt : row'.upstreamRenewAtMs = row.upstreamRenewAtMs

theorem SameLeases.refl (row : TopicRow) : SameLeases row row := ⟨rfl, rfl, rfl, rfl, rfl, rfl⟩

theorem sameLeases_setRow {g : Registry} (h : SameLeases (g.rows r) row) (j : Fin kMaxTopics) :
    SameLeases (g.rows j) ((g.setRow r row).rows j) := by
  by_cases hj : j = r
  · rw [hj, setRow_self]
    exact h
  · rw [setRow_of_ne _ _ hj]
    exact SameLeases.refl _

theorem sameLeases_onRow (g : Registry) (sourceId topicId : UInt32) {edit : TopicRow → TopicRow}
    (h : ∀ row, SameLeases row (edit row)) (j : Fin kMaxTopics) :
    SameLeases (g.rows j) ((onRow g sourceId topicId edit).rows j) := by
  unfold onRow
  split
  · exact SameLeases.refl _
  · exact sameLeases_setRow (h _) j

/-- Only the request bookkeeping and the counters changed. -/
theorem Ledger.sameLeases (h : Ledger t) (hnow : t.now ≤ ms) {g' : Registry} (hc : Coherent g')
    (hsame : ∀ r, SameLeases (t.registry.rows r) (g'.rows r)) :
    Ledger { t with registry := g', now := ms } where
  coherent := hc
  clients r := by
    rw [(hsame r).clients]
    exact h.clients r
  granted r hu := by
    have hold := (h.granted r ((hsame r).used ▸ hu)).later hnow
    unfold RowGranted at hold ⊢
    rw [(hsame r).clients, (hsame r).topic]
    exact hold
  asked r hu := by
    have hold := (h.asked r ((hsame r).used ▸ hu)).later hnow
    unfold RowAsked at hold ⊢
    rw [(hsame r).active, (hsame r).topic, (hsame r).lease, (hsame r).renewAt]
    exact hold
  swept_le := Nat.le_trans h.swept_le hnow

theorem Ledger.step (h : Ledger t) {call : Nat × Op} (hpaced : Paced t call) :
    Ledger (t.step call) := by
  obtain ⟨ms, op⟩ := call
  have hnow : t.now ≤ ms := hpaced.1
  have hcoherent : Coherent (SubscriptionRegistry.step t.registry (op.calledAt ms)) :=
    h.coherent.step _
  cases op with
  | subscribe clientId sourceId topicId rate lease nowMs =>
    exact h.subscribe hnow clientId sourceId topicId rate lease nowMs
  | unsubscribe clientId subscriptionId nowMs =>
    exact h.unsubscribe hnow clientId subscriptionId nowMs
  | clientDisconnected clientId nowMs out => exact h.clientDisconnected hnow clientId nowMs out
  | sweep nowMs out => exact h.sweep nowMs out hpaced
  | requestSent sourceId topicId sequence =>
    exact h.sameLeases hnow hcoherent
      (sameLeases_onRow _ sourceId topicId fun _ => ⟨rfl, rfl, rfl, rfl, rfl, rfl⟩)
  | subscribeResult sequence status id rate =>
    refine h.sameLeases hnow hcoherent fun j => ?_
    unfold SubscriptionRegistry.step Op.calledAt onUpstreamSubscribeResult
    dsimp only
    split
    · exact SameLeases.refl _
    · split
      all_goals
        refine sameLeases_setRow ?_ j
        exact ⟨rfl, rfl, rfl, rfl, rfl, rfl⟩
  | forwarded sourceId topicId bytes =>
    exact h.sameLeases hnow hcoherent
      (sameLeases_onRow _ sourceId topicId fun _ => ⟨rfl, rfl, rfl, rfl, rfl, rfl⟩)
  | dropped sourceId topicId =>
    exact h.sameLeases hnow hcoherent
      (sameLeases_onRow _ sourceId topicId fun _ => ⟨rfl, rfl, rfl, rfl, rfl, rfl⟩)

/-! ## The laws -/

/-- The instant a timeline starts at counts as a sweep of the empty table. -/
def Timeline.start (ms : Nat) : Timeline := { swept := ms, now := ms }

theorem start_ledger (ms : Nat) : Ledger (Timeline.start ms) where
  coherent := init_coherent
  clients _ _ _ _ hi := nomatch hi
  granted _ hu := nomatch hu
  asked _ hu := nomatch hu
  swept_le := Nat.le_refl _

/-- A sweep removes the entries whose leases ran out since their clients asked last, and
no others. -/
def SweepsLeases (t : Timeline) (call : Nat × Op) : Prop :=
  call.2.isSweep = true → ∀ r i, ((t.registry.rows r).clients i).used = true →
    ∃ request,
      t.granted (t.registry.rows r).topic ((t.registry.rows r).clients i).clientId = some request ∧
      (((((t.step call).registry.rows r).clients i).used = false ↔
        (clampLease request.leaseMs).toNat ≤ call.1 - request.ms)) ∧
      ((((t.step call).registry.rows r).clients i).used = true →
        ((t.step call).registry.rows r).clients i = (t.registry.rows r).clients i)

/-- With a sweep in the last `d` ms, the last SUBSCRIBE about a row with a client, at the
union of its leases, is at most half that lease and `d` ago. -/
def RenewsInTime (d : Nat) (t : Timeline) (call : Nat × Op) : Prop :=
  call.1 ≤ t.swept + d → ∀ r, Live (t.registry.rows r) →
    ∃ request, t.asked (t.registry.rows r).topic = some request ∧
      IsMax ClientSub.requestedLeaseMs (t.registry.rows r) request.leaseMs ∧
      call.1 - request.ms ≤ request.leaseMs.toNat / 2 + d

theorem Ledger.sweepsLeases (h : Ledger t) {call : Nat × Op} (hpaced : Paced t call) :
    SweepsLeases t call := by
  intro hsweep r i hi
  obtain ⟨ms, op⟩ := call
  obtain ⟨hnow, hturn⟩ := hpaced
  have hturn := hturn hsweep
  dsimp only at hnow hturn
  cases op with
  | sweep nowMs out =>
    have hused : (t.registry.rows r).used = true := by
      by_contra hu
      exact h.coherent.unused r (Bool.not_eq_true _ ▸ hu) ⟨i, hi⟩
    obtain ⟨request, hg, -, hd, hm, hs⟩ := h.granted r hused i hi
    have := clampLease_bounds request.leaseMs
    have hreached : reached (reading ms) ((t.registry.rows r).clients i).leaseDeadlineMs = true ↔
        (clampLease request.leaseMs).toNat ≤ ms - request.ms := by
      rw [reached, hd, decide_eq_true_eq, sub_lt_half (by omega) (by omega)]
      omega
    have hclients : ((t.step (ms, .sweep nowMs out)).registry.rows r).clients i =
        if reached (reading ms) ((t.registry.rows r).clients i).leaseDeadlineMs then {}
        else (t.registry.rows r).clients i := by
      change (sweepRow (reading ms) (t.registry.rows r)).1.clients i = _
      unfold sweepRow
      dsimp only
      rw [if_neg (by rw [hused]; decide), evaluateUpstream_clients, TopicRow.dropClients]
      dsimp only
      rw [hi, Bool.true_and]
    refine ⟨request, hg, ?_, ?_⟩ <;> rw [hclients]
    · rw [← hreached]
      split
      · rename_i hr
        exact iff_of_true rfl hr
      · rename_i hr
        rw [hi]
        exact iff_of_false (by decide) hr
    · split
      · intro h
        cases h
      · exact fun _ => rfl
  | _ => cases hsweep

theorem Ledger.renewsInTime (h : Ledger t) (d : Nat) (call : Nat × Op) : RenewsInTime d t call := by
  intro hd r hlive
  have hused : (t.registry.rows r).used = true := by
    by_contra hu
    exact h.coherent.unused r (Bool.not_eq_true _ ▸ hu) hlive
  have hrec := h.coherent.reconciled r
  obtain ⟨request, ha, hl, -, -, hs⟩ := h.asked r hused (hrec.active.2 hlive)
  have hhalf := half_lease (t.registry.rows r).upstreamLeaseMs
  refine ⟨request, ha, hl ▸ hrec.lease.isMax hlive, ?_⟩
  rw [hl]
  omega

/-- Along every paced run from an empty table, sweeps remove the entries whose leases ran
out and no others, and what a row asserts is renewed in time. -/
theorem run_leases (start d : Nat) (calls : List (Nat × Op))
    (hpaced : Run.AllSteps Timeline.step Paced (Timeline.start start) calls) :
    Run.AllSteps Timeline.step (fun t call => SweepsLeases t call ∧ RenewsInTime d t call)
      (Timeline.start start) calls :=
  Run.AllSteps.of_invariant (fun _ _ h => h.step)
    (fun _ call h hp => ⟨h.sweepsLeases hp, h.renewsInTime d call⟩) (start_ledger start) hpaced

end BallyDongle.SubscriptionRegistry
