import BallyDongle.SubscriptionRegistry.Run

/-!
# The stream of actions

A reader that only applies the returned actions, in order, knows the rate every
topic asserts: `Follows g g' actions` says so of one call. The other thing the
callers rely on is which clients a call leaves behind (`LiveAll`).
-/

namespace BallyDongle.SubscriptionRegistry

variable {g g' : Registry} {row row' : TopicRow} {r : Fin kMaxTopics} {k : UInt32 × UInt32}

def UpstreamAction.key (a : UpstreamAction) : UInt32 × UInt32 := (a.sourceId, a.topicId)

/-- The rate asserted for a topic, if any. -/
def assertedAt (g : Registry) (k : UInt32 × UInt32) : Option UInt32 :=
  (SlotTable.lookup TopicRow.key k g.rows).bind asserted

/-- A reader's view of topic `k` after an action. -/
def assertOn (k : UInt32 × UInt32) (before : Option UInt32) (a : UpstreamAction) : Option UInt32 :=
  if a.key = k then a.asserts before else before

theorem assertOn_none {a : UpstreamAction} (h : a.kind = .none) (b : Option UInt32) :
    assertOn k b a = b := by
  unfold assertOn UpstreamAction.asserts
  rw [h]
  split <;> rfl

theorem assertOn_of_ne {a : UpstreamAction} (h : a.key ≠ k) (b : Option UInt32) :
    assertOn k b a = b := if_neg h

theorem Coherent.assertedAt_row (h : Coherent g) (hk : (g.rows r).key = some k) :
    assertedAt g k = asserted (g.rows r) := by
  rw [assertedAt, h.rows.lookup_eq_some.2 ⟨r, rfl, hk⟩]
  rfl

theorem assertedAt_absent (h : ∀ j, (g.rows j).key ≠ some k) : assertedAt g k = none := by
  rw [assertedAt, SlotTable.lookup_eq_none.2 h]
  rfl

/-- The call from `g` to `g'` returned `actions`. -/
structure Follows (g g' : Registry) (actions : List UpstreamAction) : Prop where
  coherent : Coherent g'
  asserted : ∀ k, assertedAt g' k = actions.foldl (assertOn k) (assertedAt g k)
  named : ∀ a ∈ actions, a.kind ≠ .none → ∃ r, (g'.rows r).key = some a.key

/-! ## One row -/

theorem follows_refl (h : Coherent g) : Follows g g [{}] :=
  ⟨h, fun _ => (assertOn_none rfl _).symm, fun a ha hk => absurd (by simp_all) hk⟩

/-- An edit of one row in use, with the action about it. -/
theorem Coherent.follows_write (h : Coherent g) (hkey : (g.rows r).key = some k)
    {a : UpstreamAction} (hkey' : row.key = some k) (hr : Reconciled row) (ha : a.key = k)
    (hrate : asserted row = a.asserts (asserted (g.rows r))) : Follows g (g.setRow r row) [a] := by
  have hc : Coherent (g.setRow r row) :=
    h.write (TopicRow.key_eq_some.1 hkey).1 (hkey'.trans hkey.symm) hr
  have hrow : ((g.setRow r row).rows r).key = some k := by rw [setRow_self, hkey']
  refine ⟨hc, fun k' => ?_, fun b hb _ => ⟨r, by rw [hrow, List.mem_singleton.1 hb, ha]⟩⟩
  rw [List.foldl_cons, List.foldl_nil]
  by_cases hk : k = k'
  · subst hk
    rw [hc.assertedAt_row hrow, h.assertedAt_row hkey, setRow_self, assertOn, if_pos ha, hrate]
  · have hne : some k ≠ some k' := fun e => hk (Option.some.inj e)
    rw [assertOn_of_ne (ha ▸ hk)]
    exact congrArg (Option.bind · _)
      (h.rows.lookup_update_of_ne hc.rows (hkey ▸ hne) (hkey' ▸ hne))

/-- The same edit followed by the reconciliation of the row. -/
theorem Coherent.follows_evaluate (h : Coherent g) (row : TopicRow)
    (hkey : (g.rows r).key = some k)
    (hk : row.key = some k) (hq : Quiet row) (hrate : asserted row = asserted (g.rows r))
    (now : UInt32) :
    Follows g (g.setRow r (evaluateUpstream row now).1) [(evaluateUpstream row now).2] := by
  have hkey' : (evaluateUpstream row now).1.key = some k := by simpa [TopicRow.key] using hk
  have hnames : (evaluateUpstream row now).2.key = k := by
    obtain ⟨-, hs, ht⟩ := TopicRow.key_eq_some.1 hk
    obtain ⟨hs', ht'⟩ := evaluateUpstream_names row now
    exact Prod.ext (hs'.trans hs) (ht'.trans ht)
  exact h.follows_write hkey hkey' (evaluateUpstream_reconciled hq now) hnames
    (hrate ▸ asserted_evaluateUpstream row now)

/-- A fresh row asserts nothing. -/
theorem Coherent.assertedAt_create (h : Coherent g) {sourceId topicId : UInt32}
    (hfree : (g.rows r).used = false) (hnew : ∀ j, (g.rows j).key ≠ some (sourceId, topicId))
    (k : UInt32 × UInt32) :
    assertedAt (g.setRow r { used := true, sourceId, topicId }) k = assertedAt g k := by
  have hc := h.create (r := r) hnew
  by_cases hk : (sourceId, topicId) = k
  · subst hk
    rw [hc.assertedAt_row (r := r) (by rw [setRow_self]; rfl), assertedAt_absent hnew, setRow_self]
    rfl
  · have hold : (g.rows r).key = none := by rw [TopicRow.key, hfree]; rfl
    refine congrArg (Option.bind · _) (h.rows.lookup_update_of_ne hc.rows ?_ ?_)
    · rw [hold]; intro h; cases h
    · exact fun e => hk (Option.some.inj e)

theorem Coherent.findOrCreateRow (h : Coherent g) {sourceId topicId : UInt32} {g₁ : Registry}
    {r : Fin kMaxTopics} (e : findOrCreateRow g sourceId topicId = (g₁, some r)) :
    Coherent g₁ ∧ ∀ k, assertedAt g₁ k = assertedAt g k := by
  obtain ⟨r', e', -⟩ | ⟨r', e', hu, hnew⟩ | e' := findOrCreateRow_cases g sourceId topicId
  · rw [e'] at e; cases e
    exact ⟨h, fun _ => rfl⟩
  · rw [e'] at e; cases e
    exact ⟨h.create hnew, h.assertedAt_create hu hnew⟩
  · rw [e'] at e; cases e

/-! ## Requests -/

theorem subscribe_follows (h : Coherent g) (clientId sourceId topicId rate lease now : UInt32) :
    let res := onDesktopSubscribe g clientId sourceId topicId rate lease now
    Follows g res.1 [res.2.upstream] := by
  intro res
  obtain e | ⟨g₁, r, hrow, hcase⟩ := onDesktopSubscribe_cases g clientId sourceId topicId rate lease now
  · rw [show res = (g, {}) from e]
    exact follows_refl h
  · obtain ⟨h₁, hsame⟩ := h.findOrCreateRow hrow
    have hkey := findOrCreateRow_key hrow
    have hedit : ∀ i c, Follows g
        (g₁.setRow r (evaluateUpstream ((g₁.rows r).setClient i c) now).1)
        [(evaluateUpstream ((g₁.rows r).setClient i c) now).2] := fun i c => by
      have hf := h₁.follows_evaluate ((g₁.rows r).setClient i c) hkey hkey
        (setClient_quiet (h₁.reconciled r) i c) rfl now
      exact ⟨hf.coherent, fun k => (hf.asserted k).trans (by rw [hsame k]), hf.named⟩
    obtain ⟨i, -, -, e⟩ | ⟨slot, -, e⟩ := hcase
    · rw [show res = _ from e]
      exact hedit _ _
    · rw [show res = _ from e]
      -- the registry differs from the edited one in its id counter only
      have hf := hedit slot (newClient g₁ clientId rate lease now)
      exact ⟨⟨hf.coherent.rows, hf.coherent.unused, hf.coherent.reconciled⟩, hf.asserted, hf.named⟩

theorem unsubscribe_follows (h : Coherent g) (clientId subscriptionId now : UInt32) :
    let res := onDesktopUnsubscribe g clientId subscriptionId now
    Follows g res.1 [res.2.upstream] := by
  intro res
  change Follows g (onDesktopUnsubscribe g clientId subscriptionId now).1
    [(onDesktopUnsubscribe g clientId subscriptionId now).2.upstream]
  unfold onDesktopUnsubscribe
  split
  · exact follows_refl h
  · rename_i r hr
    have hused := SlotTable.first_holds hr
    rw [Bool.and_eq_true] at hused
    split
    · exact follows_refl h
    · rename_i i _
      have hkey : (g.rows r).key = some ((g.rows r).sourceId, (g.rows r).topicId) :=
        TopicRow.key_eq_some.2 ⟨hused.1, rfl, rfl⟩
      exact h.follows_evaluate ((g.rows r).setClient i {}) hkey hkey
        (setClient_quiet (h.reconciled r) i {}) rfl now

/-! ## Keys -/

theorem setRow_key (hkey : row.key = (g.rows r).key) (j : Fin kMaxTopics) :
    ((g.setRow r row).rows j).key = (g.rows j).key := by
  by_cases hj : j = r
  · rw [hj, setRow_self, hkey]
  · rw [setRow_of_ne _ _ hj]

/-- Editing a client of a row and reconciling the row. -/
theorem setClient_key (g : Registry) (r : Fin kMaxTopics) (i : Fin kMaxClientsPerTopic)
    (c : ClientSub) (now : UInt32) (j : Fin kMaxTopics) :
    ((g.setRow r (evaluateUpstream ((g.rows r).setClient i c) now).1).rows j).key =
      (g.rows j).key :=
  setRow_key (by simp [TopicRow.key, TopicRow.setClient]) j

/-- A request adds at most the row it names. -/
theorem subscribe_key (g : Registry) (clientId sourceId topicId rate lease now : UInt32)
    (j : Fin kMaxTopics) :
    let g' := (onDesktopSubscribe g clientId sourceId topicId rate lease now).1
    (g'.rows j).key = (g.rows j).key ∨ (g'.rows j).key = some (sourceId, topicId) := by
  intro g'
  obtain e | ⟨g₁, r, hrow, hcase⟩ := onDesktopSubscribe_cases g clientId sourceId topicId rate lease now
  · exact .inl (by rw [show g' = g from congrArg Prod.fst e])
  · have h₁ : (g₁.rows j).key = (g.rows j).key ∨ (g₁.rows j).key = some (sourceId, topicId) := by
      obtain ⟨r', e', -⟩ | ⟨r', e', -⟩ | e' := findOrCreateRow_cases g sourceId topicId
      · rw [e'] at hrow; cases hrow
        exact .inl rfl
      · rw [e'] at hrow; cases hrow
        by_cases hj : j = r
        · rw [hj, setRow_self]; exact .inr rfl
        · rw [setRow_of_ne _ _ hj]; exact .inl rfl
      · rw [e'] at hrow; cases hrow
    have hsame : (g'.rows j).key = (g₁.rows j).key := by
      obtain ⟨i, -, -, e⟩ | ⟨slot, -, e⟩ := hcase
      · rw [show g' = _ from congrArg Prod.fst e]
        exact setClient_key g₁ r i _ now j
      · rw [show g' = _ from congrArg Prod.fst e]
        exact setClient_key g₁ r slot _ now j
    rwa [hsame]

theorem unsubscribe_key (g : Registry) (clientId subscriptionId now : UInt32)
    (j : Fin kMaxTopics) :
    ((onDesktopUnsubscribe g clientId subscriptionId now).1.rows j).key = (g.rows j).key := by
  unfold onDesktopUnsubscribe
  split
  · rfl
  · split
    · rfl
    · exact setClient_key g _ _ _ now j

/-- An edit of the counters of a row. -/
theorem Coherent.follows_onRow {g : Registry} (h : Coherent g) (sourceId topicId : UInt32)
    {edit : TopicRow → TopicRow} (hk : ∀ row, Keeps row (edit row))
    (hr : ∀ row, Reconciled row → Reconciled (edit row))
    (ha : ∀ row, asserted (edit row) = asserted row) :
    Follows g (onRow g sourceId topicId edit) [] := by
  unfold onRow
  split
  · exact ⟨h, fun _ => rfl, nofun⟩
  · rename_i r hf
    have hkey := findRow_key hf
    -- an edit that asserts the same is an edit with nothing to say
    have hw := h.follows_write (a := { sourceId, topicId }) hkey ((hk _).key.trans hkey)
      (hr _ (h.reconciled r)) rfl (ha _)
    exact ⟨hw.coherent, fun k => (hw.asserted k).trans (assertOn_none rfl _), nofun⟩

theorem onRow_key {g : Registry} {sourceId topicId : UInt32} {edit : TopicRow → TopicRow}
    (hk : ∀ row, Keeps row (edit row)) (j : Fin kMaxTopics) :
    ((onRow g sourceId topicId edit).rows j).key = (g.rows j).key := by
  unfold onRow
  split
  · rfl
  · exact setRow_key (hk _).key j

/-! ## Passes over every row -/

/-- What a pass may do to a row: its action is the whole change, and names it. -/
structure Edits (edit : TopicRow → TopicRow × UpstreamAction) : Prop where
  keeps : ∀ row, Keeps row (edit row).1
  reconciled : ∀ row, Reconciled row → Reconciled (edit row).1
  asserted : ∀ row, asserted (edit row).1 = (edit row).2.asserts (asserted row)
  names : ∀ row, (edit row).2.kind ≠ .none → row.key = some (edit row).2.key

/-- Reconciling the rows in use after dropping some clients. -/
theorem asserted_dropClients (row : TopicRow) (p : ClientSub → Bool) :
    asserted (row.dropClients p) = asserted row := rfl

theorem dropped_names {row : TopicRow} (hu : row.used = true) (p : ClientSub → Bool)
    (now : UInt32) : row.key = some (evaluateUpstream (row.dropClients p) now).2.key := by
  obtain ⟨hs, ht⟩ := evaluateUpstream_names (row.dropClients p) now
  exact TopicRow.key_eq_some.2 ⟨hu, hs.symm, ht.symm⟩

theorem disconnectRow_edits (clientId now : UInt32) : Edits (disconnectRow clientId now) where
  keeps := disconnectRow_keeps clientId now
  reconciled _ := disconnectRow_reconciled clientId now
  asserted row := by
    unfold disconnectRow
    dsimp only
    split
    · rfl
    · rw [asserted_evaluateUpstream, asserted_dropClients]
  names row := by
    unfold disconnectRow
    dsimp only
    split
    · exact fun h => absurd rfl h
    · rename_i h
      rw [Bool.or_eq_true, not_or, Bool.not_eq_true, Bool.not_eq_false'] at h
      exact fun _ => dropped_names h.1 _ now

theorem sweepRow_edits (now : UInt32) : Edits (sweepRow now) where
  keeps := sweepRow_keeps now
  reconciled _ := sweepRow_reconciled now
  asserted row := by
    unfold sweepRow
    dsimp only
    split
    · rfl
    · rw [asserted_evaluateUpstream, asserted_dropClients]
  names row := by
    unfold sweepRow
    dsimp only
    split
    · exact fun h => absurd rfl h
    · rename_i h
      rw [Bool.not_eq_true, Bool.not_eq_false'] at h
      exact fun _ => dropped_names h _ now

/-- A fold in which only one element counts. -/
theorem foldl_single {α β : Type} {f : β → α → β} {l : List α} (hnd : l.Nodup) {x : α} (hx : x ∈ l)
    (hf : ∀ y ∈ l, y ≠ x → ∀ b, f b y = b) (b : β) : l.foldl f b = f b x := by
  have hskip : ∀ {l : List α}, (∀ y ∈ l, ∀ b, f b y = b) → ∀ b, l.foldl f b = b := by
    intro l hl
    induction l with
    | nil => exact fun _ => rfl
    | cons y l ih =>
      intro b
      rw [List.foldl_cons, hl y List.mem_cons_self, ih fun z hz => hl z (List.mem_cons_of_mem _ hz)]
  induction l generalizing b with
  | nil => cases hx
  | cons y l ih =>
    obtain ⟨hy, hnd⟩ := List.nodup_cons.1 hnd
    rw [List.foldl_cons]
    rcases List.mem_cons.1 hx with rfl | hx
    · exact hskip (fun z hz => hf z (List.mem_cons_of_mem _ hz) fun e => hy (e ▸ hz)) _
    · rw [hf y List.mem_cons_self (fun e => hy (e ▸ hx))]
      exact ih hnd hx (fun z hz => hf z (List.mem_cons_of_mem _ hz)) b

/-- A reader that skips the empty actions reads the reported ones as it reads them all. -/
theorem foldl_reported {β : Type} {f : β → UpstreamAction → β}
    (hf : ∀ b a, a.kind = .none → f b a = b) (g : Registry)
    (edit : TopicRow → TopicRow × UpstreamAction) (b : β) :
    (reported g edit).foldl f b =
      (List.finRange kMaxTopics).foldl (fun b r => f b (edit (g.rows r)).2) b := by
  have hdrop : ∀ (l : List UpstreamAction) b,
      (l.filter fun a => a.kind ≠ .none).foldl f b = l.foldl f b := by
    intro l
    induction l with
    | nil => exact fun _ => rfl
    | cons a l ih =>
      intro b
      by_cases ha : a.kind = .none
      · rw [List.filter_cons_of_neg (by simpa using ha), List.foldl_cons, hf b a ha, ih]
      · rw [List.filter_cons_of_pos (by simpa using ha), List.foldl_cons, List.foldl_cons, ih]
  rw [reported, hdrop, List.foldl_map]

/-- A pass whose caller's array holds every action. -/
theorem Coherent.follows_overRows (h : Coherent g)
    {edit : TopicRow → TopicRow × UpstreamAction} (he : Edits edit) :
    Follows g (overRows g edit {}).1 (overRows g edit {}).2.stored := by
  have hkey : ∀ r, ((overRows g edit {}).1.rows r).key = (g.rows r).key := fun r =>
    (he.keeps (g.rows r)).key
  have hc : Coherent (overRows g edit {}).1 :=
    h.map (fun r => he.keeps (g.rows r)) fun r => he.reconciled _ (h.reconciled r)
  rw [overRows_stored_full]
  refine ⟨hc, fun k => ?_, fun a ha hk => ?_⟩
  · rw [foldl_reported fun b a ha => assertOn_none ha b]
    -- an action about another topic is skipped
    have hskip : ∀ r, (g.rows r).key ≠ some k → ∀ b, assertOn k b (edit (g.rows r)).2 = b := by
      intro r hr b
      by_cases hk : (edit (g.rows r)).2.kind = .none
      · exact assertOn_none hk b
      · exact assertOn_of_ne (fun e => hr ((he.names _ hk).trans (congrArg some e))) b
    by_cases hrow : ∃ r, (g.rows r).key = some k
    · obtain ⟨r, hr⟩ := hrow
      have hr' : ((overRows g edit {}).1.rows r).key = some k := (hkey r).trans hr
      rw [foldl_single (List.nodup_finRange _) (List.mem_finRange r)
        fun j _ hj => hskip j fun e => hj (h.rows e hr)]
      rw [hc.assertedAt_row hr', h.assertedAt_row hr, assertOn]
      change asserted (edit (g.rows r)).1 = _
      rw [he.asserted]
      split
      · rfl
      · rename_i hne
        by_cases hk : (edit (g.rows r)).2.kind = .none
        · rw [UpstreamAction.asserts, hk]
        · exact absurd (Option.some.inj ((he.names _ hk).symm.trans hr)) hne
    · have habs : ∀ r, (g.rows r).key ≠ some k := fun r hr => hrow ⟨r, hr⟩
      rw [assertedAt_absent habs, assertedAt_absent fun r => (hkey r).symm ▸ habs r]
      have hnone : ∀ l : List (Fin kMaxTopics),
          l.foldl (fun b r => assertOn k b (edit (g.rows r)).2) none = none := by
        intro l
        induction l with
        | nil => rfl
        | cons r l ih => rw [List.foldl_cons, hskip r (habs r), ih]
      exact (hnone _).symm
  · obtain ⟨ha, -⟩ := List.mem_filter.1 ha
    obtain ⟨r, -, rfl⟩ := List.mem_map.1 ha
    exact ⟨r, (hkey r).trans (he.names _ hk)⟩

/-! ## Who is left -/

/-- Every live client satisfies `C`, of its id and its rate. -/
def LiveAll (C : UInt32 → UInt32 → Prop) (g : Registry) : Prop :=
  ∀ r i, ((g.rows r).clients i).used = true →
    C ((g.rows r).clients i).clientId ((g.rows r).clients i).requestedRateMillihz

/-- `row'` has some of the clients of `row`, as they were. -/
def Prunes (row row' : TopicRow) : Prop :=
  ∀ i, (row'.clients i).used = true → row'.clients i = row.clients i

theorem prunes_dropClients (row : TopicRow) (p : ClientSub → Bool) :
    Prunes row (row.dropClients p) := by
  intro i hi
  simp only [TopicRow.dropClients] at hi ⊢
  split at hi
  · cases hi
  · rename_i hp; exact if_neg hp

theorem Prunes.evaluate (h : Prunes row row') (now : UInt32) :
    Prunes row (evaluateUpstream row' now).1 := by simpa [Prunes] using h

theorem disconnectRow_prunes (clientId now : UInt32) (row : TopicRow) :
    Prunes row (disconnectRow clientId now row).1 := by
  unfold disconnectRow
  dsimp only
  split
  · exact fun _ _ => rfl
  · exact (prunes_dropClients row _).evaluate now

theorem sweepRow_prunes (now : UInt32) (row : TopicRow) : Prunes row (sweepRow now row).1 := by
  unfold sweepRow
  dsimp only
  split
  · exact fun _ _ => rfl
  · exact (prunes_dropClients row _).evaluate now

variable {C : UInt32 → UInt32 → Prop}

theorem LiveAll.overRows (h : LiveAll C g) {edit : TopicRow → TopicRow × UpstreamAction}
    (hp : ∀ row, Prunes row (edit row).1) (out : Out) : LiveAll C (overRows g edit out).1 := by
  intro r i hi
  have heq : ((SubscriptionRegistry.overRows g edit out).1.rows r).clients i =
      (g.rows r).clients i := hp (g.rows r) i hi
  rw [heq] at hi ⊢
  exact h r i hi

/-- Writing a client that satisfies `C`, or freeing its slot. -/
theorem LiveAll.setClient (h : LiveAll C g) {i : Fin kMaxClientsPerTopic} {c : ClientSub}
    (hc : c.used = true → C c.clientId c.requestedRateMillihz)
    (hrow : row.clients = ((g.rows r).setClient i c).clients) : LiveAll C (g.setRow r row) := by
  intro r' j hj
  by_cases hr : r' = r
  · subst hr
    rw [setRow_self, hrow] at hj ⊢
    simp only [TopicRow.setClient] at hj ⊢
    by_cases hji : j = i
    · subst hji
      rw [Function.update_self] at hj ⊢
      exact hc hj
    · rw [Function.update_of_ne hji] at hj ⊢
      exact h r' j hj
  · rw [setRow_of_ne _ _ hr] at hj ⊢
    exact h r' j hj

theorem LiveAll.unsubscribe (h : LiveAll C g) (clientId subscriptionId now : UInt32) :
    LiveAll C (onDesktopUnsubscribe g clientId subscriptionId now).1 := by
  unfold onDesktopUnsubscribe
  split
  · exact h
  · split
    · exact h
    · exact h.setClient (c := {}) (fun hu => nomatch hu) evaluateUpstream_clients

theorem LiveAll.findOrCreateRow (h : LiveAll C g) (sourceId topicId : UInt32) :
    LiveAll C (findOrCreateRow g sourceId topicId).1 := by
  obtain ⟨r, e, -⟩ | ⟨r, e, -⟩ | e := findOrCreateRow_cases g sourceId topicId
  · rw [e]; exact h
  · rw [e]
    intro r' i hi
    by_cases hr : r' = r
    · subst hr; rw [setRow_self] at hi; cases hi
    · rw [setRow_of_ne _ _ hr] at hi ⊢; exact h r' i hi
  · rw [e]; exact h

theorem LiveAll.subscribe (h : LiveAll C g) {clientId rate : UInt32} (hc : C clientId rate)
    (sourceId topicId lease now : UInt32) :
    LiveAll C (onDesktopSubscribe g clientId sourceId topicId rate lease now).1 := by
  obtain e | ⟨g₁, r, hrow, hcase⟩ := onDesktopSubscribe_cases g clientId sourceId topicId rate lease now
  · rw [e]; exact h
  · have h₁ : LiveAll C g₁ := by simpa [hrow] using h.findOrCreateRow sourceId topicId
    obtain ⟨i, hu, -, e⟩ | ⟨slot, -, e⟩ := hcase
    · rw [e]
      exact h₁.setClient (c := renewed lease now ((g₁.rows r).clients i)) (fun _ => h₁ r i hu)
        evaluateUpstream_clients
    · rw [e]
      exact (h₁.setClient (i := slot) (c := newClient g₁ clientId rate lease now) (fun _ => hc)
        evaluateUpstream_clients : LiveAll C (g₁.setRow r _))

theorem LiveAll.onRow (h : LiveAll C g) (sourceId topicId : UInt32) {edit : TopicRow → TopicRow}
    (hk : ∀ row, (edit row).clients = row.clients) : LiveAll C (onRow g sourceId topicId edit) := by
  unfold SubscriptionRegistry.onRow
  split
  · exact h
  · rename_i r _
    intro r' i hi
    by_cases hr : r' = r
    · subst hr
      rw [setRow_self, hk] at hi ⊢
      exact h r' i hi
    · rw [setRow_of_ne _ _ hr] at hi ⊢
      exact h r' i hi

/-- A client that disconnected holds nothing. -/
theorem Coherent.disconnected (h : Coherent g) (clientId now : UInt32) (out : Out) :
    LiveAll (fun id _ => id ≠ clientId) (onClientDisconnected g clientId now out).1 := by
  intro r i hi
  change ((disconnectRow clientId now (g.rows r)).1.clients i).used = true at hi
  change ((disconnectRow clientId now (g.rows r)).1.clients i).clientId ≠ clientId
  unfold disconnectRow at hi ⊢
  dsimp only at hi ⊢
  split at hi
  · rename_i hcond
    rw [if_pos hcond]
    intro hid
    rw [Bool.or_eq_true, Bool.not_eq_true', Bool.not_eq_true', Option.isSome_eq_false_iff,
      Option.isNone_iff_eq_none] at hcond
    rcases hcond with hu | hnone
    · exact h.unused r hu ⟨i, hi⟩
    · have := SlotTable.first_eq_none.1 hnone i
      simp only [Bool.and_eq_false_iff, beq_eq_false_iff_ne] at this
      rcases this with hu | hne
      · rw [hu] at hi; cases hi
      · exact hne hid
  · rename_i hcond
    rw [if_neg hcond]
    rw [evaluateUpstream_clients] at hi ⊢
    simp only [TopicRow.dropClients] at hi ⊢
    split at hi
    · cases hi
    · rename_i hkeep
      rw [if_neg hkeep]
      intro hid
      exact hkeep (by simp [hi, hid])

end BallyDongle.SubscriptionRegistry
