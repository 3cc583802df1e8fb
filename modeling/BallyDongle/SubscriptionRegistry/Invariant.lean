import BallyDongle.SubscriptionRegistry.Upstream
import Mathlib.Tactic.Common

/-!
# The representation invariant of the aggregator

`Coherent g`: the rows sit under distinct keys and each is reconciled.
`Inv allocated g` adds the clients: they sit under distinct keys, and the live
ids are distinct and come from the `allocated` ids handed out so far. Each entry
point is one of three edits of the table, `map` (no new client anywhere),
`create` (a fresh row) and `write` (one client under a fresh id).
-/

namespace BallyDongle.SubscriptionRegistry

def TopicRow.key (row : TopicRow) : Option (UInt32 × UInt32) :=
  if row.used then some (row.sourceId, row.topicId) else none

def ClientSub.key (c : ClientSub) : Option UInt32 := if c.used then some c.clientId else none

theorem TopicRow.key_eq_some {row : TopicRow} {k : UInt32 × UInt32} :
    row.key = some k ↔ row.used = true ∧ row.sourceId = k.1 ∧ row.topicId = k.2 := by
  unfold TopicRow.key
  split <;> simp_all [Prod.ext_iff]

theorem ClientSub.key_eq_some {c : ClientSub} {k : UInt32} :
    c.key = some k ↔ c.used = true ∧ c.clientId = k := by
  unfold ClientSub.key
  split <;> simp_all

theorem ClientSub.key_eq_none {c : ClientSub} : c.key = none ↔ c.used = false := by
  unfold ClientSub.key
  split <;> simp_all

@[simp] theorem setRow_nextId (g : Registry) (r : Fin kMaxTopics) (row : TopicRow) :
    (g.setRow r row).nextId = g.nextId := rfl

@[simp] theorem setRow_self (g : Registry) (r : Fin kMaxTopics) (row : TopicRow) :
    (g.setRow r row).rows r = row := Function.update_self ..

theorem setRow_of_ne (g : Registry) {r r' : Fin kMaxTopics} (row : TopicRow) (h : r' ≠ r) :
    (g.setRow r row).rows r' = g.rows r' := Function.update_of_ne h ..

structure Coherent (g : Registry) : Prop where
  rows : SlotTable.Distinct TopicRow.key g.rows
  unused : ∀ r, (g.rows r).used = false → ¬ Live (g.rows r)
  reconciled : ∀ r, Reconciled (g.rows r)

structure Inv (allocated : Nat) (g : Registry) : Prop extends Coherent g where
  nextId : g.nextId.toNat = allocated + 1
  clients : ∀ r, SlotTable.Distinct ClientSub.key (g.rows r).clients
  ids : ∀ r i, ((g.rows r).clients i).used = true →
    0 < ((g.rows r).clients i).subscriptionId.toNat ∧
      ((g.rows r).clients i).subscriptionId.toNat ≤ allocated
  distinct : ∀ r i r' i', ((g.rows r).clients i).used = true →
    ((g.rows r').clients i').used = true →
    ((g.rows r).clients i).subscriptionId = ((g.rows r').clients i').subscriptionId →
    r = r' ∧ i = i'

theorem reconciled_of_not_live {row : TopicRow} (hoff : row.upstreamActive = false)
    (hr : row.upstreamRequestedRateMillihz = 0) (hl : row.upstreamLeaseMs = 0)
    (hdead : ¬ Live row) : Reconciled row :=
  ⟨by simp [hoff, hdead], hr ▸ isUnion_of_not_live hdead, hl ▸ isUnion_of_not_live hdead⟩

/-- A row nobody subscribed to yet. -/
theorem fresh_reconciled (used : Bool) (sourceId topicId : UInt32) :
    Reconciled { used, sourceId, topicId } :=
  reconciled_of_not_live rfl rfl rfl (by simp [Live])

theorem init_coherent : Coherent {} where
  rows := fun _ _ _ h => nomatch h
  unused := fun _ _ h => by simp [Live] at h
  reconciled := fun _ => fresh_reconciled false 0 0

theorem init_inv : Inv 0 {} where
  toCoherent := init_coherent
  nextId := rfl
  clients := fun _ _ _ _ h => nomatch h
  ids := fun _ _ h => nomatch h
  distinct := fun _ _ _ _ h => nomatch h

/-- Writing a row under a key no other row has. -/
theorem Coherent.setRow {g : Registry} (h : Coherent g) {r : Fin kMaxTopics} {row : TopicRow}
    (hkey : ∀ k, row.key = some k → ∀ j, (g.rows j).key = some k → j = r)
    (hu : row.used = false → ¬ Live row) (hr : Reconciled row) : Coherent (g.setRow r row) := by
  refine ⟨h.rows.update hkey, fun r' => ?_, fun r' => ?_⟩
  all_goals
    by_cases hrr : r' = r
    · subst hrr
      rw [setRow_self]
      first | exact hu | exact hr
    · rw [setRow_of_ne _ _ hrr]
      first | exact h.unused r' | exact h.reconciled r'

/-- Writing a row in use under its own key. -/
theorem Coherent.write {g : Registry} (h : Coherent g) {r : Fin kMaxTopics} {row : TopicRow}
    (hused : (g.rows r).used = true) (hkey : row.key = (g.rows r).key) (hr : Reconciled row) :
    Coherent (g.setRow r row) := by
  refine h.setRow (fun k hk j hj => h.rows hj (hkey ▸ hk)) (fun hu => ?_) hr
  rw [TopicRow.key, hu, TopicRow.key, hused] at hkey
  cases hkey

theorem Coherent.create {g : Registry} (h : Coherent g) {r : Fin kMaxTopics}
    {sourceId topicId : UInt32} (hnew : ∀ j, (g.rows j).key ≠ some (sourceId, topicId)) :
    Coherent (g.setRow r { used := true, sourceId, topicId }) := by
  refine h.setRow (fun k hk j hj => ?_) nofun (fresh_reconciled true sourceId topicId)
  obtain ⟨-, rfl, rfl⟩ := TopicRow.key_eq_some.1 hk
  exact absurd hj (hnew j)

/-! ## Edits that add no client -/

/-- `row'` is `row` with the same key and no client that `row` did not have. -/
structure Keeps (row row' : TopicRow) : Prop where
  used : row'.used = row.used
  sourceId : row'.sourceId = row.sourceId
  topicId : row'.topicId = row.topicId
  clients : ∀ i, (row'.clients i).used = true → (row.clients i).used = true ∧
    (row'.clients i).clientId = (row.clients i).clientId ∧
    (row'.clients i).subscriptionId = (row.clients i).subscriptionId

theorem Keeps.refl (row : TopicRow) : Keeps row row :=
  ⟨rfl, rfl, rfl, fun _ h => ⟨h, rfl, rfl⟩⟩

theorem Keeps.key {row row' : TopicRow} (h : Keeps row row') : row'.key = row.key := by
  rw [TopicRow.key, TopicRow.key, h.used, h.sourceId, h.topicId]

theorem Keeps.evaluate {row row' : TopicRow} (h : Keeps row row') (nowMs : UInt32) :
    Keeps row (evaluateUpstream row' nowMs).1 := by
  refine ⟨by simpa using h.used, by simpa using h.sourceId, by simpa using h.topicId, ?_⟩
  simpa using h.clients

theorem keeps_dropClients (row : TopicRow) (p : ClientSub → Bool) :
    Keeps row (row.dropClients p) := by
  refine ⟨rfl, rfl, rfl, fun i h => ?_⟩
  simp only [TopicRow.dropClients] at h ⊢
  split at h
  · cases h
  · rename_i hp
    rw [if_neg hp]
    exact ⟨h, rfl, rfl⟩

theorem keeps_setClient {row : TopicRow} {i : Fin kMaxClientsPerTopic} {c : ClientSub}
    (h : c.used = true → (row.clients i).used = true ∧ c.clientId = (row.clients i).clientId ∧
      c.subscriptionId = (row.clients i).subscriptionId) : Keeps row (row.setClient i c) := by
  refine ⟨rfl, rfl, rfl, fun j hj => ?_⟩
  simp only [TopicRow.setClient] at hj ⊢
  by_cases hji : j = i
  · subst hji
    rw [Function.update_self] at hj ⊢
    exact h hj
  · rw [Function.update_of_ne hji] at hj ⊢
    exact ⟨hj, rfl, rfl⟩

theorem Keeps.distinct {row row' : TopicRow} (h : Keeps row row')
    (hd : SlotTable.Distinct ClientSub.key row.clients) :
    SlotTable.Distinct ClientSub.key row'.clients := by
  have hkey : ∀ {i k}, (row'.clients i).key = some k → (row.clients i).key = some k := by
    intro i k hi
    rw [ClientSub.key_eq_some] at hi ⊢
    obtain ⟨hu, hc, -⟩ := h.clients i hi.1
    exact ⟨hu, hc.symm.trans hi.2⟩
  intro i j k hi hj
  exact hd (hkey hi) (hkey hj)

/-- An edit of any rows that adds no client and leaves each reconciled keeps the
invariant. -/
theorem Coherent.map {g g' : Registry} (h : Coherent g) (hk : ∀ r, Keeps (g.rows r) (g'.rows r))
    (hr : ∀ r, Reconciled (g'.rows r)) : Coherent g' where
  rows := by
    intro i j k hi hj
    rw [(hk i).key] at hi
    rw [(hk j).key] at hj
    exact h.rows hi hj
  unused r hu := by
    rintro ⟨i, hi⟩
    exact h.unused r ((hk r).used ▸ hu) ⟨i, ((hk r).clients i hi).1⟩
  reconciled := hr

theorem Inv.map {n : Nat} {g g' : Registry} (h : Inv n g) (hid : g'.nextId = g.nextId)
    (hk : ∀ r, Keeps (g.rows r) (g'.rows r)) (hr : ∀ r, Reconciled (g'.rows r)) : Inv n g' where
  toCoherent := h.toCoherent.map hk hr
  nextId := hid ▸ h.nextId
  clients r := (hk r).distinct (h.clients r)
  ids r i hi := by
    obtain ⟨hu, -, hs⟩ := (hk r).clients i hi
    rw [hs]
    exact h.ids r i hu
  distinct r i r' i' hi hi' heq := by
    obtain ⟨hu, -, hs⟩ := (hk r).clients i hi
    obtain ⟨hu', -, hs'⟩ := (hk r').clients i' hi'
    rw [hs, hs'] at heq
    exact h.distinct r i r' i' hu hu' heq

/-- The same for one row. -/
theorem Inv.edit {n : Nat} {g : Registry} (h : Inv n g) {r : Fin kMaxTopics} {row : TopicRow}
    (hk : Keeps (g.rows r) row) (hr : Reconciled row) : Inv n (g.setRow r row) := by
  refine h.map rfl (fun r' => ?_) fun r' => ?_ <;> simp only [Registry.setRow] <;>
    by_cases hrr : r' = r
  · subst hrr; rwa [Function.update_self]
  · rw [Function.update_of_ne hrr]; exact Keeps.refl _
  · subst hrr; rwa [Function.update_self]
  · rw [Function.update_of_ne hrr]; exact h.reconciled r'

/-! ## A fresh row -/

theorem Inv.create {n : Nat} {g : Registry} (h : Inv n g) {r : Fin kMaxTopics}
    {sourceId topicId : UInt32} (hnew : ∀ j, (g.rows j).key ≠ some (sourceId, topicId)) :
    Inv n (g.setRow r { used := true, sourceId, topicId }) := by
  have hold : ∀ {r' i}, (((g.setRow r { used := true, sourceId, topicId }).rows r').clients
      i).used = true → ((g.setRow r { used := true, sourceId, topicId }).rows r') = g.rows r' := by
    intro r' i hi
    simp only [Registry.setRow] at hi ⊢
    by_cases hr : r' = r
    · subst hr; rw [Function.update_self] at hi; cases hi
    · rw [Function.update_of_ne hr]
  refine ⟨h.toCoherent.create hnew, h.nextId, fun r' => ?_, fun r' i hi => ?_,
    fun r₁ i₁ r₂ i₂ h₁ h₂ heq => ?_⟩
  · intro i j k hi hj
    have hsame := hold (ClientSub.key_eq_some.1 hi).1
    rw [hsame] at hi hj
    exact h.clients r' hi hj
  · have hsame := hold hi
    rw [hsame] at hi ⊢
    exact h.ids r' i hi
  · have hsame₁ := hold h₁
    have hsame₂ := hold h₂
    rw [hsame₁] at h₁ heq
    rw [hsame₂] at h₂ heq
    exact h.distinct r₁ i₁ r₂ i₂ h₁ h₂ heq

theorem findRow_eq_none {g : Registry} {sourceId topicId : UInt32} :
    findRow g sourceId topicId = none ↔ ∀ r, (g.rows r).key ≠ some (sourceId, topicId) := by
  rw [findRow, SlotTable.first_eq_none]
  refine forall_congr' fun r => ?_
  rw [ne_eq, TopicRow.key_eq_some, ← Bool.not_eq_true]
  simp [and_assoc]

theorem findRow_key {g : Registry} {sourceId topicId : UInt32} {r : Fin kMaxTopics}
    (h : findRow g sourceId topicId = some r) : (g.rows r).key = some (sourceId, topicId) := by
  have := SlotTable.first_holds h
  rw [TopicRow.key_eq_some]
  simpa [and_assoc] using this

/-- The row a request works on, and the registry it is in. -/
theorem findOrCreateRow_cases (g : Registry) (sourceId topicId : UInt32) :
    (∃ r, findOrCreateRow g sourceId topicId = (g, some r) ∧
        (g.rows r).key = some (sourceId, topicId)) ∨
    (∃ r, findOrCreateRow g sourceId topicId =
          (g.setRow r { used := true, sourceId, topicId }, some r) ∧
        (g.rows r).used = false ∧ ∀ j, (g.rows j).key ≠ some (sourceId, topicId)) ∨
    findOrCreateRow g sourceId topicId = (g, none) := by
  unfold findOrCreateRow
  cases hf : findRow g sourceId topicId with
  | some r => exact .inl ⟨r, rfl, findRow_key hf⟩
  | none =>
    cases hu : SlotTable.first (fun row => !row.used) g.rows with
    | none => exact .inr (.inr rfl)
    | some r =>
      have := SlotTable.first_holds hu
      exact .inr (.inl ⟨r, rfl, by simpa using this, findRow_eq_none.1 hf⟩)

theorem Inv.findOrCreateRow {n : Nat} {g : Registry} (h : Inv n g) (sourceId topicId : UInt32) :
    Inv n (findOrCreateRow g sourceId topicId).1 := by
  obtain ⟨r, e, -⟩ | ⟨r, e, -, hnew⟩ | e := findOrCreateRow_cases g sourceId topicId
  · rw [e]; exact h
  · rw [e]; exact h.create hnew
  · rw [e]; exact h

/-! ## One client under a fresh id -/

theorem slotFor_cases {row : TopicRow} {clientId : UInt32} {slot : Fin kMaxClientsPerTopic}
    (h : slotFor row clientId = some slot) :
    (row.clients slot).key = some clientId ∨
      (row.clients slot).key = none ∧ ∀ j, (row.clients j).key ≠ some clientId := by
  unfold slotFor at h
  split at h
  · rename_i i hi
    cases h
    have := SlotTable.first_holds hi
    exact .inl (ClientSub.key_eq_some.2 (by simpa using this))
  · rename_i hnone
    refine .inr ⟨ClientSub.key_eq_none.2 (by simpa using SlotTable.first_holds h), fun j hj => ?_⟩
    rw [ClientSub.key_eq_some] at hj
    have := SlotTable.first_eq_none.1 hnone j
    simp [hj] at this

theorem setClient_distinct {row : TopicRow} {slot : Fin kMaxClientsPerTopic} {c : ClientSub}
    (hd : SlotTable.Distinct ClientSub.key row.clients) (hslot : slotFor row c.clientId = some slot)
    (hc : c.used = true) : SlotTable.Distinct ClientSub.key (row.setClient slot c).clients := by
  have hkey : c.key = some c.clientId := ClientSub.key_eq_some.2 ⟨hc, rfl⟩
  rcases slotFor_cases hslot with h | ⟨-, h⟩
  · exact hd.update_same (hkey.trans h.symm)
  · exact hd.update_new h hkey

theorem nextSubscriptionId_nextId {n : Nat} {g : Registry} (h : g.nextId.toNat = n + 1)
    (hn : n + 1 < 2 ^ 32 - 1) : (nextSubscriptionId g).1.nextId.toNat = n + 2 := by
  have hadd : (g.nextId + 1).toNat = n + 2 := by
    rw [UInt32.toNat_add, h, show UInt32.toNat 1 = 1 from rfl]
    exact Nat.mod_eq_of_lt (by omega)
  have hne : g.nextId + 1 ≠ 0 := by
    intro h0
    rw [h0] at hadd
    cases hadd
  simp only [nextSubscriptionId, if_neg hne]
  exact hadd

/-- Writing one client under the next id. -/
theorem Inv.write {n : Nat} {g : Registry} (h : Inv n g) (hn : n + 1 < 2 ^ 32 - 1)
    {r : Fin kMaxTopics} {slot : Fin kMaxClientsPerTopic} {c : ClientSub} {row : TopicRow}
    (hused : (g.rows r).used = true) (hslot : slotFor (g.rows r) c.clientId = some slot)
    (hc : c.used = true) (hid : c.subscriptionId = g.nextId)
    (hrow : row.clients = ((g.rows r).setClient slot c).clients) (hkey : row.key = (g.rows r).key)
    (hr : Reconciled row) : Inv (n + 1) ((nextSubscriptionId g).1.setRow r row) := by
  set g' := (nextSubscriptionId g).1.setRow r row with hg'
  have hrows : g'.rows = Function.update g.rows r row := rfl
  -- a live client of `g'` is the written one, or an old one in its old place
  have hlive : ∀ {r' i}, ((g'.rows r').clients i).used = true →
      (r' = r ∧ i = slot ∧ (g'.rows r').clients i = c) ∨
        ((g'.rows r').clients i = (g.rows r').clients i) := by
    intro r' i hi
    rw [hrows] at hi ⊢
    by_cases hrr : r' = r
    · subst hrr
      rw [Function.update_self, hrow] at hi ⊢
      simp only [TopicRow.setClient] at hi ⊢
      by_cases his : i = slot
      · subst his; rw [Function.update_self]; exact .inl ⟨trivial, rfl, rfl⟩
      · rw [Function.update_of_ne his]; exact .inr rfl
    · rw [Function.update_of_ne hrr]; exact .inr rfl
  have hfresh : ∀ r' i, ((g.rows r').clients i).used = true →
      ((g.rows r').clients i).subscriptionId ≠ c.subscriptionId := by
    intro r' i hi heq
    have := (h.ids r' i hi).2
    rw [heq, hid, h.nextId] at this
    omega
  have hcoh : Coherent (g.setRow r row) := h.toCoherent.write hused hkey hr
  refine ⟨⟨hcoh.rows, hcoh.unused, hcoh.reconciled⟩, nextSubscriptionId_nextId h.nextId hn,
    fun r' => ?_, fun r' i hi => ?_, fun r₁ i₁ r₂ i₂ h₁ h₂ heq => ?_⟩
  · rw [hrows]
    by_cases hrr : r' = r
    · subst hrr
      rw [Function.update_self, hrow]
      exact setClient_distinct (h.clients r') hslot hc
    · rw [Function.update_of_ne hrr]; exact h.clients r'
  · rcases hlive hi with ⟨-, -, e⟩ | e
    · rw [e, hid, h.nextId]; omega
    · rw [e] at hi ⊢
      have := h.ids r' i hi
      omega
  · rcases hlive h₁ with ⟨hr₁, hi₁, e₁⟩ | e₁ <;> rcases hlive h₂ with ⟨hr₂, hi₂, e₂⟩ | e₂
    · exact ⟨hr₁.trans hr₂.symm, hi₁.trans hi₂.symm⟩
    · rw [e₁, e₂] at heq
      rw [e₂] at h₂
      exact absurd heq.symm (hfresh r₂ i₂ h₂)
    · rw [e₁, e₂] at heq
      rw [e₁] at h₁
      exact absurd heq (hfresh r₁ i₁ h₁)
    · rw [e₁] at h₁ heq
      rw [e₂] at h₂ heq
      exact h.distinct r₁ i₁ r₂ i₂ h₁ h₂ heq

end BallyDongle.SubscriptionRegistry
