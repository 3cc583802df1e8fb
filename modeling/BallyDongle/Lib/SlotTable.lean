import Mathlib.Algebra.GroupWithZero.Nat
import Mathlib.Data.List.FinRange
import Mathlib.Data.List.Nodup
import Mathlib.Logic.Function.Basic

/-!
# Fixed tables of slots

A table of `n` slots is a function from `Fin n`. A slot carries at most one
key, read by `key`; a slot without a key is free. A write replaces one slot
(`Function.update`). `find` scans for the first slot of a key and `free` for
the first free slot. `Distinct` says that no key sits in two slots, so that a
scan finds *the* slot of a key and the table is a finite map from its keys.
-/

namespace SlotTable

variable {α κ : Type} {n : Nat}

/-! ## Scanning -/

/-- The first slot whose content satisfies `p`. -/
def first (p : α → Bool) (t : Fin n → α) : Option (Fin n) :=
  (List.finRange n).find? fun i => p (t i)

theorem first_eq_none {p : α → Bool} {t : Fin n → α} :
    first p t = none ↔ ∀ i, p (t i) = false := by
  simp [first]

theorem first_eq_some {p : α → Bool} {t : Fin n → α} {i : Fin n} :
    first p t = some i ↔ p (t i) = true ∧ ∀ j, j < i → p (t j) = false := by
  rw [first, List.find?_eq_some_iff_getElem]
  constructor
  · rintro ⟨hp, k, hk, hki, hlt⟩
    have hi : k = i.val := by rw [← hki]; simp
    refine ⟨hp, fun j hj => ?_⟩
    have := hlt j.val (by rw [hi]; exact hj)
    simpa using this
  · rintro ⟨hp, hlt⟩
    refine ⟨hp, i.val, by simp, by simp, fun j hj => ?_⟩
    simpa using hlt ⟨j, by omega⟩ hj

theorem first_holds {p : α → Bool} {t : Fin n → α} {i : Fin n} (h : first p t = some i) :
    p (t i) = true :=
  (first_eq_some.1 h).1

/-- Scans agree on predicates that agree on the contents. -/
theorem first_congr {β : Type} {p : α → Bool} {q : β → Bool} {t : Fin n → α} {u : Fin n → β}
    (h : ∀ i, p (t i) = q (u i)) : first p t = first q u := by
  simp only [first, h]

/-! ## Keys -/

section keyed

variable (key : α → Option κ)

/-- The first free slot. -/
def free (t : Fin n → α) : Option (Fin n) := first (fun a => (key a).isNone) t

/-- No key sits in two slots. -/
def Distinct (t : Fin n → α) : Prop :=
  ∀ ⦃i j k⦄, key (t i) = some k → key (t j) = some k → i = j

/-- The keys in use, in slot order. -/
def keys (t : Fin n → α) : List κ := (List.finRange n).filterMap fun i => key (t i)

variable {key} {t : Fin n → α} {i : Fin n} {k : κ} {a : α}

theorem free_eq_none : free key t = none ↔ ∀ i, (key (t i)).isSome = true := by
  simp [free, first_eq_none, Option.isSome_iff_ne_none]

theorem free_key (h : free key t = some i) : key (t i) = none := by
  simpa using first_holds h

theorem mem_keys : k ∈ keys key t ↔ ∃ i, key (t i) = some k := by
  simp [keys]

theorem length_keys_le : (keys key t).length ≤ n :=
  (List.length_filterMap_le _ _).trans_eq (List.length_finRange)

theorem Distinct.nodup_keys (hd : Distinct key t) : (keys key t).Nodup :=
  (List.nodup_finRange n).filterMap fun _ _ _ hi hj => hd hi hj

/-- The table is full exactly when no slot is free. -/
theorem free_eq_none_iff_length : free key t = none ↔ (keys key t).length = n := by
  rw [free_eq_none]
  conv_rhs => rhs; rw [← List.length_finRange (n := n)]
  rw [keys, List.filterMap_length_eq_length]
  simp

/-! ## Allocating a slot -/

section allocate

variable (used : α → Bool) (age : α → Nat)

/-- Scan for a free slot, remembering the first of the least `age` passed. -/
def scan (t : Fin n → α) : List (Fin n) → Fin n → Fin n
  | [], oldest => oldest
  | i :: is, oldest =>
    if used (t i) then scan t is (if age (t i) < age (t oldest) then i else oldest) else i

/-- The first free slot, and in a full table the first of the least `age`. -/
def allocate [NeZero n] (t : Fin n → α) : Fin n := scan used age t (List.finRange n) 0

variable {used age} {t : Fin n → α} {i o : Fin n} {is : List (Fin n)}

theorem scan_free (h : is.find? (fun i => !used (t i)) = some i) : scan used age t is o = i := by
  induction is generalizing o with
  | nil => cases h
  | cons j is ih =>
    rw [List.find?_cons] at h
    cases hj : used (t j) with
    | true =>
      rw [hj] at h
      rw [scan, if_pos hj]
      exact ih h
    | false =>
      rw [hj] at h
      rw [scan, if_neg (by rw [hj]; decide)]
      exact Option.some.inj h

theorem scan_full (h : ∀ i ∈ is, used (t i) = true) :
    age (t (scan used age t is o)) ≤ age (t o) ∧
      ∀ j ∈ is, age (t (scan used age t is o)) ≤ age (t j) := by
  induction is generalizing o with
  | nil => exact ⟨le_rfl, fun j hj => absurd hj List.not_mem_nil⟩
  | cons i is ih =>
    rw [scan, if_pos (h i List.mem_cons_self)]
    have hrest := fun j hj => h j (List.mem_cons_of_mem i hj)
    split
    · rename_i hlt
      obtain ⟨hi, hle⟩ := ih (o := i) hrest
      refine ⟨by omega, fun j hj => ?_⟩
      rcases List.mem_cons.1 hj with rfl | hj
      · exact hi
      · exact hle j hj
    · rename_i hlt
      obtain ⟨ho, hle⟩ := ih (o := o) hrest
      refine ⟨ho, fun j hj => ?_⟩
      rcases List.mem_cons.1 hj with rfl | hj
      · omega
      · exact hle j hj

variable [NeZero n]

theorem allocate_free (h : first (fun a => !used a) t = some i) : allocate used age t = i :=
  scan_free h

/-- A full table gives up its oldest slot. -/
theorem allocate_full (h : ∀ i, used (t i) = true) (j : Fin n) :
    age (t (allocate used age t)) ≤ age (t j) :=
  (scan_full fun i _ => h i).2 j (List.mem_finRange j)

/-- The slots before the one allocated are taken. -/
theorem allocate_before {j : Fin n} (h : j < allocate used age t) : used (t j) = true := by
  cases hfree : first (fun a => !used a) t with
  | none => simpa using first_eq_none.1 hfree j
  | some i =>
    rw [allocate_free hfree] at h
    simpa using (first_eq_some.1 hfree).2 j h

/-- Emptied, the slot allocated is allocated again. -/
theorem allocate_update {a : α} (ha : used a = false) :
    allocate used age (Function.update t (allocate used age t) a) = allocate used age t := by
  refine allocate_free (first_eq_some.2 ⟨by rw [Function.update_self, ha]; rfl, fun j hj => ?_⟩)
  rw [Function.update_of_ne (ne_of_lt hj), allocate_before hj]
  rfl

end allocate

/-! ## Slots filled from the front -/

section packed

variable (used : α → Bool)

/-- The slots in use, in order. -/
def slots (t : Fin n → α) : List (Fin n) := (List.finRange n).filter fun i => used (t i)

/-- The slots before one in use are in use. -/
def Packed (t : Fin n → α) : Prop := ∀ ⦃i j⦄, i < j → used (t j) = true → used (t i) = true

variable {used} {t : Fin n → α} {i : Fin n} {a : α}

theorem mem_slots : i ∈ slots used t ↔ used (t i) = true := by
  simp [slots]

theorem length_slots_le : (slots used t).length ≤ n :=
  (List.length_filter_le _ _).trans_eq (List.length_finRange)

theorem filter_isPrefix {β : Type} {p : β → Bool} {l : List β}
    (h : l.Pairwise fun a b => p b = true → p a = true) : l.filter p <+: l := by
  induction h with
  | nil => exact List.prefix_rfl
  | @cons a l ha _ ih =>
    cases hp : p a with
    | true =>
      rw [List.filter_cons_of_pos hp]
      exact (List.prefix_cons_inj a).2 ih
    | false =>
      rw [List.filter_cons_of_neg (by rw [hp]; decide), List.filter_eq_nil_iff.2]
      · exact List.nil_prefix
      · intro b hb hpb
        rw [ha b hb hpb] at hp
        cases hp

theorem Packed.slots_eq (h : Packed used t) :
    slots used t = (List.finRange n).take (slots used t).length :=
  List.prefix_iff_eq_take.1
    (filter_isPrefix ((List.pairwise_lt_finRange n).imp fun hij hj => h hij hj))

theorem Packed.getElem?_slots (h : Packed used t) {k : Nat} (hk : k < (slots used t).length)
    (hn : k < n) : (slots used t)[k]? = some ⟨k, hn⟩ := by
  rw [h.slots_eq, List.getElem?_take_of_lt hk, List.getElem?_eq_getElem (by simpa using hn)]
  simp

theorem Packed.lt_length_iff (h : Packed used t) :
    i.val < (slots used t).length ↔ used (t i) = true := by
  rw [← mem_slots]
  constructor
  · intro hi
    exact List.mem_of_getElem? (h.getElem?_slots hi i.isLt)
  · intro hi
    rw [h.slots_eq, List.mem_take_iff_getElem] at hi
    obtain ⟨k, hk, hki⟩ := hi
    rw [List.getElem_finRange] at hki
    have hval : k = i.val := by rw [← hki]; rfl
    omega

/-- A slot is taken right behind the slots in use, or again. -/
theorem Packed.update (h : Packed used t) (ha : used a = true)
    (hbefore : ∀ j, j < i → used (t j) = true) : Packed used (Function.update t i a) := by
  intro j l hjl hl
  rcases eq_or_ne j i with rfl | hj
  · rw [Function.update_self]
    exact ha
  · rw [Function.update_of_ne hj]
    rcases eq_or_ne l i with rfl | hl'
    · exact hbefore j hjl
    · rw [Function.update_of_ne hl'] at hl
      exact h hjl hl

theorem length_slots_update (ha : used a = true) :
    (slots used t).length ≤ (slots used (Function.update t i a)).length := by
  refine (List.monotone_filter_right _ fun j hj => ?_).length_le
  rcases eq_or_ne j i with rfl | hne
  · rw [Function.update_self, ha]
  · rw [Function.update_of_ne hne, hj]

end packed

/-! ## Writing a slot -/

/-- Writing a key that no other slot holds keeps the keys apart. -/
theorem Distinct.update (hd : Distinct key t)
    (ha : ∀ k, key a = some k → ∀ j, key (t j) = some k → j = i) :
    Distinct key (Function.update t i a) := by
  intro j l k' hj hl
  by_cases h1 : j = i <;> by_cases h2 : l = i
  · rw [h1, h2]
  · rw [h1, Function.update_self] at hj
    rw [Function.update_of_ne h2] at hl
    rw [h1, ha k' hj l hl]
  · rw [h2, Function.update_self] at hl
    rw [Function.update_of_ne h1] at hj
    rw [h2, ha k' hl j hj]
  · rw [Function.update_of_ne h1] at hj
    rw [Function.update_of_ne h2] at hl
    exact hd hj hl

/-- Writing under the key a slot already has. -/
theorem Distinct.update_same (hd : Distinct key t) (ha : key a = key (t i)) :
    Distinct key (Function.update t i a) :=
  hd.update fun _ hk _ hj => hd hj (ha ▸ hk)

/-- A write that moves no key across `p` leaves as many keys that satisfy it. -/
theorem countP_keys_update (p : κ → Bool) (h : (key a).any p = (key (t i)).any p) :
    (keys key (Function.update t i a)).countP p = (keys key t).countP p := by
  rw [keys, keys, List.countP_filterMap, List.countP_filterMap]
  refine List.countP_congr fun j _ => ?_
  rcases eq_or_ne j i with rfl | hne
  · rw [Function.update_self]
    cases ha : key a <;> cases ht : key (t j) <;> simp [ha, ht] at h ⊢ <;> simp [h]
  · rw [Function.update_of_ne hne]

/-- Freeing a slot. -/
theorem Distinct.update_free (hd : Distinct key t) (ha : key a = none) :
    Distinct key (Function.update t i a) :=
  hd.update fun _ hk => by rw [ha] at hk; cases hk

/-- Writing a key the table does not hold. -/
theorem Distinct.update_new (hd : Distinct key t) (hk : ∀ j, key (t j) ≠ some k)
    (ha : key a = some k) : Distinct key (Function.update t i a) := by
  refine hd.update fun k' hk' j hj => ?_
  rw [ha] at hk'
  cases hk'
  exact absurd hj (hk j)

/-- Slot-wise edits that keep or free each key keep the keys apart. -/
theorem Distinct.map {f : Fin n → α → α} (hd : Distinct key t)
    (hf : ∀ i, key (f i (t i)) = none ∨ key (f i (t i)) = key (t i)) :
    Distinct key fun i => f i (t i) := by
  have hkey : ∀ {i k'}, key (f i (t i)) = some k' → key (t i) = some k' := by
    intro i k' hi
    rcases hf i with h | h
    · rw [h] at hi; cases hi
    · rwa [h] at hi
  intro i j k' hi hj
  exact hd (hkey hi) (hkey hj)

end keyed

/-! ## Finding a key -/

section find

variable [DecidableEq κ] (key : α → Option κ)

/-- The first slot of key `k`. -/
def find (k : κ) (t : Fin n → α) : Option (Fin n) := first (fun a => decide (key a = some k)) t

/-- The content stored under `k`. -/
def lookup (k : κ) (t : Fin n → α) : Option α := (find key k t).map t

variable {key} {t : Fin n → α} {i : Fin n} {k : κ} {a : α}

theorem find_eq_none : find key k t = none ↔ ∀ i, key (t i) ≠ some k := by
  simp [find, first_eq_none]

theorem find_key (h : find key k t = some i) : key (t i) = some k := by
  simpa using first_holds h

theorem Distinct.find_eq_some (hd : Distinct key t) :
    find key k t = some i ↔ key (t i) = some k := by
  constructor
  · exact find_key
  · intro hi
    rw [find, first_eq_some]
    refine ⟨by simpa using hi, fun j hj => ?_⟩
    rw [decide_eq_false_iff_not]
    exact fun hk => (ne_of_lt hj) (hd hk hi)

theorem lookup_eq_none : lookup key k t = none ↔ ∀ i, key (t i) ≠ some k := by
  rw [lookup, Option.map_eq_none_iff, find_eq_none]

theorem Distinct.lookup_eq_some (hd : Distinct key t) :
    lookup key k t = some a ↔ ∃ i, t i = a ∧ key a = some k := by
  simp only [lookup, Option.map_eq_some_iff, hd.find_eq_some]
  constructor
  · rintro ⟨i, hk, rfl⟩; exact ⟨i, rfl, hk⟩
  · rintro ⟨i, rfl, hk⟩; exact ⟨i, hk, rfl⟩

/-- After a write under `k` the lookup of `k` returns what was written. -/
theorem Distinct.lookup_update (hd : Distinct key (Function.update t i a)) (ha : key a = some k) :
    lookup key k (Function.update t i a) = some a :=
  hd.lookup_eq_some.2 ⟨i, Function.update_self .., ha⟩

/-- A write keeps the lookup of every key that is neither the old nor the new
key of the slot. -/
theorem Distinct.lookup_update_of_ne (hd : Distinct key t)
    (hd' : Distinct key (Function.update t i a)) (hold : key (t i) ≠ some k)
    (hnew : key a ≠ some k) : lookup key k (Function.update t i a) = lookup key k t := by
  ext b
  rw [hd'.lookup_eq_some, hd.lookup_eq_some]
  constructor
  · rintro ⟨j, hj, hb⟩
    rcases eq_or_ne j i with rfl | h
    · rw [Function.update_self] at hj
      subst hj; exact absurd hb hnew
    · rw [Function.update_of_ne h] at hj
      exact ⟨j, hj, hb⟩
  · rintro ⟨j, hj, hb⟩
    rcases eq_or_ne j i with rfl | h
    · subst hj; exact absurd hb hold
    · exact ⟨j, by rw [Function.update_of_ne h, hj], hb⟩

/-- Freeing some slots keeps the lookups of the others. -/
theorem Distinct.lookup_map {f : α → α} (hd : Distinct key t)
    (hf : ∀ a, f a = a ∨ key (f a) = none) :
    lookup key k (fun i => f (t i)) =
      (lookup key k t).filter fun a => decide (key (f a) = some k) := by
  have hd' : Distinct key fun i => f (t i) :=
    hd.map (f := fun _ => f) fun i => (hf (t i)).elim (fun e => .inr (by rw [e])) .inl
  ext b
  rw [hd'.lookup_eq_some, Option.filter_eq_some_iff, hd.lookup_eq_some, decide_eq_true_iff]
  constructor
  · rintro ⟨i, rfl, hk⟩
    rcases hf (t i) with e | e
    · exact ⟨⟨i, e.symm, hk⟩, by rw [e]; exact hk⟩
    · rw [e] at hk; cases hk
  · rintro ⟨⟨i, rfl, hk⟩, hfk⟩
    rcases hf (t i) with e | e
    · exact ⟨i, e, hk⟩
    · rw [e] at hfk; cases hfk

end find

end SlotTable
