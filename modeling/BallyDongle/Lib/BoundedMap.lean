import BallyDongle.Lib.SlotTable
import Mathlib.Data.Finset.Card

/-!
# Finite maps of bounded size

`BoundedMap κ ν cap` is a finite map with at most `cap` keys; the bound is a
field, so an operation that would exceed it has to be refused. `insert?` is the
only operation that can be: it fails exactly when a new key meets a full map.
`SlotTable.toBoundedMap` reads a table with distinct keys as such a map.
-/

/-- A finite map from `κ` to `ν` with at most `cap` keys. -/
structure BoundedMap (κ ν : Type) (cap : Nat) where
  get : κ → Option ν
  keys : Finset κ
  mem_keys : ∀ k, k ∈ keys ↔ (get k).isSome = true
  card_le : keys.card ≤ cap

namespace BoundedMap

variable {κ ν : Type} {cap : Nat}

@[ext]
theorem ext {m m' : BoundedMap κ ν cap} (h : ∀ k, m.get k = m'.get k) : m = m' := by
  obtain ⟨g, ks, hks, hc⟩ := m
  obtain ⟨g', ks', hks', hc'⟩ := m'
  have hg : g = g' := funext h
  subst hg
  have : ks = ks' := by
    ext k
    rw [hks, hks']
  subst this
  rfl

/-- The map with no keys. -/
def empty : BoundedMap κ ν cap where
  get _ := none
  keys := ∅
  mem_keys _ := by simp
  card_le := by simp

@[simp] theorem get_empty (k : κ) : (empty : BoundedMap κ ν cap).get k = none := rfl

variable [DecidableEq κ]

/-- Store `v` under `k`, replacing what was there; refused when `k` is new and
the map is full. -/
def insert? (m : BoundedMap κ ν cap) (k : κ) (v : ν) : Option (BoundedMap κ ν cap) :=
  if h : k ∈ m.keys ∨ m.keys.card < cap then
    some
      { get := Function.update m.get k (some v)
        keys := insert k m.keys
        mem_keys := by
          intro j
          rcases eq_or_ne j k with rfl | hj
          · simp
          · rw [Finset.mem_insert, Function.update_of_ne hj, m.mem_keys]
            simp [hj]
        card_le := by
          rcases h with h | h
          · rw [Finset.insert_eq_of_mem h]; exact m.card_le
          · exact (Finset.card_insert_le k m.keys).trans h }
  else none

/-- Drop the key `k`. -/
def erase (m : BoundedMap κ ν cap) (k : κ) : BoundedMap κ ν cap where
  get := Function.update m.get k none
  keys := m.keys.erase k
  mem_keys := by
    intro j
    rcases eq_or_ne j k with rfl | hj
    · simp
    · rw [Finset.mem_erase, Function.update_of_ne hj, m.mem_keys]
      simp [hj]
  card_le := (Finset.card_erase_le).trans m.card_le

variable {m m' : BoundedMap κ ν cap} {k : κ} {v : ν}

theorem insert?_eq_none : m.insert? k v = none ↔ k ∉ m.keys ∧ m.keys.card = cap := by
  unfold insert?
  have := m.card_le
  split
  · rename_i h
    simp only [reduceCtorEq, false_iff, not_and]
    rintro hk hc
    rcases h with h | h
    · exact hk h
    · omega
  · rename_i h
    rw [not_or] at h
    simp only [true_iff]
    exact ⟨h.1, by omega⟩

theorem insert?_eq_some : m.insert? k v = some m' ↔
    (k ∈ m.keys ∨ m.keys.card < cap) ∧ m'.get = Function.update m.get k (some v) := by
  unfold insert?
  split
  · rename_i h
    constructor
    · intro e; cases e; exact ⟨h, rfl⟩
    · rintro ⟨-, e⟩
      refine congrArg some (ext fun j => ?_)
      rw [e]
  · rename_i h
    simp [h]

@[simp] theorem get_erase : (m.erase k).get = Function.update m.get k none := rfl

theorem erase_of_get_eq_none (h : m.get k = none) : m.erase k = m := by
  refine ext fun j => ?_
  rw [get_erase, ← h, Function.update_eq_self]

end BoundedMap

namespace SlotTable

variable {α κ ν : Type} {n : Nat} [DecidableEq κ] (key : α → Option κ) (val : α → ν)

/-- A table of slots, read as a map through `val`. -/
def toBoundedMap (t : Fin n → α) : BoundedMap κ ν n where
  get k := (lookup key k t).map val
  keys := (keys key t).toFinset
  mem_keys k := by
    rw [List.mem_toFinset, mem_keys, Option.isSome_map, ← Option.ne_none_iff_isSome, ne_eq,
      lookup_eq_none]
    push Not
    rfl
  card_le := (List.toFinset_card_le _).trans length_keys_le

variable {key val} {t : Fin n → α} {i : Fin n} {k : κ} {a : α}

theorem toBoundedMap_get : (toBoundedMap key val t).get k = (lookup key k t).map val := rfl

theorem Distinct.card_keys (hd : Distinct key t) :
    (toBoundedMap key val t).keys.card = (keys key t).length :=
  List.toFinset_card_of_nodup hd.nodup_keys

/-- What a write under `k` does to every lookup, when the slot held `k` or
nothing before. -/
theorem Distinct.lookup_write (hd : Distinct key t) (hd' : Distinct key (Function.update t i a))
    (hold : ∀ j, key (t i) = some j → j = k) (ha : key a = some k) (j : κ) :
    (lookup key j (Function.update t i a)).map val =
      Function.update (fun j => (lookup key j t).map val) k (some (val a)) j := by
  rcases eq_or_ne j k with rfl | hj
  · rw [hd'.lookup_update ha, Function.update_self, Option.map_some]
  · rw [Function.update_of_ne hj, hd.lookup_update_of_ne hd' (fun h => hj (hold j h))]
    rw [ha]
    exact fun h => hj (Option.some.inj h).symm

/-- Overwriting the slot of `k` stores under `k`. -/
theorem Distinct.toBoundedMap_replace (val : α → ν) (hd : Distinct key t) (hi : key (t i) = some k)
    (ha : key a = some k) :
    (toBoundedMap key val t).insert? k (val a) =
      some (toBoundedMap key val (Function.update t i a)) := by
  rw [BoundedMap.insert?_eq_some]
  refine ⟨.inl (List.mem_toFinset.2 (mem_keys.2 ⟨i, hi⟩)), funext fun j => ?_⟩
  refine hd.lookup_write (hd.update_same (ha.trans hi.symm)) (fun j hj => ?_) ha j
  rw [hi] at hj
  exact (Option.some.inj hj).symm

/-- Filling a free slot with a new key stores under it. -/
theorem Distinct.toBoundedMap_fill (val : α → ν) (hd : Distinct key t) (hk : find key k t = none)
    (hi : key (t i) = none) (ha : key a = some k) :
    (toBoundedMap key val t).insert? k (val a) =
      some (toBoundedMap key val (Function.update t i a)) := by
  rw [BoundedMap.insert?_eq_some]
  have hroom : (toBoundedMap key val t).keys.card < n := by
    rw [hd.card_keys]
    refine lt_of_le_of_ne length_keys_le fun hfull => ?_
    have := free_eq_none.1 (free_eq_none_iff_length.2 hfull) i
    rw [hi] at this
    cases this
  refine ⟨.inr hroom, funext fun j => ?_⟩
  refine hd.lookup_write (hd.update_new (find_eq_none.1 hk) ha) (fun j hj => ?_) ha j
  rw [hi] at hj
  cases hj

/-- A new key is refused exactly when no slot is free. -/
theorem Distinct.toBoundedMap_full (val : α → ν) (hd : Distinct key t) (hk : find key k t = none) {v : ν} :
    (toBoundedMap key val t).insert? k v = none ↔ free key t = none := by
  rw [BoundedMap.insert?_eq_none, hd.card_keys, free_eq_none_iff_length, and_iff_right_iff_imp]
  intro _ hmem
  obtain ⟨i, hi⟩ := mem_keys.1 (List.mem_toFinset.1 hmem)
  exact find_eq_none.1 hk i hi

/-- Freeing the slot of `k` drops `k`. -/
theorem Distinct.toBoundedMap_release (hd : Distinct key t) (hi : key (t i) = some k)
    (ha : key a = none) :
    toBoundedMap key val (Function.update t i a) = (toBoundedMap key val t).erase k := by
  have hd' := hd.update_free (i := i) ha
  refine BoundedMap.ext fun j => ?_
  rw [toBoundedMap_get, BoundedMap.get_erase]
  rcases eq_or_ne j k with rfl | hj
  · rw [Function.update_self, Option.map_eq_none_iff, lookup_eq_none]
    intro l hl
    rcases eq_or_ne l i with rfl | hne
    · rw [Function.update_self, ha] at hl; cases hl
    · rw [Function.update_of_ne hne] at hl
      exact hne (hd hl hi)
  · rw [Function.update_of_ne hj, toBoundedMap_get, hd.lookup_update_of_ne hd']
    · rw [hi]; exact fun h => hj (Option.some.inj h).symm
    · rw [ha]; exact nofun

end SlotTable
