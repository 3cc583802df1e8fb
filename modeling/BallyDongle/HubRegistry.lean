import BallyDongle.Lib.BoundedMap

/-!
# The binding table of the hub

`HubRegistry.cpp`: eight slots, each binding a child on the console side to the
robot it drives; `childSourceId = 0` marks a free slot. `Declared` says what
the table is for, a finite map of at most `kMaxBindings` children, and
`run_refines` that the slots behave as that map under any history of commands.
-/

namespace BallyDongle.HubRegistry

def kMaxBindings : Nat := 8

structure Binding where
  childSourceId : UInt32 := 0
  peerSourceId : UInt32 := 0
  deriving DecidableEq, Repr

abbrev Bindings := Fin kMaxBindings → Binding

/-- `g_bindings` at boot. -/
def init : Bindings := fun _ => {}

def findSlot (g : Bindings) (childSourceId : UInt32) : Option (Fin kMaxBindings) :=
  SlotTable.first (fun b => b.childSourceId == childSourceId) g

def bind (g : Bindings) (childSourceId peerSourceId : UInt32) : Bindings × Bool :=
  if childSourceId = 0 ∨ peerSourceId = 0 then (g, false)
  else
    match findSlot g childSourceId with
    | some existing => (Function.update g existing { g existing with peerSourceId }, true)
    | none =>
      match findSlot g 0 with
      | none => (g, false)
      | some free => (Function.update g free { childSourceId, peerSourceId }, true)

def unbind (g : Bindings) (childSourceId : UInt32) : Bindings × Bool :=
  if childSourceId = 0 then (g, false)
  else
    match findSlot g childSourceId with
    | none => (g, false)
    | some slot => (Function.update g slot {}, true)

def lookup (g : Bindings) (childSourceId : UInt32) : Option UInt32 :=
  if childSourceId = 0 then none
  else (findSlot g childSourceId).map fun slot => (g slot).peerSourceId

def clear (_ : Bindings) : Bindings := fun _ => {}

/-! ## The table as slots with keys -/

/-- The child a slot is taken by. -/
def Binding.key (b : Binding) : Option UInt32 :=
  if b.childSourceId = 0 then none else some b.childSourceId

@[simp] theorem key_default : Binding.key {} = none := rfl

theorem key_eq_some {b : Binding} {child : UInt32} (hc : child ≠ 0) :
    b.key = some child ↔ b.childSourceId = child := by
  unfold Binding.key
  split
  · rename_i h
    simp [h, hc.symm]
  · simp

theorem key_eq_none {b : Binding} : b.key = none ↔ b.childSourceId = 0 := by
  unfold Binding.key
  split <;> simp_all

theorem findSlot_eq_find (g : Bindings) {child : UInt32} (hc : child ≠ 0) :
    findSlot g child = SlotTable.find Binding.key child g := by
  refine SlotTable.first_congr fun i => ?_
  rw [Bool.eq_iff_iff, beq_iff_eq, decide_eq_true_iff, key_eq_some hc]

theorem findSlot_zero (g : Bindings) : findSlot g 0 = SlotTable.free Binding.key g := by
  refine SlotTable.first_congr fun i => ?_
  rw [Bool.eq_iff_iff, beq_iff_eq, Option.isNone_iff_eq_none, key_eq_none]

/-- Each child is bound at most once. -/
abbrev WellFormed (g : Bindings) : Prop := SlotTable.Distinct Binding.key g

theorem init_wellFormed : WellFormed init := by
  intro i j k hi
  cases hi

/-! ## What the table declares -/

/-- What the operator declared: the peer of each bound child. -/
abbrev Declared := BoundedMap UInt32 UInt32 kMaxBindings

/-- The map a table stands for. -/
def declared (g : Bindings) : Declared :=
  SlotTable.toBoundedMap Binding.key Binding.peerSourceId g

theorem lookup_eq_declared (g : Bindings) (child : UInt32) :
    lookup g child = (declared g).get child := by
  unfold lookup
  split
  · rename_i h
    symm
    rw [declared, SlotTable.toBoundedMap_get, Option.map_eq_none_iff, SlotTable.lookup_eq_none]
    intro i hi
    unfold Binding.key at hi
    split at hi
    · cases hi
    · rename_i hne; exact hne ((Option.some.inj hi).trans h)
  · rename_i h
    rw [findSlot_eq_find g h, declared, SlotTable.toBoundedMap_get, SlotTable.lookup,
      Option.map_map]
    rfl

/-- A command of the operator (`hub -bind`, `hub -unbind`) or a `clear`. -/
inductive Op
  | bind (childSourceId peerSourceId : UInt32)
  | unbind (childSourceId : UInt32)
  | clear
  deriving DecidableEq, Repr

/-- The table and the returned flag after a command (`clear` returns nothing). -/
def apply (g : Bindings) : Op → Bindings × Bool
  | .bind child peer => bind g child peer
  | .unbind child => unbind g child
  | .clear => (clear g, true)

/-- The same command on the declared map: zero ids name no device, and only a
new child can meet a full map. -/
def Declared.apply (m : Declared) : Op → Declared × Bool
  | .bind child peer =>
    if child = 0 ∨ peer = 0 then (m, false)
    else
      match m.insert? child peer with
      | some m' => (m', true)
      | none => (m, false)
  | .unbind child => (m.erase child, (m.get child).isSome)
  | .clear => (.empty, true)

/-! ## One command -/

theorem bind_refines {g : Bindings} (hg : WellFormed g) (child peer : UInt32) :
    WellFormed (bind g child peer).1 ∧
      (declared (bind g child peer).1, (bind g child peer).2) =
        (declared g).apply (.bind child peer) := by
  unfold bind Declared.apply
  by_cases h : child = 0 ∨ peer = 0
  · simp only [if_pos h]
    exact ⟨hg, trivial⟩
  have hc : child ≠ 0 := fun h0 => h (.inl h0)
  simp only [if_neg h, findSlot_eq_find g hc, findSlot_zero, declared]
  cases hf : SlotTable.find Binding.key child g with
  | some i =>
    have hi := SlotTable.find_key hf
    have ha : Binding.key { g i with peerSourceId := peer } = some child := hi
    refine ⟨hg.update_same (ha.trans hi.symm), ?_⟩
    have := hg.toBoundedMap_replace Binding.peerSourceId hi ha
    simp only [this]
  | none =>
    cases hfree : SlotTable.free Binding.key g with
    | none =>
      have := (hg.toBoundedMap_full Binding.peerSourceId hf (v := peer)).2 hfree
      simp only [this]
      exact ⟨hg, trivial⟩
    | some i =>
      have ha : Binding.key { childSourceId := child, peerSourceId := peer } = some child :=
        (key_eq_some hc).2 rfl
      refine ⟨hg.update_new (SlotTable.find_eq_none.1 hf) ha, ?_⟩
      have := hg.toBoundedMap_fill Binding.peerSourceId hf (SlotTable.free_key hfree) ha
      simp only [this]

theorem unbind_refines {g : Bindings} (hg : WellFormed g) (child : UInt32) :
    WellFormed (unbind g child).1 ∧
      declared (unbind g child).1 = (declared g).erase child ∧
      (unbind g child).2 = ((declared g).get child).isSome := by
  rw [← lookup_eq_declared]
  have habsent : lookup g child = none → declared g = (declared g).erase child := fun h =>
    (BoundedMap.erase_of_get_eq_none ((lookup_eq_declared g child).symm.trans h)).symm
  unfold lookup at habsent ⊢
  unfold unbind
  by_cases h : child = 0
  · rw [if_pos h] at habsent
    rw [if_pos h, if_pos h]
    exact ⟨hg, habsent rfl, rfl⟩
  rw [if_neg h, findSlot_eq_find g h] at habsent
  rw [if_neg h, if_neg h, findSlot_eq_find g h]
  cases hf : SlotTable.find Binding.key child g with
  | none =>
    rw [hf] at habsent
    exact ⟨hg, habsent rfl, rfl⟩
  | some i =>
    exact ⟨hg.update_free key_default,
      hg.toBoundedMap_release (SlotTable.find_key hf) key_default, rfl⟩

theorem clear_refines (g : Bindings) : WellFormed (clear g) ∧ declared (clear g) = .empty := by
  refine ⟨init_wellFormed, BoundedMap.ext fun k => ?_⟩
  rw [declared, SlotTable.toBoundedMap_get, BoundedMap.get_empty, Option.map_eq_none_iff,
    SlotTable.lookup_eq_none]
  exact fun _ => nofun

theorem apply_refines {g : Bindings} (hg : WellFormed g) (op : Op) :
    WellFormed (apply g op).1 ∧
      (declared (apply g op).1, (apply g op).2) = (declared g).apply op := by
  cases op with
  | bind child peer => exact bind_refines hg child peer
  | unbind child =>
    obtain ⟨hwf, hmap, hflag⟩ := unbind_refines hg child
    exact ⟨hwf, Prod.ext hmap hflag⟩
  | clear => exact ⟨(clear_refines g).1, Prod.ext (clear_refines g).2 rfl⟩

/-! ## Histories -/

/-- The table after a history of commands. -/
def run (g : Bindings) (history : List Op) : Bindings :=
  history.foldl (fun g op => (apply g op).1) g

/-- The declared map after a history of commands. -/
def Declared.run (m : Declared) (history : List Op) : Declared :=
  history.foldl (fun m op => (m.apply op).1) m

theorem run_refines {g : Bindings} (hg : WellFormed g) (history : List Op) :
    WellFormed (run g history) ∧ declared (run g history) = (declared g).run history := by
  induction history generalizing g with
  | nil => exact ⟨hg, rfl⟩
  | cons op rest ih =>
    obtain ⟨hwf, heq⟩ := apply_refines hg op
    obtain ⟨hwf', heq'⟩ := ih hwf
    refine ⟨hwf', heq'.trans ?_⟩
    rw [show declared (apply g op).1 = ((declared g).apply op).1 from congrArg Prod.fst heq]
    rfl

theorem declared_init : declared init = .empty := (clear_refines init).2

/-- From boot, the table is the map its history declares. -/
theorem declared_run (history : List Op) :
    declared (run init history) = Declared.run .empty history := by
  rw [(run_refines init_wellFormed history).2, declared_init]

end BallyDongle.HubRegistry
