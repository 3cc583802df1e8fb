import Mathlib.Data.Set.BooleanAlgebra
import Mathlib.Data.Set.Disjoint
import Mathlib.Order.CompletePartialOrder

/-!
# Painting over

A paint colours some points of a surface, its `area`, and leaves the others as they are.
Paints on disjoint areas commute, and a paint hides one whose area it covers, so that
a part of a picture can be painted anew without the rest (`andThen_replace`).
-/

universe u v

/-- The colours a paint puts on. -/
def Paint (P : Type u) (C : Type v) := P → Option C

namespace Paint

variable {P : Type u} {C : Type v}

/-- The surface after `p`. -/
def onto (p : Paint P C) (s : P → C) : P → C := fun x => (p x).getD (s x)

/-- `p`, and `q` over it. -/
def andThen (p q : Paint P C) : Paint P C := fun x => (q x).or (p x)

def nothing : Paint P C := fun _ => none

/-- One colour on a part of the surface. -/
def fill (part : P → Bool) (c : C) : Paint P C := fun x => if part x then some c else none

def area (p : Paint P C) : Set P := {x | (p x).isSome = true}

variable {p q r : Paint P C} {s s' : P → C} {x : P}

theorem mem_area : x ∈ p.area ↔ p x ≠ none := Option.isSome_iff_ne_none

theorem notMem_area : x ∉ p.area ↔ p x = none := by
  rw [mem_area, not_not]

@[simp] theorem area_nothing : (nothing : Paint P C).area = ∅ := by
  ext x
  simp [mem_area, nothing]

@[simp] theorem area_fill (part : P → Bool) (c : C) : (fill part c).area = {x | part x = true} := by
  ext x
  simp [mem_area, fill]

@[simp] theorem area_andThen (p q : Paint P C) : (p.andThen q).area = p.area ∪ q.area := by
  ext x
  simp only [Set.mem_union, mem_area, andThen]
  cases p x <;> cases q x <;> simp

theorem onto_andThen (p q : Paint P C) (s : P → C) : (p.andThen q).onto s = q.onto (p.onto s) := by
  funext x
  simp only [onto, andThen]
  cases q x <;> rfl

@[simp] theorem onto_nothing (s : P → C) : (nothing : Paint P C).onto s = s := rfl

@[simp] theorem andThen_nothing (p : Paint P C) : p.andThen nothing = p := rfl

theorem andThen_assoc (p q r : Paint P C) : (p.andThen q).andThen r = p.andThen (q.andThen r) := by
  funext x
  simp only [andThen]
  cases r x <;> rfl

/-- Paints on disjoint areas commute. -/
theorem andThen_comm (h : Disjoint p.area q.area) : p.andThen q = q.andThen p := by
  funext x
  simp only [andThen]
  have hnot : ¬(x ∈ p.area ∧ x ∈ q.area) := fun hx => h.le_bot hx
  rw [mem_area, mem_area] at hnot
  cases hp : p x with
  | none => cases q x <;> rfl
  | some c =>
    cases hq : q x with
    | none => rfl
    | some d => simp [hp, hq] at hnot

/-- A paint hides one whose area it covers. -/
theorem andThen_absorb (h : p.area ⊆ q.area) : p.andThen q = q := by
  funext x
  simp only [andThen]
  cases hq : q x with
  | some c => rfl
  | none =>
    have hp : x ∉ p.area := fun hx => notMem_area.2 hq (h hx)
    exact notMem_area.1 hp

/-- A paint that puts on what is there already. -/
theorem andThen_same (h : ∀ x ∈ q.area, q x = p x) : p.andThen q = p := by
  funext x
  simp only [andThen]
  cases hq : q x with
  | none => rfl
  | some c =>
    have hx : x ∈ q.area := mem_area.2 (by rw [hq]; exact Option.some_ne_none c)
    rw [← h x hx, hq]
    rfl

/-- A part is painted anew beneath what was painted elsewhere since. -/
theorem andThen_replace {rest : Paint P C} (hcover : q.area ⊆ r.area)
    (hrest : Disjoint rest.area r.area) : (q.andThen rest).andThen r = r.andThen rest := by
  rw [andThen_assoc, andThen_comm hrest, ← andThen_assoc, andThen_absorb hcover]

/-- A paint hides what was there on its area. -/
theorem onto_eq_of_mem (h : x ∈ p.area) (s s' : P → C) : p.onto s x = p.onto s' x := by
  rw [mem_area, Option.ne_none_iff_exists'] at h
  obtain ⟨c, hc⟩ := h
  simp [onto, hc]

/-- A paint all over leaves nothing of what was there. -/
theorem onto_eq_of_univ (h : p.area = Set.univ) (s s' : P → C) : p.onto s = p.onto s' :=
  funext fun x => onto_eq_of_mem (h ▸ Set.mem_univ x) s s'

end Paint
