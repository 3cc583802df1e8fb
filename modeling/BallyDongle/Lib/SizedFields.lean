import Mathlib.Data.List.Basic

/-!
# Fields that carry their size

A field is a prefix of `width` items followed by as many items as the prefix
says; `size` reads a prefix. Such fields can be laid end to end and taken apart
again: `takeFields` undoes concatenation, and what it takes apart concatenates
back.
-/

namespace SizedFields

variable {α : Type} (width : Nat) (size : List α → Option Nat)

/-- `data` is one field. -/
def IsField (data : List α) : Prop :=
  ∃ n, size (data.take width) = some n ∧ data.length = width + n

/-- The first `count` fields of `data`, and the rest. -/
def takeFields : (count : Nat) → (data : List α) → Option (List (List α) × List α)
  | 0, data => some ([], data)
  | count + 1, data => do
    let n ← size (data.take width)
    if data.length < width + n then none
    else
      let (fields, rest) ← takeFields count (data.drop (width + n))
      some (data.take (width + n) :: fields, rest)

/-- The fields of `data`, at most `fuel` of them, when nothing is left over. -/
def allFields : (fuel : Nat) → (data : List α) → Option (List (List α))
  | _, [] => some []
  | 0, _ :: _ => none
  | fuel + 1, x :: data => do
    let (fields, rest) ← takeFields width size 1 (x :: data)
    let others ← allFields fuel rest
    some (fields ++ others)

variable {width size} {count fuel : Nat} {data rest : List α} {fields : List (List α)}

theorem takeFields_append (h : ∀ f ∈ fields, IsField width size f) (rest : List α) :
    takeFields width size fields.length (fields.flatten ++ rest) = some (fields, rest) := by
  induction fields with
  | nil => rfl
  | cons f fields ih =>
    obtain ⟨n, hn, hlen⟩ := h f List.mem_cons_self
    have hhex : (f ++ (fields.flatten ++ rest)).take width = f.take width :=
      List.take_append_of_le_length (by omega)
    rw [List.length_cons, List.flatten_cons, List.append_assoc, takeFields, hhex, hn,
      Option.bind_eq_bind, Option.bind_some, ← hlen, if_neg (by rw [List.length_append]; omega),
      List.drop_left, List.take_left, ih fun f' hf => h f' (List.mem_cons_of_mem f hf)]
    rfl

theorem takeFields_eq_some (h : takeFields width size count data = some (fields, rest)) :
    data = fields.flatten ++ rest ∧ fields.length = count ∧ ∀ f ∈ fields, IsField width size f := by
  induction count generalizing data fields with
  | zero =>
    cases h
    exact ⟨rfl, rfl, nofun⟩
  | succ count ih =>
    rw [takeFields, Option.bind_eq_bind, Option.bind_eq_some_iff] at h
    obtain ⟨n, hn, h⟩ := h
    split at h
    · cases h
    · rename_i hlen
      rw [Option.bind_eq_bind, Option.bind_eq_some_iff] at h
      obtain ⟨⟨others, rest'⟩, hothers, h⟩ := h
      cases h
      obtain ⟨hdata, hcount, hfields⟩ := ih hothers
      refine ⟨?_, by rw [List.length_cons, hcount], fun f hf => ?_⟩
      · rw [List.flatten_cons, List.append_assoc, ← hdata, List.take_append_drop]
      · rcases List.mem_cons.1 hf with rfl | hf
        · refine ⟨n, ?_, ?_⟩
          · rw [List.take_take, Nat.min_eq_left (by omega), hn]
          · rw [List.length_take]
            omega
        · exact hfields f hf

/-- Fields are not empty when their prefix is not. -/
theorem IsField.length_pos {f : List α} (hw : 0 < width) (h : IsField width size f) :
    0 < f.length := by
  obtain ⟨n, -, hlen⟩ := h
  omega

theorem length_le_flatten (hw : 0 < width) (h : ∀ f ∈ fields, IsField width size f) :
    fields.length ≤ fields.flatten.length := by
  induction fields with
  | nil => exact Nat.le_refl 0
  | cons f fields ih =>
    have hf := (h f List.mem_cons_self).length_pos hw
    have := ih fun f' hf' => h f' (List.mem_cons_of_mem f hf')
    rw [List.flatten_cons, List.length_append, List.length_cons]
    omega

theorem allFields_flatten (hw : 0 < width) (h : ∀ f ∈ fields, IsField width size f)
    (hfuel : fields.length ≤ fuel) : allFields width size fuel fields.flatten = some fields := by
  induction fields generalizing fuel with
  | nil => cases fuel <;> rfl
  | cons f fields ih =>
    obtain ⟨fuel, rfl⟩ : ∃ n, fuel = n + 1 := ⟨fuel - 1, by rw [List.length_cons] at hfuel; omega⟩
    have hf := h f List.mem_cons_self
    have hone : takeFields width size 1 (f :: fields).flatten = some ([f], fields.flatten) := by
      have hsingle : ∀ f' ∈ [f], IsField width size f' := by
        intro f' hf'
        rw [List.mem_singleton.1 hf']
        exact hf
      have htake := takeFields_append hsingle fields.flatten
      simpa using htake
    cases hflat : (f :: fields).flatten with
    | nil =>
      have := hf.length_pos hw
      rw [List.flatten_cons, List.append_eq_nil_iff] at hflat
      rw [hflat.1] at this
      exact absurd this (Nat.lt_irrefl 0)
    | cons x data =>
      rw [allFields, ← hflat, hone, Option.bind_eq_bind, Option.bind_some]
      dsimp only
      rw [ih (fun f' hf' => h f' (List.mem_cons_of_mem f hf'))
        (by rw [List.length_cons] at hfuel; omega)]
      rfl

end SizedFields
