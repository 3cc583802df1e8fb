import Mathlib.Data.List.Basic

/-!
# Lists with a separator between them
-/

namespace Intercalate

universe u

variable {α : Type u} {sep : List α} {parts : List (List α)}

/-- Each part but the first has the separator in front. -/
theorem intercalate_cons (sep part : List α) (parts : List (List α)) :
    List.intercalate sep (part :: parts) = part ++ parts.flatMap (sep ++ ·) := by
  induction parts generalizing part with
  | nil => rw [List.intercalate_singleton, List.flatMap_nil, List.append_nil]
  | cons next parts ih =>
    rw [List.intercalate_cons_cons, ih, List.flatMap_cons, List.append_assoc, List.append_assoc]

theorem mem_intercalate {a : α} (h : a ∈ List.intercalate sep parts) :
    a ∈ sep ∨ ∃ part ∈ parts, a ∈ part := by
  cases parts with
  | nil => cases h
  | cons part parts =>
    rw [intercalate_cons, List.mem_append, List.mem_flatMap] at h
    obtain h | ⟨other, hother, h⟩ := h
    · exact .inr ⟨part, .head _, h⟩
    · exact (List.mem_append.1 h).imp_right fun h => ⟨other, .tail _ hother, h⟩

end Intercalate
