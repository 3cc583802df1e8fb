import Mathlib.Data.List.Basic

/-!
# Texts between quotes

Inside quotes a quote is written twice, and the first one that is not ends the text.
`takeQuoted` reads what `double` wrote, and nothing else (`takeQuoted_eq_some`).
-/

namespace Quoted

variable {q : Char}

/-- The text with every `q` doubled. -/
def double (q : Char) (text : List Char) : List Char :=
  text.flatMap fun c => if c = q then [q, q] else [c]

/-- Read up to the quote that ends the text: the text, and what follows the quote. -/
def takeQuoted (q : Char) : List Char → Option (List Char × List Char)
  | [] => none
  | [c] => if c = q then some ([], []) else none
  | c :: d :: cs =>
    if c ≠ q then (takeQuoted q (d :: cs)).map fun (text, rest) => (c :: text, rest)
    else if d = q then (takeQuoted q cs).map fun (text, rest) => (q :: text, rest)
    else some ([], d :: cs)

section double

variable {c : Char} {text : List Char}

@[simp] theorem double_nil : double q [] = [] := rfl

theorem double_cons_self (q : Char) (text : List Char) :
    double q (q :: text) = q :: q :: double q text := by
  simp [double]

theorem double_cons_of_ne (h : c ≠ q) (text : List Char) :
    double q (c :: text) = c :: double q text := by
  simp [double, h]

theorem double_append (text text' : List Char) :
    double q (text ++ text') = double q text ++ double q text' :=
  List.flatMap_append

theorem mem_double : c ∈ double q text ↔ c ∈ text := by
  rw [double, List.mem_flatMap]
  constructor
  · rintro ⟨d, hd, hc⟩
    split at hc
    · rename_i hq
      simp only [List.mem_cons, List.not_mem_nil, or_false, or_self] at hc
      rwa [hc, ← hq]
    · rwa [List.mem_singleton.mp hc]
  · intro hc
    refine ⟨c, hc, ?_⟩
    split
    · rename_i hq
      rw [hq]
      exact .head _
    · exact .head _

theorem double_of_notMem (h : q ∉ text) : double q text = text := by
  induction text with
  | nil => rfl
  | cons c text ih =>
    rw [List.mem_cons, not_or] at h
    rw [double_cons_of_ne (Ne.symm h.1), ih h.2]

/-- No text with a character behind it begins like quotes and the text doubled. -/
theorem append_ne_double (hc : c ≠ q) (n : Nat) (rest rest' : List Char) :
    text ++ c :: rest ≠ List.replicate (n + 1) q ++ double q text ++ rest' := by
  induction text generalizing n with
  | nil =>
    intro h
    rw [List.replicate_succ] at h
    exact hc (List.head_eq_of_cons_eq h)
  | cons d text ih =>
    intro h
    rw [List.replicate_succ, List.cons_append, List.cons_append, List.cons_append,
      List.cons.injEq] at h
    obtain ⟨rfl, h⟩ := h
    refine ih (n + 1) (h.trans ?_)
    rw [double_cons_self, List.replicate_succ', List.replicate_succ']
    simp

end double

section takeQuoted

variable {text rest cs : List Char}

theorem takeQuoted_double (h : rest.head? ≠ some q) :
    takeQuoted q (double q text ++ q :: rest) = some (text, rest) := by
  induction text with
  | nil =>
    cases rest with
    | nil => simp [takeQuoted]
    | cons c rest =>
      have hc : c ≠ q := by simpa using h
      simp [takeQuoted, hc]
  | cons c text ih =>
    by_cases hc : c = q
    · subst hc
      rw [double_cons_self, List.cons_append, List.cons_append, takeQuoted, if_neg (not_not.mpr rfl),
        if_pos rfl, ih, Option.map_some]
    · rw [double_cons_of_ne hc, List.cons_append]
      cases hd : double q text ++ q :: rest with
      | nil => simp at hd
      | cons d ds => rw [takeQuoted, if_pos hc, ← hd, ih, Option.map_some]

theorem takeQuoted_eq_some :
    takeQuoted q cs = some (text, rest) ↔
      cs = double q text ++ q :: rest ∧ rest.head? ≠ some q := by
  refine ⟨fun h => ?_, fun ⟨hcs, hrest⟩ => hcs ▸ takeQuoted_double hrest⟩
  induction cs using takeQuoted.induct q generalizing text with
  | case1 => cases h
  | case2 =>
    rw [takeQuoted, if_pos rfl] at h
    cases h
    exact ⟨rfl, nofun⟩
  | case3 c hc =>
    rw [takeQuoted, if_neg hc] at h
    cases h
  | case4 c d cs hc ih =>
    rw [takeQuoted, if_pos hc] at h
    obtain ⟨⟨text', rest'⟩, htake, heq⟩ := Option.map_eq_some_iff.mp h
    cases heq
    obtain ⟨hcs, hrest⟩ := ih htake
    exact ⟨by rw [hcs, double_cons_of_ne hc, List.cons_append], hrest⟩
  | case5 c cs hc ih =>
    rw [takeQuoted, if_neg hc, if_pos rfl] at h
    obtain ⟨⟨text', rest'⟩, htake, heq⟩ := Option.map_eq_some_iff.mp h
    cases heq
    obtain ⟨hcs, hrest⟩ := ih htake
    exact ⟨by rw [hcs, not_not.mp hc, double_cons_self, List.cons_append, List.cons_append], hrest⟩
  | case6 c d cs hc hd =>
    rw [takeQuoted, if_neg hc, if_neg hd] at h
    cases h
    refine ⟨by rw [not_not.mp hc, double_nil, List.nil_append], ?_⟩
    rw [List.head?_cons, ne_eq, Option.some.injEq]
    exact hd

end takeQuoted

end Quoted
