import BallyDongle.Lib.Numeral

/-!
# Text the operator types

`trimCopy` and `stripOuterQuotes` of `ShellCommandSupport.cpp`.
-/

namespace BallyDongle.ShellCommandSupport

open Numeral

def trimCopy (text : List Char) : List Char :=
  ((text.dropWhile isSpace).reverse.dropWhile isSpace).reverse

theorem length_trimCopy_le (text : List Char) : (trimCopy text).length ≤ text.length := by
  rw [trimCopy, List.length_reverse]
  refine Nat.le_trans (List.dropWhile_suffix _).length_le ?_
  rw [List.length_reverse]
  exact (List.dropWhile_suffix _).length_le

def stripOuterQuotes (text : List Char) : List Char :=
  let s := trimCopy text
  if 2 ≤ s.length then
    let doubleQuoted := s.head? == some '\x22' && s.getLast? == some '\x22'
    let singleQuoted := s.head? == some '\x27' && s.getLast? == some '\x27'
    if doubleQuoted || singleQuoted then (s.drop 1).take (s.length - 2) else s
  else s

/-- Neither white space nor a quote. -/
def bare (c : Char) : Bool := !isSpace c && c != '\x22' && c != '\x27'

inductive Quotes
  | none | single | double
  deriving DecidableEq, Repr

def Quotes.around : Quotes → List Char → List Char
  | .none, text => text
  | .single, text => '\x27' :: text ++ ['\x27']
  | .double, text => '\x22' :: text ++ ['\x22']

section quotes

variable {text : List Char}

theorem dropWhile_of_forall {p : Char → Bool} (h : ∀ c ∈ text, p c = false) :
    text.dropWhile p = text := by
  cases text with
  | nil => rfl
  | cons c text => exact List.dropWhile_cons_of_neg (by rw [h c (.head _)]; exact nofun)

theorem trimCopy_of_forall (h : ∀ c ∈ text, isSpace c = false) : trimCopy text = text := by
  rw [trimCopy, dropWhile_of_forall h,
    dropWhile_of_forall fun c hc => h c (List.mem_reverse.1 hc), List.reverse_reverse]

theorem stripOuterQuotes_around (q : Quotes) (h : ∀ c ∈ text, bare c = true) :
    stripOuterQuotes (q.around text) = text := by
  have hspace : ∀ c ∈ q.around text, isSpace c = false := by
    intro c hc
    have hquote : c ∈ text ∨ c = '\x27' ∨ c = '\x22' := by
      cases q with
      | none => exact .inl hc
      | single | double =>
        simp only [Quotes.around, List.cons_append, List.mem_cons, List.mem_append,
          List.not_mem_nil, or_false] at hc
        tauto
    obtain hc | rfl | rfl := hquote
    · have hbare := h c hc
      simp only [bare, Bool.and_eq_true, Bool.not_eq_true'] at hbare
      exact hbare.1.1
    · rfl
    · rfl
  rw [stripOuterQuotes, trimCopy_of_forall hspace]
  cases q with
  | none =>
    cases text with
    | nil => rfl
    | cons c text =>
      have hbare := h c (.head _)
      simp only [bare, Bool.and_eq_true, bne_iff_ne] at hbare
      simp [Quotes.around, hbare.1.2, hbare.2]
  | single | double =>
    have hlast : ∀ c : Char, (c :: (text ++ [c])).getLast? = some c := fun c =>
      List.getLast?_concat (l := c :: text)
    simp [Quotes.around, hlast]

end quotes

end BallyDongle.ShellCommandSupport
