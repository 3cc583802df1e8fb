import BallyDongle.ShellConfig
import Mathlib.Data.List.TakeWhile

/-!
# Splitting a line

`splitTopLevelSemicolons` cuts a line at every `;` outside quotes, and at nothing else. No
quote is open where it cuts, so a part read by itself has its quotes open where the line
had them: no part is cut again, and `runLine` recurses once (`split_once`).
-/

namespace BallyDongle.ShellConfig

open Numeral ShellCommandSupport

/-! ## Quotes -/

namespace OpenQuotes

def closed (quotes : OpenQuotes) : Bool := !quotes.inDoubleQuote && !quotes.inSingleQuote

/-- The quotes that are open after a text. -/
def afterText (quotes : OpenQuotes) (text : List Char) : OpenQuotes := text.foldl after quotes

variable {quotes : OpenQuotes}

theorem eq_of_closed (h : quotes.closed = true) : quotes = {} := by
  obtain ⟨double, single⟩ := quotes
  cases double <;> cases single <;> first | rfl | cases h

theorem after_of_ne {ch : Char} (hdouble : ch ≠ '\x22') (hsingle : ch ≠ '\x27') :
    quotes.after ch = quotes := by
  rw [after, if_neg (by simp [hdouble]), if_neg (by simp [hsingle])]

theorem after_separator : quotes.after ';' = quotes := after_of_ne (by decide) (by decide)

theorem after_space {ch : Char} (h : isSpace ch = true) : quotes.after ch = quotes := by
  refine after_of_ne ?_ ?_ <;> rintro rfl <;> exact absurd h (by decide)

theorem afterText_spaces {text : List Char} (h : ∀ ch ∈ text, isSpace ch = true) :
    quotes.afterText text = quotes := by
  induction text with
  | nil => rfl
  | cons ch text ih =>
    rw [afterText, List.foldl_cons, after_space (h ch (.head _))]
    exact ih fun c hc => h c (.tail _ hc)

end OpenQuotes

/-- The line is cut at this character. -/
def IsCut (quotes : OpenQuotes) (ch : Char) : Prop := ch = ';' ∧ quotes.closed = true

instance (quotes : OpenQuotes) (ch : Char) : Decidable (IsCut quotes ch) :=
  inferInstanceAs (Decidable (_ ∧ _))

/-- A `;` outside quotes stands at a position of a line. -/
def SeparatesAt (quotes : OpenQuotes) (line : List Char) (i : Nat) : Prop :=
  (line)[i]? = some ';' ∧ (quotes.afterText (line.take i)).closed = true

/-- Where a line was cut, from its parts. -/
def cutsFrom (start : Nat) : List (List Char) → List Nat
  | [] => []
  | [_] => []
  | part :: parts => (start + part.length) :: cutsFrom (start + part.length + 1) parts

section split

variable {quotes : OpenQuotes} {current line part : List Char} {ch : Char}

theorem splitFrom_cut (h : IsCut quotes ch) (current line : List Char) :
    splitFrom quotes current (ch :: line) = current :: splitFrom {} [] line := by
  obtain ⟨rfl, hclosed⟩ := h
  have hquotes := OpenQuotes.eq_of_closed hclosed
  subst hquotes
  rfl

theorem splitFrom_keep (h : ¬IsCut quotes ch) (current line : List Char) :
    splitFrom quotes current (ch :: line) = splitFrom (quotes.after ch) (current ++ [ch]) line := by
  rw [splitFrom]
  refine if_neg fun hcut => h ?_
  simp only [Bool.and_eq_true, beq_iff_eq] at hcut
  obtain ⟨⟨rfl, hdouble⟩, hsingle⟩ := hcut
  rw [OpenQuotes.after_separator] at hdouble hsingle
  exact ⟨rfl, by rw [OpenQuotes.closed, hdouble, hsingle, Bool.and_self]⟩

theorem splitFrom_ne_nil (quotes : OpenQuotes) (current line : List Char) :
    splitFrom quotes current line ≠ [] := by
  induction line generalizing quotes current with
  | nil => exact List.cons_ne_nil _ _
  | cons ch line ih =>
    by_cases h : IsCut quotes ch
    · rw [splitFrom_cut h]
      exact List.cons_ne_nil _ _
    · rw [splitFrom_keep h]
      exact ih _ _

theorem intercalate_splitFrom (quotes : OpenQuotes) (current line : List Char) :
    List.intercalate [';'] (splitFrom quotes current line) = current ++ line := by
  induction line generalizing quotes current with
  | nil => rw [splitFrom, List.intercalate_singleton, List.append_nil]
  | cons ch line ih =>
    by_cases h : IsCut quotes ch
    · rw [splitFrom_cut h, List.intercalate_cons_of_ne_nil (splitFrom_ne_nil _ _ _), ih, h.1,
        List.nil_append, List.append_assoc, List.singleton_append]
    · rw [splitFrom_keep h, ih, List.append_assoc, List.singleton_append]

theorem cutsFrom_cons {parts : List (List Char)} (start : Nat) (h : parts ≠ []) :
    cutsFrom start (part :: parts) =
      (start + part.length) :: cutsFrom (start + part.length + 1) parts := by
  cases parts with
  | nil => exact absurd rfl h
  | cons next parts => rfl

theorem separatesAt_zero : SeparatesAt quotes (ch :: line) 0 ↔ IsCut quotes ch := by
  rw [SeparatesAt, List.getElem?_cons_zero, Option.some_inj]
  rfl

theorem separatesAt_succ (i : Nat) :
    SeparatesAt quotes (ch :: line) (i + 1) ↔ SeparatesAt (quotes.after ch) line i := by
  rw [SeparatesAt, List.getElem?_cons_succ]
  rfl

/-- A line is cut at its separators. -/
theorem mem_cutsFrom (start i : Nat) (quotes : OpenQuotes) (current line : List Char) :
    i ∈ cutsFrom start (splitFrom quotes current line) ↔
      ∃ j, i = start + current.length + j ∧ SeparatesAt quotes line j := by
  induction line generalizing start quotes current with
  | nil =>
    refine iff_of_false (by rw [splitFrom]; exact List.not_mem_nil) ?_
    rintro ⟨j, -, hj, -⟩
    cases hj
  | cons ch line ih =>
    by_cases h : IsCut quotes ch
    · rw [splitFrom_cut h, cutsFrom_cons start (splitFrom_ne_nil _ _ _), List.mem_cons, ih]
      have hafter : quotes.after ch = {} := by
        rw [h.1, OpenQuotes.after_separator]
        exact OpenQuotes.eq_of_closed h.2
      constructor
      · rintro (rfl | ⟨j, rfl, hj⟩)
        · exact ⟨0, rfl, separatesAt_zero.2 h⟩
        · refine ⟨j + 1, ?_, (separatesAt_succ j).2 (hafter ▸ hj)⟩
          rw [List.length_nil]
          omega
      · rintro ⟨j, rfl, hj⟩
        cases j with
        | zero => exact .inl rfl
        | succ j =>
          refine .inr ⟨j, ?_, hafter ▸ (separatesAt_succ j).1 hj⟩
          rw [List.length_nil]
          omega
    · rw [splitFrom_keep h, ih, List.length_append, List.length_singleton]
      constructor
      · rintro ⟨j, rfl, hj⟩
        exact ⟨j + 1, by omega, (separatesAt_succ j).2 hj⟩
      · rintro ⟨j, rfl, hj⟩
        cases j with
        | zero => exact absurd (separatesAt_zero.1 hj) h
        | succ j => exact ⟨j, by omega, (separatesAt_succ j).1 hj⟩

/-! ## Parts are not cut again -/

/-- No character of a text is a cut. -/
def Uncut (quotes : OpenQuotes) : List Char → Prop
  | [] => True
  | ch :: text => ¬IsCut quotes ch ∧ Uncut (quotes.after ch) text

theorem uncut_nil (quotes : OpenQuotes) : Uncut quotes [] := trivial

theorem uncut_cons : Uncut quotes (ch :: line) ↔ ¬IsCut quotes ch ∧ Uncut (quotes.after ch) line :=
  Iff.rfl

theorem uncut_append (quotes : OpenQuotes) (front back : List Char) :
    Uncut quotes (front ++ back) ↔ Uncut quotes front ∧ Uncut (quotes.afterText front) back := by
  induction front generalizing quotes with
  | nil => exact (and_iff_right (uncut_nil quotes)).symm
  | cons ch front ih =>
    rw [List.cons_append, uncut_cons, uncut_cons, ih, and_assoc]
    rfl

theorem splitFrom_uncut (h : Uncut quotes line) (current : List Char) :
    splitFrom quotes current line = [current ++ line] := by
  induction line generalizing quotes current with
  | nil => rw [splitFrom, List.append_nil]
  | cons ch line ih =>
    rw [splitFrom_keep h.1, ih h.2, List.append_assoc, List.singleton_append]

/-- What stands between two cuts holds no cut, its quotes counted from its beginning. -/
theorem uncut_of_mem (hcurrent : Uncut {} current) (h : part ∈ splitFrom (.afterText {} current) current line) :
    Uncut {} part := by
  induction line generalizing current with
  | nil =>
    rw [splitFrom, List.mem_singleton] at h
    rwa [h]
  | cons ch line ih =>
    by_cases hcut : IsCut (.afterText {} current) ch
    · rw [splitFrom_cut hcut] at h
      rcases List.mem_cons.1 h with rfl | hrest
      · exact hcurrent
      · exact ih (uncut_nil _) hrest
    · rw [splitFrom_keep hcut] at h
      have hnext : OpenQuotes.afterText {} (current ++ [ch]) =
          (OpenQuotes.afterText {} current).after ch := by
        rw [OpenQuotes.afterText, List.foldl_append]
        rfl
      refine ih ((uncut_append _ _ _).2 ⟨hcurrent, uncut_cons.2 ⟨hcut, uncut_nil _⟩⟩) ?_
      rwa [hnext]

/-- White space around a part is outside its quotes. -/
theorem uncut_trimCopy (h : Uncut {} part) : Uncut {} (trimCopy part) := by
  obtain ⟨back, hback⟩ := List.reverse_prefix.2
    (List.dropWhile_suffix (l := (part.dropWhile isSpace).reverse) isSpace)
  rw [List.reverse_reverse] at hback
  rw [← List.takeWhile_append_dropWhile (p := isSpace) (l := part), uncut_append,
    OpenQuotes.afterText_spaces fun ch hch => List.mem_takeWhile_imp hch, ← hback, uncut_append] at h
  exact h.2.1

theorem split_trimCopy (h : part ∈ splitTopLevelSemicolons line) :
    splitTopLevelSemicolons (trimCopy part) = [trimCopy part] :=
  splitFrom_uncut (uncut_trimCopy (uncut_of_mem (uncut_nil {}) h)) []

end split

/-! ## The recursion of `runLine` -/

/-- What `runLine` returns, and the full text it hands out. -/
structure Response where
  output : List Char := []
  fullText : List Char := []
  deriving DecidableEq, Repr

/-- The response of a part after those before it. -/
def Response.join (combined segment : Response) : Response where
  output :=
    if segment.output = [] then combined.output
    else if combined.output = [] then segment.output
    else combined.output ++ ['\n'] ++ segment.output
  fullText :=
    if combined.fullText = [] then segment.fullText
    else combined.fullText ++ ['\n'] ++ segment.fullText

/-- `runLine`, given what it does with a command that is not split. -/
def runLineFrom {σ : Type} (runOne : σ → List Char → σ × Response) (s : σ) (command : List Char) :
    σ × Response :=
  let segments := splitTopLevelSemicolons command
  if _ : 1 < segments.length then
    segments.attach.foldl
      (fun combined segment =>
        if trimCopy segment.1 = [] then combined
        else
          let (s, response) := runLineFrom runOne combined.1 (trimCopy segment.1)
          (s, combined.2.join response))
      (s, {})
  else runOne s command
termination_by command.length
decreasing_by exact length_trimCopy_lt segment.2 ‹_›

/-- One part of a line that is split, and the response so far. -/
def runPart {σ : Type} (runOne : σ → List Char → σ × Response) (combined : σ × Response)
    (part : List Char) : σ × Response :=
  ((runOne combined.1 part).1, combined.2.join (runOne combined.1 part).2)

/-- The calls of `runLine` that a call leads to, each with its depth. -/
def callsOf (depth : Nat) (command : List Char) : List (Nat × List Char) :=
  let segments := splitTopLevelSemicolons command
  (depth, command) ::
    if _ : 1 < segments.length then
      segments.attach.flatMap fun segment =>
        if trimCopy segment.1 = [] then [] else callsOf (depth + 1) (trimCopy segment.1)
    else []
termination_by command.length
decreasing_by exact length_trimCopy_lt segment.2 ‹_›

/-- The parts of a line that are run. -/
def commandParts (command : List Char) : List (List Char) :=
  ((splitTopLevelSemicolons command).map trimCopy).filter (· ≠ [])

section recursion

variable {command : List Char}

theorem flatMap_attach {α β : Type} (l : List α) (f : α → List β) :
    (l.attach.flatMap fun a => f a.1) = l.flatMap f := by
  rw [List.flatMap_subtype (g := f) fun _ _ => rfl, List.unattach_attach]

theorem flatMap_parts {β : Type} (parts : List (List Char)) (f : List Char → List β) :
    (parts.flatMap fun part => if trimCopy part = [] then [] else f (trimCopy part)) =
      ((parts.map trimCopy).filter (· ≠ [])).flatMap f := by
  induction parts with
  | nil => rfl
  | cons part parts ih =>
    rw [List.flatMap_cons, ih, List.map_cons]
    by_cases h : trimCopy part = []
    · rw [if_pos h, List.filter_cons_of_neg (by simpa using h), List.nil_append]
    · rw [if_neg h, List.filter_cons_of_pos (by simpa using h), List.flatMap_cons]

theorem foldl_parts {β : Type} (parts : List (List Char)) (f : β → List Char → β) (b : β) :
    parts.foldl (fun b part => if trimCopy part = [] then b else f b (trimCopy part)) b =
      ((parts.map trimCopy).filter (· ≠ [])).foldl f b := by
  induction parts generalizing b with
  | nil => rfl
  | cons part parts ih =>
    rw [List.foldl_cons, ih, List.map_cons]
    by_cases h : trimCopy part = []
    · rw [if_pos h, List.filter_cons_of_neg (by simpa using h)]
    · rw [if_neg h, List.filter_cons_of_pos (by simpa using h), List.foldl_cons]

/-- A part that is run is not split. -/
theorem commandParts_single {part : List Char} (h : part ∈ commandParts command) :
    ¬1 < (splitTopLevelSemicolons part).length := by
  obtain ⟨segment, hsegment, rfl⟩ := List.mem_map.1 (List.mem_filter.1 h).1
  rw [split_trimCopy hsegment]
  exact Nat.lt_irrefl 1

theorem commandsOf_eq (command : List Char) :
    commandsOf command =
      if 1 < (splitTopLevelSemicolons command).length then commandParts command else [command] := by
  have hone : ∀ part ∈ commandParts command, commandsOf part = [part] := by
    intro part hpart
    rw [commandsOf]
    exact dif_neg (commandParts_single hpart)
  rw [commandsOf]
  split
  · rw [flatMap_attach _ fun segment =>
      if trimCopy segment = [] then [] else commandsOf (trimCopy segment), flatMap_parts]
    exact (List.flatMap_congr hone).trans (List.flatMap_singleton' _)
  · rfl

theorem callsOf_eq (depth : Nat) (command : List Char) :
    callsOf depth command =
      (depth, command) ::
        if 1 < (splitTopLevelSemicolons command).length then
          (commandParts command).map fun part => (depth + 1, part)
        else [] := by
  have hone : ∀ part ∈ commandParts command, callsOf (depth + 1) part = [(depth + 1, part)] := by
    intro part hpart
    rw [callsOf, dif_neg (commandParts_single hpart)]
  rw [callsOf]
  split
  · rw [flatMap_attach _ fun segment =>
      if trimCopy segment = [] then [] else callsOf (depth + 1) (trimCopy segment), flatMap_parts]
    exact congrArg _ ((List.flatMap_congr hone).trans List.map_eq_flatMap.symm)
  · rfl

theorem runLineFrom_eq {σ : Type} (runOne : σ → List Char → σ × Response) (s : σ)
    (command : List Char) :
    runLineFrom runOne s command =
      if 1 < (splitTopLevelSemicolons command).length then
        (commandParts command).foldl (runPart runOne) (s, {})
      else runOne s command := by
  have hone : ∀ part ∈ commandParts command, ∀ s, runLineFrom runOne s part = runOne s part := by
    intro part hpart s
    rw [runLineFrom, dif_neg (commandParts_single hpart)]
  rw [runLineFrom]
  split
  · have hattach := @List.foldl_attach _ _ (splitTopLevelSemicolons command)
      (fun combined segment =>
        if trimCopy segment = [] then combined
        else runPart (runLineFrom runOne) combined (trimCopy segment)) (s, {})
    refine hattach.trans ?_
    rw [foldl_parts _ (runPart (runLineFrom runOne))]
    refine List.foldl_ext _ _ _ fun combined part hpart => ?_
    rw [runPart, hone part hpart, runPart]
  · rfl

end recursion

/-- What splitting does with a line. -/
structure SplitsOnce (command : List Char) : Prop where
  joins : List.intercalate [';'] (splitTopLevelSemicolons command) = command
  cuts : ∀ i, i ∈ cutsFrom 0 (splitTopLevelSemicolons command) ↔ SeparatesAt {} command i
  single : ∀ part ∈ splitTopLevelSemicolons command,
    splitTopLevelSemicolons (trimCopy part) = [trimCopy part]
  calls : callsOf 0 command =
    (0, command) ::
      if 1 < (splitTopLevelSemicolons command).length then
        (commandParts command).map fun part => (1, part)
      else []
  commands : commandsOf command =
    if 1 < (splitTopLevelSemicolons command).length then commandParts command else [command]
  runs : ∀ {σ : Type} (runOne : σ → List Char → σ × Response) (s : σ),
    runLineFrom runOne s command =
      if 1 < (splitTopLevelSemicolons command).length then
        (commandParts command).foldl (runPart runOne) (s, {})
      else runOne s command

theorem split_once (command : List Char) : SplitsOnce command where
  joins := intercalate_splitFrom {} [] command
  cuts i := by
    rw [splitTopLevelSemicolons, mem_cutsFrom, List.length_nil]
    constructor
    · rintro ⟨j, rfl, hj⟩
      rw [Nat.add_zero, Nat.zero_add]
      exact hj
    · exact fun hi => ⟨i, by omega, hi⟩
  single _ hpart := split_trimCopy hpart
  calls := callsOf_eq 0 command
  commands := commandsOf_eq command
  runs runOne s := runLineFrom_eq runOne s command

end BallyDongle.ShellConfig
