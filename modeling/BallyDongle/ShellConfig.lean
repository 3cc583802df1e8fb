import BallyDongle.ShellCommandSupport
import Mathlib.Algebra.GroupWithZero.Nat
import Mathlib.Algebra.Order.BigOperators.Group.List
import Mathlib.Algebra.Order.Group.Nat

/-!
# Command lines

How `ShellConfig.cpp` takes a line apart: `runLine` splits it on `;` outside quotes and
runs each part as a line of its own; a line that is not split is trimmed, its alias is
expanded, and it is handed to TinyShell, SQL excepted.
-/

namespace BallyDongle.ShellConfig

open Numeral ShellCommandSupport

/-! ## Splitting -/

structure OpenQuotes where
  inDoubleQuote : Bool := false
  inSingleQuote : Bool := false
  deriving DecidableEq, Repr

/-- The quotes that are open after a character. -/
def OpenQuotes.after (quotes : OpenQuotes) (ch : Char) : OpenQuotes :=
  if ch == '\x22' && !quotes.inSingleQuote then
    { quotes with inDoubleQuote := !quotes.inDoubleQuote }
  else if ch == '\x27' && !quotes.inDoubleQuote then
    { quotes with inSingleQuote := !quotes.inSingleQuote }
  else quotes

/-- The loop of `splitTopLevelSemicolons`, in the middle of a part. -/
def splitFrom (quotes : OpenQuotes) (current : List Char) : List Char → List (List Char)
  | [] => [current]
  | ch :: line =>
    let quotes := quotes.after ch
    if ch == ';' && !quotes.inDoubleQuote && !quotes.inSingleQuote then
      current :: splitFrom quotes [] line
    else splitFrom quotes (current ++ [ch]) line

def splitTopLevelSemicolons (line : List Char) : List (List Char) := splitFrom {} [] line

/-- The parts take up what is left of the line without its separators. -/
theorem splitFrom_length (quotes : OpenQuotes) (current line : List Char) :
    ((splitFrom quotes current line).map List.length).sum + (splitFrom quotes current line).length =
      current.length + line.length + 1 := by
  induction line generalizing quotes current with
  | nil => simp [splitFrom]
  | cons ch line ih =>
    rw [splitFrom]
    split
    · have hrest := ih (quotes.after ch) []
      rw [List.length_nil] at hrest
      rw [List.map_cons, List.sum_cons, List.length_cons, List.length_cons]
      omega
    · rw [ih, List.length_append, List.length_singleton, List.length_cons]
      omega

/-- The parts of a line that is split are shorter than it. -/
theorem length_trimCopy_lt {command segment : List Char}
    (hsegment : segment ∈ splitTopLevelSemicolons command)
    (hsplit : 1 < (splitTopLevelSemicolons command).length) :
    (trimCopy segment).length < command.length := by
  have hsum := splitFrom_length {} [] command
  have hle := List.single_le_sum (fun _ _ => Nat.zero_le _) _
    (List.mem_map_of_mem (f := List.length) hsegment)
  have htrim := length_trimCopy_le segment
  rw [List.length_nil] at hsum
  rw [splitTopLevelSemicolons] at hle hsplit
  omega

/-- The commands that `runLine` runs for a line, in order: its recursion. -/
def commandsOf (command : List Char) : List (List Char) :=
  let segments := splitTopLevelSemicolons command
  if _ : 1 < segments.length then
    segments.attach.flatMap fun segment =>
      if trimCopy segment.1 = [] then [] else commandsOf (trimCopy segment.1)
  else [command]
termination_by command.length
decreasing_by exact length_trimCopy_lt segment.2 ‹_›

example : commandsOf "dongle -ping; ; dongle -lcd \"a; b\"".toList =
    ["dongle -ping".toList, "dongle -lcd \"a; b\"".toList] := by decide +kernel

/-! ## One command -/

/-- `kAliases`, and what each expands to. -/
def kAliases : List (List Char × List Char) := [("es".toList, "espnow -send_to".toList)]

def resolve (line : List Char) : List Char :=
  let token := line.takeWhile fun c => !isSpace c
  if token = [] then line
  else
    match kAliases.find? fun entry => token == entry.1 with
    | some entry => entry.2 ++ line.drop token.length
    | none => line

/-- A `send_to` without a device goes to every peer. -/
def applyEspNowSendToDefault (command : List Char) : List Char :=
  let kPrefix := "espnow -send_to ".toList
  if kPrefix.isPrefixOf command then
    let args := trimCopy (command.drop kPrefix.length)
    if args ≠ [] ∧ ',' ∉ args then "espnow -send_all ".toList ++ args else command
  else command

def normalizeCommand (command : List Char) : List Char :=
  applyEspNowSendToDefault (resolve (trimCopy command))

/-- The arguments of a command that begins with these words. -/
def argumentsOf (words command : List Char) : Option (List Char) :=
  if command = words ∨ (words ++ [' ']).isPrefixOf command then
    some (trimCopy (command.drop words.length))
  else none

end BallyDongle.ShellConfig
