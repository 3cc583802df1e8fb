import BallyDongle.StringCompat

/-!
# Lines of output

`printLine` of `ShellCommandSupport.cpp` prints a text without the white space around it and
without the module tags in front of it, unless that leaves nothing.
-/

namespace BallyDongle.ShellCommandSupport

open StringCompat

def isTagToken (token : List Char) : Bool :=
  token != [] && token.all fun ch => ch.isAlpha || ch == '_' || ch == '-'

def isEspNowStructuredLine (text : List Char) : Bool :=
  startsWith ((trimCopy text).map toLower) "[espnow][".toList

/-- The loop of `stripLeadingModuleTags`. -/
def stripTags (out : List Char) : List Char :=
  match out with
  | '[' :: rest =>
    let tag := rest.takeWhile (· != ']')
    if ']' ∈ rest ∧ isTagToken tag then stripTags (trimCopy (rest.drop (tag.length + 1)))
    else '[' :: rest
  | out => out
termination_by out.length
decreasing_by
  refine Nat.lt_succ_of_le (Nat.le_trans (length_trimCopy_le _) ?_)
  rw [List.length_drop]
  exact Nat.sub_le _ _

def stripLeadingModuleTags (text : List Char) : List Char :=
  let out := trimCopy text
  if out = [] ∨ isEspNowStructuredLine out then out else stripTags out

/-- What `printLine` prints of a text. -/
def normalizeOutputTag (text : List Char) : List Char :=
  let s := trimCopy text
  if s = [] then s
  else if isEspNowStructuredLine s then s
  else
    let stripped := stripLeadingModuleTags s
    if stripped ≠ [] then stripped else s

variable {text : List Char}

theorem stripTags_of_head (h : text.head? ≠ some '[') : stripTags text = text := by
  unfold stripTags
  split
  · exact absurd rfl h
  · rfl

/-- A text with nothing to take off is printed as it is. -/
theorem normalizeOutputTag_eq (htrim : trimCopy text = text) (hhead : text.head? ≠ some '[') :
    normalizeOutputTag text = text := by
  have hstrip : stripLeadingModuleTags text = text := by
    unfold stripLeadingModuleTags
    dsimp only
    rw [htrim, stripTags_of_head hhead, ite_self]
  unfold normalizeOutputTag
  dsimp only
  rw [htrim, hstrip]
  simp only [ite_self]

end BallyDongle.ShellCommandSupport
