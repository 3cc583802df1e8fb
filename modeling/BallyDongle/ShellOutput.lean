import BallyDongle.StringCompat

/-!
# Shell output

`ShellOutput.cpp` shows a response in two ways: `printResponse` writes it to a port, line
by line, and `renderResponse` builds it as one string. Without colour, and on a port that
takes what it is given, both show the same octets (`printResponse_eq_render`).
-/

namespace BallyDongle.ShellOutput

open StringCompat

def kCommandPrefix : List Char := "$ ".toList
def kOutputPrefix : List Char := "! ".toList

/-! ## Lines -/

def isEspNowTypeToken (token : List Char) : Bool :=
  ["info", "cmd", "cmdo", "telemetry", "tele", "error", "erro", "debug", "debg", "pakg", "none"].any
    fun name => equalsIgnoreCase token name.toList

/-- `[type][` begins the line. -/
def isEspNowStructuredLine (line : List Char) : Bool :=
  let lower := trim line
  if !startsWith lower "[".toList then false
  else
    match indexOf lower ']' with
    | none => false
    | some firstClose =>
      if firstClose ≤ 1 then false
      else if !isEspNowTypeToken ((lower.drop 1).take (firstClose - 1)) then false
      else lower[firstClose + 1]? == some '['

/-- The loop of `stripLeadingBracketTags`: one `[tag]` after the other. -/
def stripTags (out : List Char) : List Char :=
  if startsWith out "[".toList then
    match _ : indexOf out ']' with
    | none => out
    | some close => if close = 0 then out else stripTags (trim (out.drop (close + 1)))
  else out
termination_by out.length
decreasing_by
  have hlt : close < out.length := (List.findIdx?_eq_some_iff_findIdx_eq.1 ‹_›).1
  have hle := ShellCommandSupport.length_trimCopy_le (out.drop (close + 1))
  rw [List.length_drop] at hle
  show (ShellCommandSupport.trimCopy _).length < _
  omega

def stripLeadingBracketTags (input : List Char) : List Char :=
  let out := trim input
  if isEspNowStructuredLine out then out else stripTags out

def hasVisualPrefix (line : List Char) : Bool :=
  startsWith line kOutputPrefix || startsWith line kCommandPrefix || isEspNowStructuredLine line

/-- The lines that the loops over `start` cut a text into. -/
def linesOf (text : List Char) : List (List Char) :=
  match _ : indexOf text '\n' with
  | none => [text]
  | some newline => text.take newline :: linesOf (text.drop (newline + 1))
termination_by text.length
decreasing_by
  have hlt : newline < text.length := (List.findIdx?_eq_some_iff_findIdx_eq.1 ‹_›).1
  rw [List.length_drop]
  omega

/-! ## The port -/

/-- `ByteIO`, as a writer sees it: how many of the bytes offered a call takes. -/
structure ByteIO where
  State : Type
  write : State → (data : List Char) → State × Nat

/-- The port takes some of what it is offered, whenever it is offered something. -/
def ByteIO.Accepts (io : ByteIO) : Prop :=
  ∀ state data, data ≠ [] → 1 ≤ (io.write state data).2 ∧ (io.write state data).2 ≤ data.length

/-- A port, and all it has taken. -/
structure Port (io : ByteIO) where
  state : io.State
  out : List Char := []

section port

variable {io : ByteIO}

def Port.write (port : Port io) (data : List Char) : Port io × Nat :=
  let (state, sent) := io.write port.state data
  ({ state, out := port.out ++ data.take sent }, sent)

def Port.put (port : Port io) (byte : Char) : Port io := (port.write [byte]).1

/-- The loop of `writeChunk`, with what remains of the bytes. -/
def writeChunk (port : Port io) (retries : Nat) (bytes : List Char) : Port io :=
  if _ : bytes = [] then port
  else
    let next := port.write bytes
    if _ : next.2 = 0 then
      if 8 < retries + 1 then next.1 else writeChunk next.1 (retries + 1) bytes
    else writeChunk next.1 retries (bytes.drop next.2)
termination_by (bytes.length, 9 - retries)
decreasing_by
  · exact .right _ (by omega)
  · refine .left _ _ ?_
    have hpos := List.length_pos_of_ne_nil ‹bytes ≠ []›
    have hsent : ¬(port.write bytes).2 = 0 := ‹_›
    rw [List.length_drop]
    omega

def writePrefix (pre : List Char) (port : Port io) : Port io :=
  if pre = [] then port else writeChunk port 0 pre

/-- The loop of `writeTextWithPrefix`, and whether it leaves a line open. -/
def writeBody (pre : List Char) (port : Port io) (lineOpen : Bool) : List Char → Port io × Bool
  | [] => (port, lineOpen)
  | '\r' :: '\n' :: rest =>
    let port := (port.put '\r').put '\n'
    if rest = [] then (port, false) else writeBody pre (writePrefix pre (port.put '\r')) true rest
  | ch :: rest =>
    if ch = '\x00' then (port, lineOpen)
    else if ch = '\r' ∨ ch = '\n' then
      let port := (port.put '\r').put '\n'
      if rest = [] then (port, false) else writeBody pre (writePrefix pre (port.put '\r')) true rest
    else writeBody pre (port.put ch) lineOpen rest

def writeTextWithPrefix (port : Port io) (pre text : List Char) (prefixEmptyLine : Bool) :
    Port io :=
  if text = [] then
    let port :=
      if pre ≠ [] ∧ prefixEmptyLine then writeChunk (port.put '\r') 0 pre else port
    (port.put '\r').put '\n'
  else
    let (port, lineOpen) := writeBody pre (writePrefix pre (port.put '\r')) true text
    if lineOpen then (port.put '\r').put '\n' else port

def writeRawLine (port : Port io) (line : List Char) : Port io :=
  writeTextWithPrefix port [] (cStr line) false

def writeLine (port : Port io) (line : List Char) : Port io :=
  let safeLine := cStr line
  if safeLine = [] then writeTextWithPrefix port kOutputPrefix safeLine true
  else if hasVisualPrefix safeLine then writeTextWithPrefix port [] safeLine false
  else writeTextWithPrefix port kOutputPrefix safeLine true

end port

/-! ## A response -/

/-- How both functions begin. -/
def normalizeResponse (response : List Char) : List Char :=
  trim (replaceAll (replaceAll response "\r\n".toList "\n".toList) "\r".toList "\n".toList)

/-- What `printResponse` does with a line. -/
def printLine {io : ByteIO} (port : Port io) (line : List Char) : Port io :=
  let line := trim line
  if line = [] then port
  else if isEspNowStructuredLine line then writeRawLine port line
  else
    let cleanLine := stripLeadingBracketTags line
    if cleanLine = [] then port else writeLine port cleanLine

def printResponse {io : ByteIO} (port : Port io) (response : List Char) : Port io :=
  let text := normalizeResponse response
  if text = [] then port else (linesOf text).foldl printLine port

/-- `ShellStyle.h`: the colour of a line, by its class. -/
structure ShellStyle where
  MsgClass : Type
  output : MsgClass
  shellColorEnabled : Bool
  shellStripSgr : List Char → List Char
  shellClassifyLine : List Char → MsgClass
  shellSgr : MsgClass → List Char
  shellSgrReset : List Char

/-- Built without colour: a line of output has no SGR sequence around it. -/
structure ShellStyle.Plain (style : ShellStyle) : Prop where
  disabled : style.shellColorEnabled = false
  output : style.shellSgr style.output = []

section render

variable (style : ShellStyle)

def appendLineWithPrefix (out pre line : List Char) (cls : style.MsgClass) : List Char :=
  let sgr := style.shellSgr cls
  out ++ ['\r'] ++ sgr ++ pre ++ line ++ (if sgr = [] then [] else style.shellSgrReset) ++
    ['\r', '\n']

/-- What `renderResponse` does with a line. -/
def renderLine (out line : List Char) : List Char :=
  let line := trim line
  if line = [] then out
  else
    let cls := if style.shellColorEnabled then style.shellClassifyLine line else style.output
    if isEspNowStructuredLine line then appendLineWithPrefix style out [] line cls
    else
      let cleanLine := stripLeadingBracketTags line
      if cleanLine = [] then out
      else
        appendLineWithPrefix style out
          (if hasVisualPrefix (cStr cleanLine) then [] else kOutputPrefix) cleanLine cls

def renderResponse (response : List Char) : List Char :=
  let text :=
    normalizeResponse (if style.shellColorEnabled then style.shellStripSgr response else response)
  if text = [] then [] else (linesOf text).foldl (renderLine style) []

end render

/-! ## What a port takes -/

section port

variable {io : ByteIO} {port : Port io}

theorem write_out (port : Port io) (data : List Char) :
    (port.write data).1.out = port.out ++ data.take (port.write data).2 := rfl

theorem put_out (h : io.Accepts) (port : Port io) (byte : Char) :
    (port.put byte).out = port.out ++ [byte] := by
  obtain ⟨hpos, hle⟩ := h port.state [byte] (List.cons_ne_nil _ _)
  rw [Port.put, write_out]
  show port.out ++ [byte].take (io.write port.state [byte]).2 = _
  rw [List.length_singleton] at hle
  rw [show (io.write port.state [byte]).2 = 1 by omega]
  rfl

/-- A port that takes something takes all of it in the end. -/
theorem writeChunk_out (h : io.Accepts) (port : Port io) (retries : Nat) (bytes : List Char) :
    (writeChunk port retries bytes).out = port.out ++ bytes := by
  induction port, retries, bytes using writeChunk.induct with
  | case1 port retries => simp [writeChunk]
  | case2 port retries bytes hne next hzero _ =>
    have hpos := (h port.state bytes hne).1
    exact absurd hzero (Nat.ne_of_gt hpos)
  | case3 port retries bytes hne next hzero _ _ =>
    have hpos := (h port.state bytes hne).1
    exact absurd hzero (Nat.ne_of_gt hpos)
  | case4 port retries bytes hne next hsent ih =>
    rw [writeChunk, dif_neg hne]
    dsimp only
    rw [dif_neg hsent, ih, write_out, List.append_assoc, List.take_append_drop]

theorem writePrefix_out (h : io.Accepts) (pre : List Char) (port : Port io) :
    (writePrefix pre port).out = port.out ++ pre := by
  rw [writePrefix]
  split
  · rename_i hnil
    rw [hnil, List.append_nil]
  · exact writeChunk_out h port 0 pre

/-- A single line of text. -/
structure OneLine (text : List Char) : Prop where
  cr : '\r' ∉ text
  lf : '\n' ∉ text
  nul : '\x00' ∉ text

theorem OneLine.tail {c : Char} {text : List Char} (h : OneLine (c :: text)) : OneLine text :=
  ⟨fun hc => h.cr (.tail _ hc), fun hc => h.lf (.tail _ hc), fun hc => h.nul (.tail _ hc)⟩

theorem writeBody_line (h : io.Accepts) (pre : List Char) {text : List Char} (ht : OneLine text)
    (port : Port io) (lineOpen : Bool) :
    (writeBody pre port lineOpen text).1.out = port.out ++ text ∧
      (writeBody pre port lineOpen text).2 = lineOpen := by
  induction text generalizing port with
  | nil => exact ⟨(List.append_nil _).symm, rfl⟩
  | cons c text ih =>
    have hcr : c ≠ '\r' := fun heq => ht.cr (heq ▸ .head _)
    have hlf : c ≠ '\n' := fun heq => ht.lf (heq ▸ .head _)
    have hnul : c ≠ '\x00' := fun heq => ht.nul (heq ▸ .head _)
    have hstep : writeBody pre port lineOpen (c :: text) =
        writeBody pre (port.put c) lineOpen text := by
      rw [writeBody, if_neg hnul, if_neg (not_or.2 ⟨hcr, hlf⟩)]
      intro rest heq
      exact absurd heq hcr
    obtain ⟨hout, hopen⟩ := ih ht.tail (port.put c)
    rw [hstep]
    refine ⟨?_, hopen⟩
    rw [hout, put_out h, List.append_assoc, List.singleton_append]

/-- A line that is written: its prefix, its text, and what ends it. -/
theorem writeText_line (h : io.Accepts) (port : Port io) (pre : List Char) {text : List Char}
    (ht : OneLine text) (hne : text ≠ []) (prefixEmptyLine : Bool) :
    (writeTextWithPrefix port pre text prefixEmptyLine).out =
      port.out ++ ['\r'] ++ pre ++ text ++ ['\r', '\n'] := by
  obtain ⟨hout, hopen⟩ := writeBody_line h pre ht (writePrefix pre (port.put '\r')) true
  rw [writeTextWithPrefix, if_neg hne]
  dsimp only
  rw [hopen, if_pos rfl, put_out h, put_out h, hout, writePrefix_out h, put_out h]
  simp only [List.append_assoc, List.cons_append, List.nil_append]

end port

/-! ## The lines of a response -/

section lines

variable {text line : List Char} {c : Char}

theorem mem_stripTags (h : c ∈ stripTags text) : c ∈ text := by
  induction text using stripTags.induct with
  | case1 out hopen hnone => rwa [stripTags, if_pos hopen, hnone] at h
  | case2 out hopen hclose =>
    rw [stripTags, if_pos hopen, hclose] at h
    exact h
  | case3 out hopen close hclose hne ih =>
    rw [stripTags, if_pos hopen, hclose] at h
    dsimp only at h
    rw [if_neg hne] at h
    exact List.mem_of_mem_drop (mem_of_mem_trim (ih h))
  | case4 out hopen => rwa [stripTags, if_neg hopen] at h

theorem mem_stripLeadingBracketTags (h : c ∈ stripLeadingBracketTags text) : c ∈ text := by
  rw [stripLeadingBracketTags] at h
  split at h
  · exact mem_of_mem_trim h
  · exact mem_of_mem_trim (mem_stripTags h)

theorem notMem_take_indexOf {newline : Nat} (h : indexOf text c = some newline) :
    c ∉ text.take newline := by
  intro hmem
  obtain ⟨i, hi, hget⟩ := List.mem_take_iff_getElem.1 hmem
  have hfirst := (List.findIdx?_eq_some_iff_getElem.1 h).2.2 i (by omega)
  rw [hget] at hfirst
  exact hfirst (beq_self_eq_true c)

/-- The lines of a text are made of its characters, without the ends of lines. -/
theorem mem_linesOf (h : line ∈ linesOf text) : (∀ c ∈ line, c ∈ text) ∧ '\n' ∉ line := by
  induction text using linesOf.induct with
  | case1 text hnone =>
    rw [linesOf, hnone] at h
    rw [List.mem_singleton.1 h]
    refine ⟨fun _ hc => hc, fun hmem => ?_⟩
    have hall := List.findIdx?_eq_none_iff.1 hnone '\n' hmem
    simp at hall
  | case2 text newline hnewline ih =>
    rw [linesOf, hnewline] at h
    rcases List.mem_cons.1 h with rfl | hrest
    · exact ⟨fun _ hc => List.mem_of_mem_take hc, notMem_take_indexOf hnewline⟩
    · obtain ⟨hsub, hlf⟩ := ih hrest
      exact ⟨fun c hc => List.mem_of_mem_drop (hsub c hc), hlf⟩

/-- Neither end of line is left in a response once its lines are cut. -/
theorem oneLine_of_response {response : List Char} (hnul : '\x00' ∉ response)
    (h : line ∈ linesOf (normalizeResponse response)) : OneLine line := by
  obtain ⟨hsub, hlf⟩ := mem_linesOf h
  refine ⟨fun hc => ?_, hlf, fun hc => ?_⟩
  · refine notMem_replaceAll_singleton ?_ (mem_of_mem_trim (hsub _ hc))
    decide
  · rcases mem_of_mem_replaceAll (mem_of_mem_trim (hsub _ hc)) with hmem | hmem
    · rcases mem_of_mem_replaceAll hmem with hmem | hmem
      · exact hnul hmem
      · exact absurd hmem (by decide)
    · exact absurd hmem (by decide)

theorem OneLine.of_subset (h : OneLine line) (hsub : ∀ c ∈ text, c ∈ line) : OneLine text :=
  ⟨fun hc => h.cr (hsub _ hc), fun hc => h.lf (hsub _ hc), fun hc => h.nul (hsub _ hc)⟩

end lines

/-! ## Both pipelines -/

section both

variable {io : ByteIO} {style : ShellStyle} {line : List Char}

theorem writeRawLine_line (h : io.Accepts) (port : Port io) (hline : OneLine line)
    (hne : line ≠ []) :
    (writeRawLine port line).out = port.out ++ ['\r'] ++ line ++ ['\r', '\n'] := by
  rw [writeRawLine, cStr_of_notMem hline.nul, writeText_line h port [] hline hne, List.append_nil]

theorem writeLine_line (h : io.Accepts) (port : Port io) (hline : OneLine line) (hne : line ≠ []) :
    (writeLine port line).out =
      port.out ++ ['\r'] ++ (if hasVisualPrefix line then [] else kOutputPrefix) ++ line ++
        ['\r', '\n'] := by
  rw [writeLine, cStr_of_notMem hline.nul, if_neg hne]
  split <;> exact writeText_line h port _ hline hne _

theorem appendLine_plain (hplain : style.Plain) (out pre line : List Char) :
    appendLineWithPrefix style out pre line style.output =
      out ++ ['\r'] ++ pre ++ line ++ ['\r', '\n'] := by
  rw [appendLineWithPrefix, hplain.output]
  simp only [if_pos, List.append_nil]

theorem printLine_eq_render (h : io.Accepts) (hplain : style.Plain) (hline : OneLine line)
    (port : Port io) : (printLine port line).out = renderLine style port.out line := by
  have htrim : OneLine (trim line) := hline.of_subset fun _ => mem_of_mem_trim
  rw [printLine, renderLine]
  dsimp only
  rw [hplain.disabled, if_neg Bool.false_ne_true]
  split
  · rfl
  · rename_i hne
    split
    · rw [writeRawLine_line h port htrim hne, appendLine_plain hplain, List.append_nil]
    · split
      · rfl
      · rename_i hclean
        have hstrip : OneLine (stripLeadingBracketTags (trim line)) :=
          htrim.of_subset fun _ => mem_stripLeadingBracketTags
        rw [writeLine_line h port hstrip hclean, appendLine_plain hplain, cStr_of_notMem hstrip.nul]

theorem foldl_printLine (h : io.Accepts) (hplain : style.Plain) {lines : List (List Char)}
    (hlines : ∀ line ∈ lines, OneLine line) (port : Port io) :
    (lines.foldl printLine port).out = lines.foldl (renderLine style) port.out := by
  induction lines generalizing port with
  | nil => rfl
  | cons line lines ih =>
    rw [List.foldl_cons, List.foldl_cons, ih fun l hl => hlines l (.tail _ hl),
      printLine_eq_render h hplain (hlines line (.head _))]

/-- The console shows what the terminal shows. -/
theorem printResponse_eq_render (h : io.Accepts) (hplain : style.Plain) {response : List Char}
    (hnul : '\x00' ∉ response) (state : io.State) :
    (printResponse ({ state } : Port io) response).out = renderResponse style response := by
  rw [printResponse, renderResponse, hplain.disabled, if_neg Bool.false_ne_true]
  split
  · rfl
  · exact foldl_printLine h hplain (fun line => oneLine_of_response hnul) _

end both

/-- A port that takes three bytes at a time. -/
def narrowPort : ByteIO where
  State := Unit
  write _ data := ((), min 3 data.length)

def plainStyle : ShellStyle where
  MsgClass := Unit
  output := ()
  shellColorEnabled := false
  shellStripSgr text := text
  shellClassifyLine _ := ()
  shellSgr _ := []
  shellSgrReset := []

theorem printResponse_eq_render_tags :
    (printResponse ({ state := () } : Port narrowPort)
        "[help] usage\r[info][x]\r\n\n$ ls".toList).out =
      renderResponse plainStyle "[help] usage\r[info][x]\r\n\n$ ls".toList := by
  have haccepts : narrowPort.Accepts := by
    intro state data hne
    have hpos := List.length_pos_of_ne_nil hne
    simp only [narrowPort]
    omega
  exact printResponse_eq_render haccepts ⟨rfl, rfl⟩ (by decide) ()

example : renderResponse plainStyle "[help] usage\r[info][x]\r\n\n$ ls".toList =
    "\r! usage\r\n\r[info][x]\r\n\r$ ls\r\n".toList := by decide +kernel

end BallyDongle.ShellOutput
