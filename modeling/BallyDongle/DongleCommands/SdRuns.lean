import BallyDongle.DongleCommands.SdFiles
import BallyDongle.DongleSdCard.Tree

/-!
# Runs of the file commands

Whatever fails, the card stays a directory tree (`run_tree`), a command changes nothing
but the entry it names, and the lines written to a file are those that `run_script` runs and
`sd_cat` prints (`lines_read_back`).
-/

namespace BallyDongle.DongleCommands.SdFiles

open DongleSdCard PathTree ShellCommandSupport StringCompat

/-- No path goes through `.` or `..`. -/
def Proper (resolve : List Char → Path) : Prop :=
  ∀ text, ∀ name ∈ resolve text, name ≠ ".".toList ∧ name ≠ "..".toList

/-- The card is a tree whose names the loops do not skip. -/
structure Sound (sd : Sd) : Prop where
  tree : IsTree sd.card
  named : Named sd.card

variable {resolve : List Char → Path} {sd : Sd} {io : Io} {p : Path}

theorem Sound.sublist {sd' : Sd} (h : Sound sd) (htree : IsTree sd'.card)
    (hsub : sd'.card.Sublist sd.card) : Sound sd' :=
  ⟨htree, fun name path hmem => h.named name path ((hsub.map Prod.fst).subset hmem)⟩

theorem Sound.put (h : Sound sd) {node : Node (List Char)} {path : Path}
    (hproper : ∀ name ∈ path, name ≠ ".".toList ∧ name ≠ "..".toList)
    (hparent : hasParent sd.card path = true)
    (hnode : node = .dir ∨ sd.card.look path ≠ some .dir) :
    Sound { sd with card := sd.card.put path node } := by
  cases path with
  | nil => cases hparent
  | cons n path =>
    refine ⟨h.tree.put (of_decide_eq_true hparent) hnode, fun name q hmem => ?_⟩
    dsimp only at hmem
    rw [paths_put] at hmem
    split at hmem
    · exact h.named name q hmem
    · rw [List.mem_append, List.mem_singleton] at hmem
      rcases hmem with hold | hnew
      · exact h.named name q hold
      · rw [List.cons.injEq] at hnew
        rw [hnew.1]
        exact hproper n List.mem_cons_self

/-- What a file opened to be written is not. -/
theorem fopenWrite_some {card : Card} {fsPath : Path} {append : Bool} {content : List Char}
    (h : fopenWrite io card fsPath append = some content) :
    hasParent card fsPath = true ∧ card.look fsPath ≠ some .dir := by
  unfold fopenWrite at h
  split at h
  · cases h
  · rename_i hcan
    simp only [not_or, Bool.not_eq_true', Bool.not_eq_false] at hcan
    refine ⟨hcan.2, fun hdir => ?_⟩
    rw [hdir] at h
    cases h

theorem Sound.rm (h : Sound sd) (path : List Char) :
    Sound (wrapper_dongle_sd_rm resolve io sd path).1 := by
  unfold wrapper_dongle_sd_rm
  dsimp only
  split
  · exact h
  · split
    · exact h
    · exact h
    · split
      · exact h
      · rename_i hunlink
        have hremoved := unlink_removed h.tree hunlink
        exact h.sublist hremoved.tree hremoved.sublist

theorem Sound.mkdir (hresolve : Proper resolve) (h : Sound sd) (path : List Char) :
    Sound (wrapper_dongle_sd_mkdir resolve io sd path).1 := by
  unfold wrapper_dongle_sd_mkdir
  dsimp only
  split
  · exact h
  · split
    · exact h
    · rename_i hcan
      simp only [not_or, Bool.not_eq_true', Bool.not_eq_false] at hcan
      exact h.put (hresolve _) hcan.2.2 (.inl rfl)

theorem Sound.write (hresolve : Proper resolve) (h : Sound sd) (path text : List Char)
    (append : Bool) : Sound (writeToSdFile resolve io sd path text append).1 := by
  unfold writeToSdFile
  dsimp only
  split
  · exact h
  · split
    · exact h
    · rename_i content hopen
      obtain ⟨hparent, hfile⟩ := fopenWrite_some hopen
      exact h.put (hresolve _) hparent (.inr hfile)

theorem Sound.mountFirst (h : Sound sd) (mount : SdAttempt → Mount) (rest : List SdAttempt) :
    Sound (sd.mountFirst mount rest).2 := by
  induction rest with
  | nil => exact h
  | cons attempt rest ih =>
    unfold Sd.mountFirst
    split
    · exact ih
    · exact ⟨h.tree, h.named⟩
    · exact ⟨isTree_nil, fun _ _ hmem => by cases hmem⟩

theorem Sound.step (hresolve : Proper resolve) (h : Sound sd) (e : Io × Command) :
    Sound (step resolve sd e) := by
  obtain ⟨io, c⟩ := e
  cases c with
  | sd_rm path => exact h.rm path
  | sd_mkdir path => exact h.mkdir hresolve path
  | sd_write path text => exact h.write hresolve path text false
  | sd_append path text => exact h.write hresolve path text true
  | wipeContents =>
    obtain ⟨ok, sd', hwipe, hwiped⟩ := wipeContents_wiped io.toFaults h.tree h.named
    unfold SdFiles.step
    dsimp only
    rw [hwipe]
    exact h.sublist hwiped.tree hwiped.sublist
  | begin mount oneBitMode =>
    have hstart : Sound { sd with ready := false, oneBitMode, frequencyKHz := 0 } := ⟨h.tree, h.named⟩
    exact hstart.mountFirst mount _

theorem sound_start : Sound {} := ⟨isTree_nil, fun _ _ hmem => by cases hmem⟩

theorem run_sound (hresolve : Proper resolve) (es : List (Io × Command)) :
    Sound (es.foldl (step resolve) {}) :=
  List.foldlRecOn es (step resolve) sound_start fun _ h e _ => h.step hresolve e

/-- Whatever the commands before did and whatever failed, the card is a directory tree, and
wiping it returns, only removes, leaves a tree, and has emptied the card if it returns true after
the root was read to its end, as it does for a mounted card when no call fails. -/
theorem run_tree (hresolve : Proper resolve) (es : List (Io × Command)) (f : Faults) :
    let sd := es.foldl (step resolve) {}
    IsTree sd.card ∧ ∃ ok sd', sd.wipeContents f = some (ok, sd') ∧ Wiped f sd sd' ok := by
  have h := run_sound hresolve es
  exact ⟨h.tree, wipeContents_wiped f h.tree h.named⟩

/-- How the card's file system reads a path: case apart, what lies under the mount point. -/
def fatPath (text : List Char) : Path :=
  let names := ((text.splitOn '/').drop 2).map (·.map toLower)
  (names.filter fun name => name ≠ [] ∧ name ≠ ".".toList ∧ name ≠ "..".toList).reverse

theorem fatPath_proper : Proper fatPath := by
  intro text name hname
  have hfilter := (List.mem_filter.1 (List.mem_reverse.1 hname)).2
  exact (of_decide_eq_true hfilter).2

theorem run_tree_wiped :
    let sd := [({}, .begin (fun _ => .formatted) false), ({}, .sd_mkdir "logs".toList),
      ({ written := some 1 }, .sd_write "logs/a".toList "oi".toList)].foldl (step fatPath) {}
    let f : Faults := { remove := fun p => p = ["a".toList, "logs".toList] }
    IsTree sd.card ∧ ∃ ok sd', sd.wipeContents f = some (ok, sd') ∧ Wiped f sd sd' ok :=
  run_tree fatPath_proper _ _

/-! ## A file and its lines -/

/-- The command does not take `p` away, and what it appends to `p` reaches the card whole, if it
appends at all. A card that is mounted again is not formatted. -/
def Spares (resolve : List Char → Path) (p : Path) : Io × Command → Prop
  | (io, .sd_append path _) => target resolve path = p → io.written = none
  | (_, .sd_write path _) => target resolve path ≠ p
  | (_, .sd_rm path) => target resolve path ≠ p
  | (_, .sd_mkdir _) => True
  | (_, .wipeContents) => False
  | (_, .begin mount _) => ∀ attempt, mount attempt ≠ .formatted

def Result.isOk : Result → Bool
  | .ok _ => true
  | .error _ => false

/-- What the commands append to `p`, each that reports success. -/
def appended (resolve : List Char → Path) (p : Path) : Sd → List (Io × Command) → List (List Char)
  | _, [] => []
  | sd, e :: es =>
    (match e with
      | (io, .sd_append path text) =>
        if target resolve path = p ∧ (writeToSdFile resolve io sd path text true).2.isOk then
          [stripOuterQuotes text]
        else []
      | _ => []) ++ appended resolve p (step resolve sd e) es

/-- Texts as the lines of a file. -/
def lines (texts : List (List Char)) : List Char := texts.flatMap (· ++ ['\n'])

/-- A file that is there, whether the card is mounted or not. -/
structure Holds (sd : Sd) (p : Path) (content : List Char) : Prop where
  sound : Sound sd
  look : sd.card.look p = some (.file content)

variable {content : List Char}

theorem Holds.ne_root (h : Holds sd p content) : p ≠ [] := by
  intro hroot
  have hlook := h.look
  rw [hroot, look_root] at hlook
  cases hlook

theorem Holds.hasParent (h : Holds sd p content) : hasParent sd.card p = true := by
  cases p with
  | nil => exact absurd rfl h.ne_root
  | cons n q =>
    have hmem := mem_of_look h.ne_root h.look
    exact decide_eq_true (h.sound.tree.parent n q (mem_paths.2 ⟨_, hmem⟩))

theorem Holds.rm (h : Holds sd p content) {path : List Char} (hne : target resolve path ≠ p) :
    Holds (wrapper_dongle_sd_rm resolve io sd path).1 p content := by
  refine ⟨h.sound.rm path, ?_⟩
  unfold wrapper_dongle_sd_rm
  dsimp only
  split
  · exact h.look
  · split
    · exact h.look
    · exact h.look
    · split
      · exact h.look
      · rename_i card hunlink
        unfold unlink at hunlink
        split at hunlink
        · cases hunlink
        · cases hunlink
          rw [← h.look]
          refine look_filter h.sound.tree.nodup fun _ _ => ?_
          simpa using hne.symm

theorem Holds.mkdir (hresolve : Proper resolve) (h : Holds sd p content) (path : List Char) :
    Holds (wrapper_dongle_sd_mkdir resolve io sd path).1 p content := by
  have hsound : Sound (wrapper_dongle_sd_mkdir resolve io sd path).1 := h.sound.mkdir hresolve path
  unfold wrapper_dongle_sd_mkdir at hsound ⊢
  dsimp only at hsound ⊢
  split
  · exact h
  · split
    · exact h
    · rename_i hready hcan
      rw [if_neg hready, if_neg hcan] at hsound
      simp only [not_or, not_not] at hcan
      have hne : p ≠ target resolve path := by
        intro heq
        rw [← heq, h.look] at hcan
        cases hcan.2.1
      exact ⟨hsound, (look_put_of_ne _ _ hne).trans h.look⟩

theorem Holds.write (hresolve : Proper resolve) (h : Holds sd p content) {path text : List Char}
    {append : Bool} (hne : target resolve path ≠ p) :
    Holds (writeToSdFile resolve io sd path text append).1 p content := by
  have hsound : Sound (writeToSdFile resolve io sd path text append).1 :=
    h.sound.write hresolve path text append
  unfold writeToSdFile at hsound ⊢
  dsimp only at hsound ⊢
  split
  · exact h
  · rename_i hready
    rw [if_neg hready] at hsound
    split
    · exact h
    · rename_i old hopen
      rw [hopen] at hsound
      exact ⟨hsound, (look_put_of_ne _ _ hne.symm).trans h.look⟩

/-- A write opens the file and writes, or it fails and changes nothing. -/
theorem writeToSdFile_cases (resolve : List Char → Path) (io : Io) (sd : Sd) (path text : List Char)
    (append : Bool) :
    ((writeToSdFile resolve io sd path text append).1 = sd ∧
      (writeToSdFile resolve io sd path text append).2.isOk = false) ∨
    ∃ old, fopenWrite io sd.card (target resolve path) append = some old ∧
      (writeToSdFile resolve io sd path text append).1 =
        { sd with
          card := sd.card.put (target resolve path)
            (.file (old ++ upTo io.written (stripOuterQuotes text ++ ['\n']))) } ∧
      (writeToSdFile resolve io sd path text append).2.isOk = true := by
  unfold writeToSdFile
  dsimp only
  split
  · exact .inl ⟨rfl, rfl⟩
  · split
    · exact .inl ⟨rfl, rfl⟩
    · rename_i old hopen
      exact .inr ⟨old, hopen, rfl, rfl⟩

/-- A file that is there is appended to, if it can be opened. -/
theorem Holds.append (hresolve : Proper resolve) (h : Holds sd p content) {path text : List Char}
    (heq : target resolve path = p) (hwritten : io.written = none) :
    Holds (writeToSdFile resolve io sd path text true).1 p
      (content ++ if (writeToSdFile resolve io sd path text true).2.isOk then
        stripOuterQuotes text ++ ['\n'] else []) := by
  have hsound : Sound (writeToSdFile resolve io sd path text true).1 :=
    h.sound.write hresolve path text true
  obtain ⟨hsame, hfailed⟩ | ⟨old, hopen, hput, hok⟩ :=
    writeToSdFile_cases resolve io sd path text true
  · rw [hsame, hfailed, if_neg (by decide), List.append_nil]
    exact h
  · have hold : old = content := by
      unfold fopenWrite at hopen
      rw [heq, h.look] at hopen
      split at hopen
      · cases hopen
      · exact (Option.some.inj hopen).symm
    refine ⟨hsound, ?_⟩
    rw [hput, hok, if_pos rfl, hwritten, heq, hold]
    exact look_put h.ne_root _ _

/-- Mounted again, the card has the files it had. -/
theorem Holds.mountFirst (h : Holds sd p content) {mount : SdAttempt → Mount}
    (hmount : ∀ attempt, mount attempt ≠ .formatted) (rest : List SdAttempt) :
    Holds (sd.mountFirst mount rest).2 p content := by
  refine ⟨h.sound.mountFirst mount rest, ?_⟩
  induction rest with
  | nil => exact h.look
  | cons attempt rest ih =>
    unfold Sd.mountFirst
    cases hresult : mount attempt with
    | failed => exact ih
    | mounted => exact h.look
    | formatted => exact absurd hresult (hmount attempt)

theorem Holds.run (hresolve : Proper resolve) (h : Holds sd p content) {es : List (Io × Command)}
    (hes : ∀ e ∈ es, Spares resolve p e) :
    Holds (es.foldl (step resolve) sd) p (content ++ lines (appended resolve p sd es)) := by
  induction es generalizing sd content with
  | nil =>
    rw [appended, lines, List.flatMap_nil, List.append_nil]
    exact h
  | cons e es ih =>
    rw [List.forall_mem_cons] at hes
    obtain ⟨io, c⟩ := e
    have hspares := hes.1
    cases c with
    | sd_rm path => exact ih (h.rm hspares) hes.2
    | sd_mkdir path => exact ih (h.mkdir hresolve path) hes.2
    | sd_write path text => exact ih (h.write hresolve hspares) hes.2
    | sd_append path text =>
      rw [appended]
      by_cases heq : target resolve path = p
      · have happend : Holds (writeToSdFile resolve io sd path text true).1 p _ :=
          h.append hresolve heq (hspares heq)
        have hrest := ih happend hes.2
        rw [lines, List.flatMap_append, ← lines, ← lines, ← List.append_assoc]
        split at hrest <;> rename_i hok
        · rw [if_pos ⟨heq, hok⟩, lines, List.flatMap_cons, List.flatMap_nil, List.append_nil]
          exact hrest
        · rw [if_neg fun hboth => hok hboth.2, lines, List.flatMap_nil]
          exact hrest
      · rw [if_neg fun hboth => heq hboth.1]
        exact ih (h.write hresolve heq) hes.2
    | wipeContents => exact absurd hspares id
    | begin mount oneBitMode =>
      have hstart : Holds { sd with ready := false, oneBitMode, frequencyKHz := 0 } p content :=
        ⟨⟨h.sound.tree, h.sound.named⟩, h.look⟩
      exact ih (hstart.mountFirst hspares _) hes.2

/-- A write that reports success and reaches the card whole. -/
theorem Sound.written (hresolve : Proper resolve) (h : Sound sd) {path text : List Char}
    (hok : (writeToSdFile resolve io sd path text false).2.isOk = true)
    (hwritten : io.written = none) :
    Holds (writeToSdFile resolve io sd path text false).1 (target resolve path)
      (lines [stripOuterQuotes text]) := by
  have hsound : Sound (writeToSdFile resolve io sd path text false).1 :=
    h.write hresolve path text false
  obtain ⟨-, hfailed⟩ | ⟨old, hopen, hput, -⟩ :=
    writeToSdFile_cases resolve io sd path text false
  · rw [hfailed] at hok
    cases hok
  · have hroot : target resolve path ≠ [] := by
      intro hroot
      have hparent := (fopenWrite_some hopen).1
      rw [hroot] at hparent
      cases hparent
    have hold : old = [] := by
      unfold fopenWrite at hopen
      split at hopen
      · cases hopen
      · split at hopen
        · cases hopen
          rfl
        · cases hopen
        · cases hopen
          rfl
    refine ⟨hsound, ?_⟩
    rw [hput, hold, hwritten, lines, List.flatMap_cons, List.flatMap_nil, List.append_nil]
    exact look_put hroot _ _

/-! ## What is read back -/

theorem pieces_line {rawLine text : List Char} {error : Bool} (rest : List Char)
    (hline : '\n' ∉ text) (hlen : rawLine.length + text.length ≤ 254) :
    pieces error rawLine (text ++ '\n' :: rest) = (rawLine ++ text ++ ['\n']) :: pieces error [] rest := by
  induction text generalizing rawLine with
  | nil =>
    rw [List.nil_append, pieces, if_pos (.inl rfl), List.append_nil]
  | cons c text ih =>
    rw [List.mem_cons, not_or] at hline
    rw [List.length_cons] at hlen
    rw [List.cons_append, pieces, if_neg, ih hline.2]
    · simp
    · rw [List.length_append, List.length_singleton]
      omega
    · rintro (heq | hfull)
      · exact hline.1 heq.symm
      · omega

theorem pieces_lines {texts : List (List Char)} (error : Bool)
    (h : ∀ text ∈ texts, '\n' ∉ text ∧ text.length ≤ 254) :
    pieces error [] (lines texts) = texts.map (· ++ ['\n']) := by
  induction texts with
  | nil =>
    rw [lines, List.flatMap_nil, pieces, if_pos (.inl rfl)]
    rfl
  | cons text texts ih =>
    rw [List.forall_mem_cons] at h
    rw [lines, List.flatMap_cons, List.append_assoc, List.singleton_append,
      pieces_line _ h.1.1 (by rw [List.length_nil]; omega), List.map_cons]
    rw [← lines, ih h.2]
    rfl

theorem trimCopy_space {text : List Char} {c : Char} (h : Numeral.isSpace c = true) :
    trimCopy (text ++ [c]) = trimCopy text := by
  unfold trimCopy
  rw [List.dropWhile_append]
  split
  · rename_i hall
    rw [List.isEmpty_iff] at hall
    rw [hall, List.dropWhile_cons_of_pos h]
    rfl
  · rw [List.reverse_append, List.reverse_singleton, List.singleton_append,
      List.dropWhile_cons_of_pos h]

/-- The end of the line is no part of the command. -/
theorem commandLine_line (text : List Char) : commandLine (text ++ ['\n']) = commandLine text := by
  have hcut : cStr (text ++ ['\n']) = cStr text ∨ cStr (text ++ ['\n']) = cStr text ++ ['\n'] := by
    unfold cStr
    rw [List.takeWhile_append]
    split
    · rename_i hall
      right
      rw [(List.takeWhile_prefix (· != '\x00')).eq_of_length hall]
      rfl
    · exact .inl rfl
  unfold commandLine
  rcases hcut with heq | heq
  · rw [heq]
  · rw [heq, trimCopy_space (by decide)]

theorem catLines_line {printed : Nat} {lineBuffer text : List Char} (rest : List Char)
    (hline : '\n' ∉ text ∧ '\r' ∉ text) (hroom : printed + text.length < kMaxPrintBytes) :
    catLines printed lineBuffer (text ++ '\n' :: rest) =
      (lineBuffer ++ text) :: catLines (printed + (text.length + 1)) [] rest := by
  induction text generalizing printed lineBuffer with
  | nil =>
    rw [List.length_nil] at hroom ⊢
    rw [List.nil_append, catLines, if_neg (by omega), if_pos rfl, List.append_nil]
  | cons c text ih =>
    rw [List.mem_cons, List.mem_cons, not_or, not_or] at hline
    rw [List.length_cons] at hroom ⊢
    rw [List.cons_append, catLines, if_neg (by omega), if_neg (Ne.symm hline.1.1),
      if_pos (Ne.symm hline.2.1), ih ⟨hline.1.2, hline.2.2⟩ (by omega)]
    rw [List.append_assoc, List.singleton_append, Nat.add_right_comm printed 1, Nat.add_assoc]

theorem catLines_lines {texts : List (List Char)} {printed : Nat}
    (h : ∀ text ∈ texts, '\n' ∉ text ∧ '\r' ∉ text)
    (hroom : printed + (lines texts).length ≤ kMaxPrintBytes) :
    catLines printed [] (lines texts) = texts := by
  induction texts generalizing printed with
  | nil =>
    rw [lines, List.flatMap_nil, catLines, if_pos rfl]
  | cons text texts ih =>
    rw [List.forall_mem_cons] at h
    have hsplit : lines (text :: texts) = text ++ '\n' :: lines texts := by
      rw [lines, List.flatMap_cons, List.append_assoc, List.singleton_append]
      rfl
    rw [hsplit, List.length_append, List.length_cons] at hroom
    rw [hsplit, catLines_line _ h.1 (by omega), ih h.2 (by omega), List.nil_append]

theorem fopenRead_holds (h : Holds sd p content) (hstat : io.stat p = false)
    (hopen : io.fopen = false) : fopenRead io sd p = some content := by
  unfold fopenRead stat
  rw [if_neg (by rw [hstat]; decide), h.look]
  exact if_neg (by rw [hopen]; decide)

/-- The lines that `sd_write` and `sd_append` put into a file are, in order, those that
`run_script` gives to the shell, without the empty ones and the comments, and those `sd_cat`
prints, as `printLine` prints a text, whatever is done to other files in between and however often
the card is mounted again. -/
theorem lines_read_back (hresolve : Proper resolve) (before after : List (Io × Command)) (io io' : Io)
    (path text : List Char)
    (hok : (writeToSdFile resolve io (before.foldl (step resolve) {}) path text false).2.isOk = true)
    (hwritten : io.written = none)
    (hafter : ∀ e ∈ after, Spares resolve (target resolve path) e)
    (hready : ((before ++ (io, .sd_write path text) :: after).foldl (step resolve) {}).ready = true)
    (hstat : io'.stat (target resolve path) = false) (hopen : io'.fopen = false)
    (hread : io'.read = none) :
    let sd := (before ++ (io, .sd_write path text) :: after).foldl (step resolve) {}
    let texts := stripOuterQuotes text :: appended resolve (target resolve path)
      (writeToSdFile resolve io (before.foldl (step resolve) {}) path text false).1 after
    ((∀ text ∈ texts, '\n' ∉ text ∧ text.length ≤ 254) →
        (wrapper_dongle_run_script resolve io' true sd path).2 = texts.filterMap commandLine) ∧
      ((∀ text ∈ texts, '\n' ∉ text ∧ '\r' ∉ text) → (lines texts).length ≤ kMaxPrintBytes →
        ∃ header, wrapper_dongle_sd_cat resolve io' sd path =
          .ok (header :: texts.map normalizeOutputTag)) ∧
      ∀ text ∈ texts, trimCopy text = text → text.head? ≠ some '[' →
        normalizeOutputTag text = text := by
  have hstart := (run_sound hresolve before).written hresolve hok hwritten
  have hrun := hstart.run hresolve hafter
  intro sd texts
  have hlines : lines [stripOuterQuotes text] ++ lines (appended resolve (target resolve path)
      (writeToSdFile resolve io (before.foldl (step resolve) {}) path text false).1 after) =
      lines texts := by
    rw [lines, lines, ← List.flatMap_append]
    rfl
  rw [hlines] at hrun
  have hholds : Holds sd (target resolve path) (lines texts) := by
    show Holds (List.foldl _ _ _) _ _
    rw [List.foldl_append, List.foldl_cons]
    exact hrun
  have hfile := fopenRead_holds hholds hstat hopen
  have hmounted : (!sd.ready) = false := by
    rw [hready]
    rfl
  refine ⟨fun htexts => ?_, fun htexts hroom => ?_, fun _ _ => normalizeOutputTag_eq⟩
  · unfold wrapper_dongle_run_script
    dsimp only
    rw [hmounted, hfile, hread, if_neg (by decide), if_neg (by decide)]
    dsimp only [upTo]
    rw [pieces_lines _ htexts, List.filterMap_map]
    exact List.filterMap_congr fun text _ => commandLine_line text
  · unfold wrapper_dongle_sd_cat
    dsimp only
    rw [hmounted, hfile, hread, if_neg (by decide)]
    dsimp only [upTo]
    rw [catLines_lines htexts (by omega)]
    exact ⟨_, rfl⟩

/-- The card is mounted again in between, and one append fails. -/
theorem lines_read_back_script :
    let before : List (Io × Command) := [({}, .begin (fun _ => .mounted) false)]
    let after : List (Io × Command) := [({ fopen := true }, .sd_write "b".toList "x".toList),
      ({}, .sd_append "boot.txt".toList "# fim".toList),
      ({ fopen := true }, .sd_append "boot.txt".toList "dongle -info".toList),
      ({}, .begin (fun _ => .mounted) true),
      ({}, .sd_append "boot.txt".toList "hub -list".toList)]
    let sd := (before ++ ({}, .sd_write "/Boot.txt".toList "\x22dongle -ping\x22".toList) :: after).foldl
      (step fatPath) {}
    (wrapper_dongle_run_script fatPath {} true sd "/Boot.txt".toList).2 =
        ["dongle -ping".toList, "hub -list".toList] ∧
      ∃ header, wrapper_dongle_sd_cat fatPath {} sd "/Boot.txt".toList =
        .ok [header, "dongle -ping".toList, "# fim".toList, "hub -list".toList] := by
  intro before after
  have hother : target fatPath "b".toList ≠ target fatPath "/Boot.txt".toList := by decide
  have hafter : ∀ e ∈ after, Spares fatPath (target fatPath "/Boot.txt".toList) e := by
    rw [List.forall_mem_cons, List.forall_mem_cons, List.forall_mem_cons, List.forall_mem_cons,
      List.forall_mem_singleton]
    exact ⟨hother, fun _ => rfl, fun _ => rfl, fun _ => nofun, fun _ => rfl⟩
  obtain ⟨hscript, hcat, hplain⟩ := lines_read_back fatPath_proper before after {} {}
    "/Boot.txt".toList "\x22dongle -ping\x22".toList rfl rfl hafter (by decide) rfl rfl rfl
  refine ⟨hscript (by decide), ?_⟩
  obtain ⟨header, hcat⟩ := hcat (by decide) (by decide)
  refine ⟨header, hcat.trans ?_⟩
  have hmap := List.map_congr_left fun text hmem =>
    hplain text hmem ((by decide : ∀ text ∈ _, trimCopy text = text) text hmem)
      ((by decide : ∀ text ∈ _, text.head? ≠ some '[') text hmem)
  rw [hmap, List.map_id']
  rfl

end BallyDongle.DongleCommands.SdFiles
