import BallyDongle.DongleSdCard
import BallyDongle.ShellCommandSupport.PrintLine

/-!
# Files from the shell

The `sd_` commands and `run_script` of `DongleCommands.cpp`. `resolve` stands for the file
system's reading of a path: names up to case, without empty ones.
-/

namespace BallyDongle.DongleCommands.SdFiles

open DongleSdCard PathTree ShellCommandSupport StringCompat

inductive Code
  | SD_NOT_READY | SD_PATH_NOT_FOUND | SD_PATH_IS_DIRECTORY | SD_FILE_REMOVE_FAILED
  | SD_MKDIR_FAILED | SD_FILE_WRITE_FAILED | SHELL_NOT_READY
  deriving DecidableEq

/-- What a command fails with, or the lines it prints. -/
abbrev Result := Except (Code × List Char) (List (List Char))

/-- One `printLine` after the other. -/
def printLines (texts : List (List Char)) : Result := .ok (texts.map normalizeOutputTag)

/-- What fails while one command runs. Of a write the first octets may reach the card, and a read may
end early. -/
structure Io extends Faults where
  mkdir : Bool := false
  fopen : Bool := false
  written : Option Nat := none
  read : Option Nat := none

def upTo (n : Option Nat) (octets : List Char) : List Char :=
  match n with
  | none => octets
  | some n => octets.take n

def normalizeSdPath (rawPath : List Char) : List Char :=
  let cleanPath := stripOuterQuotes rawPath
  if cleanPath = [] then "/".toList
  else if cleanPath.head? ≠ some '/' then '/' :: cleanPath
  else cleanPath

def kMountPoint : List Char := "/sdcard".toList

def toFsPath (cleanPath : List Char) : List Char :=
  if cleanPath = "/".toList then kMountPoint else kMountPoint ++ cleanPath

variable (resolve : List Char → Path)

/-- The entry a path argument names. -/
def target (rawPath : List Char) : Path := resolve (toFsPath (normalizeSdPath rawPath))

def notReady : Result := .error (.SD_NOT_READY, "SD nao inicializado".toList)

/-- The directory an entry lies in is there. -/
def hasParent (card : Card) : Path → Bool
  | [] => false
  | _ :: path => decide (card.look path = some .dir)

def wrapper_dongle_sd_rm (io : Io) (sd : Sd) (path : List Char) : Sd × Result :=
  let cleanPath := normalizeSdPath path
  let fsPath := target resolve path
  if !sd.ready then (sd, notReady)
  else
    match stat io.toFaults sd.card fsPath with
    | none => (sd, .error (.SD_PATH_NOT_FOUND, "arquivo nao encontrado: ".toList ++ cleanPath))
    | some .dir =>
      (sd, .error (.SD_PATH_IS_DIRECTORY,
        "sd_rm so remove arquivos; use dongle -sd_wipe para limpar tudo".toList))
    | some (.file _) =>
      match unlink sd.card (io.remove fsPath) fsPath with
      | (false, _) => (sd, .error (.SD_FILE_REMOVE_FAILED, "falha ao remover ".toList ++ cleanPath))
      | (true, card) => ({ sd with card }, printLines ["[sd] removido: ".toList ++ cleanPath])

def wrapper_dongle_sd_mkdir (io : Io) (sd : Sd) (path : List Char) : Sd × Result :=
  let cleanPath := normalizeSdPath path
  let fsPath := target resolve path
  if !sd.ready then (sd, notReady)
  else if io.mkdir ∨ sd.card.look fsPath ≠ none ∨ !hasParent sd.card fsPath then
    (sd, .error (.SD_MKDIR_FAILED, "falha ao criar diretorio ".toList ++ cleanPath))
  else
    ({ sd with card := sd.card.put fsPath .dir },
      printLines ["[sd] diretorio criado: ".toList ++ cleanPath])

/-- What a file opened to be written holds at first: nothing, or its octets when appending. -/
def fopenWrite (io : Io) (card : Card) (fsPath : Path) (append : Bool) : Option (List Char) :=
  if io.fopen ∨ !hasParent card fsPath then none
  else
    match card.look fsPath with
    | none => some []
    | some .dir => none
    | some (.file content) => some (if append then content else [])

/-- The results of `fwrite` and `fputc` are not looked at. -/
def writeToSdFile (io : Io) (sd : Sd) (pathArg textArg : List Char) (append : Bool) : Sd × Result :=
  let cleanPath := normalizeSdPath pathArg
  let fsPath := target resolve pathArg
  let text := stripOuterQuotes textArg
  if !sd.ready then (sd, notReady)
  else
    match fopenWrite io sd.card fsPath append with
    | none =>
      (sd, .error (.SD_FILE_WRITE_FAILED,
        "falha ao abrir ".toList ++ cleanPath ++ " para escrita".toList))
    | some content =>
      ({ sd with card := sd.card.put fsPath (.file (content ++ upTo io.written (text ++ ['\n']))) },
        printLines
          ["[sd] ".toList ++ (if append then "anexado em " else "escrito em ").toList ++ cleanPath])

/-! ## Reading -/

/-- A file that is there and can be opened. -/
def fopenRead (io : Io) (sd : Sd) (fsPath : Path) : Option (List Char) :=
  match stat io.toFaults sd.card fsPath with
  | some (.file content) => if io.fopen then none else some content
  | _ => none

def kMaxPrintBytes : Nat := 4096

/-- The texts `sd_cat` prints of the octets still to be read, after `printed` of them. -/
def catLines (printed : Nat) (lineBuffer : List Char) : List Char → List (List Char)
  | [] => if lineBuffer = [] then [] else [lineBuffer]
  | ch :: rest =>
    if kMaxPrintBytes ≤ printed then
      (if lineBuffer = [] then [] else [lineBuffer]) ++
        ["[sd] ... truncado (mostrando so os primeiros 4KB) ...".toList]
    else if ch = '\n' then lineBuffer :: catLines (printed + 1) [] rest
    else if ch ≠ '\r' then catLines (printed + 1) (lineBuffer ++ [ch]) rest
    else catLines (printed + 1) lineBuffer rest

def wrapper_dongle_sd_cat (io : Io) (sd : Sd) (path : List Char) : Result :=
  let cleanPath := normalizeSdPath path
  if !sd.ready then notReady
  else
    match fopenRead io sd (target resolve path) with
    | none => .error (.SD_PATH_NOT_FOUND, "arquivo nao encontrado: ".toList ++ cleanPath)
    | some content =>
      printLines (("[sd] ".toList ++ cleanPath ++ " (".toList ++ Nat.toDigits 10 content.length ++
        "B)".toList).take 95 :: catLines 0 [] (upTo io.read content))

/-- What `fgets` hands out, 255 octets at most or up to the end of the line; `rawLine` is what has been read
of the next piece, which an error loses. -/
def pieces (error : Bool) (rawLine : List Char) : List Char → List (List Char)
  | [] => if rawLine = [] ∨ error then [] else [rawLine]
  | ch :: rest =>
    if ch = '\n' ∨ rawLine.length + 1 = 255 then (rawLine ++ [ch]) :: pieces error [] rest
    else pieces error (rawLine ++ [ch]) rest

/-- The line to be run of a piece, or nothing for an empty line or a comment. -/
def commandLine (rawLine : List Char) : Option (List Char) :=
  let line := trimCopy (cStr rawLine)
  if line = [] ∨ line.head? = some '#' then none else some line

/-- What is printed, and the lines given to the shell in between. -/
def wrapper_dongle_run_script (io : Io) (shell : Bool) (sd : Sd) (path : List Char) :
    Result × List (List Char) :=
  let cleanPath := normalizeSdPath path
  if !sd.ready then (notReady, [])
  else if !shell then
    (.error (.SHELL_NOT_READY, "shell nao configurada para rodar script".toList), [])
  else
    match fopenRead io sd (target resolve path) with
    | none => (.error (.SD_PATH_NOT_FOUND, "script nao encontrado: ".toList ++ cleanPath), [])
    | some content =>
      let rawLines := pieces io.read.isSome [] (upTo io.read content)
      let executed := rawLines.filterMap commandLine
      (printLines ["[dongle] executando script: ".toList ++ cleanPath,
        "[dongle] script concluido: ".toList ++ Nat.toDigits 10 executed.length ++
          " comando(s), ".toList ++ Nat.toDigits 10 (rawLines.length - executed.length) ++
          " linha(s) ignorada(s)".toList],
        executed)

/-! ## Runs -/

/-- What changes the card or its mount. -/
inductive Command
  | sd_rm (path : List Char)
  | sd_mkdir (path : List Char)
  | sd_write (path text : List Char)
  | sd_append (path text : List Char)
  | wipeContents
  | begin (mount : SdAttempt → Mount) (oneBitMode : Bool)

def step (sd : Sd) : Io × Command → Sd
  | (io, .sd_rm path) => (wrapper_dongle_sd_rm resolve io sd path).1
  | (io, .sd_mkdir path) => (wrapper_dongle_sd_mkdir resolve io sd path).1
  | (io, .sd_write path text) => (writeToSdFile resolve io sd path text false).1
  | (io, .sd_append path text) => (writeToSdFile resolve io sd path text true).1
  | (io, .wipeContents) => ((sd.wipeContents io.toFaults).map Prod.snd).getD sd
  | (_, .begin mount oneBitMode) => (sd.begin mount oneBitMode).2

end BallyDongle.DongleCommands.SdFiles
