import BallyDongle.Lib.Run
import BallyDongle.ShellConfig

/-!
# Elevation

The identity that runs a command travels through one global, which `runLine` sets before
it dispatches and the guarded commands read for their permission check. Two tasks run
lines at the same time. A guarded command takes effect for an elevated issuer as long as
no task sets the global while a check of the other is still to come (`run_authorised`).
-/

namespace BallyDongle.ShellConfig

open ShellCommandSupport

def kSudoPassword : List Char := "657585".toList

/-! ## `SudoManager` -/

def isElevated (elevatedUsers : List (List Char)) (userId : List Char) : Bool :=
  userId ∈ elevatedUsers

def elevate (elevatedUsers : List (List Char)) (userId password : List Char) :
    List (List Char) × Bool :=
  if userId = [] ∨ password = [] ∨ password ≠ kSudoPassword then (elevatedUsers, false)
  else (elevatedUsers.insert userId, true)

def revoke (elevatedUsers : List (List Char)) (userId : List Char) : List (List Char) :=
  elevatedUsers.filter fun user => user ≠ userId

/-! ## Commands -/

/-- The commands that ask for elevation first. -/
inductive Guarded
  | sdWipe
  | databaseDrop (tableName : List Char)
  | databaseRebuild
  | databaseClearLogs
  deriving DecidableEq, Repr

/-- What TinyShell calls for a line. -/
inductive Wrapper
  | guarded (command : Guarded)
  | sudoLogin (password : List Char)
  | sudoLogout
  | other (line : List Char)
  deriving DecidableEq, Repr

/-- The shell behind `runLine`: the wrappers that `run_command_line` calls for a line, in
order, or `none` where no shell is bound, and what the commands do once they run. -/
structure Commands where
  World : Type
  runCommandLine : Option (List Char → List Wrapper)
  guarded : Guarded → World → World
  other : List Char → World → World
  exec : (sql : List Char) → World → World

/-- What a wrapper printed: a line of text, or an error code with its detail. -/
inductive Output
  | line (text : List Char)
  | failed (code : Nat) (detail : List Char)
  deriving DecidableEq, Repr

def kPermissionDenied : Nat := 1004
def kSudoWrongPassword : Nat := 1005
def kInvalidArgument : Nat := 1003

def Guarded.deniedDetail : Guarded → List Char
  | .sdWipe =>
    "isso apaga TUDO do cartao SD, banco de dados incluso. Rode antes: sudo -login <senha>".toList
  | .databaseDrop tableName =>
    "isso apaga a tabela '".toList ++ stripOuterQuotes tableName ++
      "' permanentemente. Rode antes: sudo -login <senha>".toList
  | .databaseRebuild =>
    "isso apaga o banco inteiro e recria do zero. Rode antes: sudo -login <senha>".toList
  | .databaseClearLogs =>
    ("isso apaga command_log, saidas e historico de envios ESP-NOW. " ++
      "Rode antes: sudo -login <senha>").toList

/-! ## The steps of a line -/

/-- What a task does at one time. A guarded command first checks the current user; its
effect carries whether its issuer was elevated then. -/
inductive Step
  | dispatch (normalized : List Char)
  | check (command : Guarded)
  | effect (command : Guarded) (issuerElevated : Bool)
  | login (password : List Char)
  | elevate (userId password : List Char)
  | logout
  | revoke (userId : List Char)
  | other (line : List Char)
  | exec (sql : List Char)
  | usage (detail : List Char)
  | finish
  deriving DecidableEq, Repr

def Wrapper.step : Wrapper → Step
  | .guarded command => .check command
  | .sudoLogin password => .login password
  | .sudoLogout => .logout
  | .other line => .other line

/-- SQL goes past the tokenizer of TinyShell. -/
def execSteps (sql : List Char) (usage : String) : List Step :=
  if sql = [] then [.usage usage.toList] else [.exec sql]

def bodySteps (shell : List Char → List Wrapper) (normalized : List Char) : List Step :=
  match argumentsOf "database -exec_nolog".toList normalized with
  | some sql => execSteps sql "uso: database -exec_nolog \"<sql>\""
  | none =>
    match argumentsOf "database -exec".toList normalized with
    | some sql => execSteps sql "uso: database -exec \"<sql>\""
    | none => (shell normalized).map Wrapper.step

/-- A command that is not split. -/
def commandSteps (C : Commands) (command : List Char) : List Step :=
  match C.runCommandLine with
  | none => []
  | some shell =>
    let normalized := normalizeCommand command
    .dispatch normalized :: bodySteps shell normalized ++ [.finish]

def runLine (C : Commands) (command : List Char) : List Step :=
  (commandsOf command).flatMap (commandSteps C)

/-! ## Two tasks -/

/-- The globals of `ShellConfig.cpp`, `ShellCommandSupport.cpp` and `SudoManager.cpp`. -/
structure Globals (C : Commands) where
  currentUserId : List Char := "serial".toList
  lastCommandLine : List Char := []
  commandOutput : List Output := []
  elevatedUsers : List (List Char) := []
  world : C.World

/-- A guarded command that took effect. -/
structure Effect where
  issuer : List Char
  command : Guarded
  issuerElevated : Bool
  deriving DecidableEq, Repr

inductive Task
  | mainLoop
  | espnowRx
  deriving DecidableEq, Repr

def Task.other : Task → Task
  | .mainLoop => .espnowRx
  | .espnowRx => .mainLoop

/-- The line a task is running: who issued it, and the steps still to come. -/
structure Line where
  issuer : List Char := []
  todo : List Step := []
  deriving DecidableEq, Repr

structure Shells (C : Commands) where
  globals : Globals C
  lines : Task → Line := fun _ => {}
  effects : List Effect := []

inductive Op
  | runLine (task : Task) (command source userId : List Char)
  | advance (task : Task)
  deriving DecidableEq, Repr

variable {C : Commands}

def Globals.print (g : Globals C) (output : Output) : Globals C :=
  { g with commandOutput := g.commandOutput ++ [output] }

/-- One step: the globals it leaves, and the step that it puts off. -/
def perform (g : Globals C) (issuer : List Char) : Step → Globals C × List Step
  | .dispatch normalized =>
    ({ g with lastCommandLine := normalized, commandOutput := [], currentUserId := issuer }, [])
  | .check command =>
    if isElevated g.elevatedUsers g.currentUserId then
      (g, [.effect command (isElevated g.elevatedUsers issuer)])
    else (g.print (.failed kPermissionDenied command.deniedDetail), [])
  | .effect command _ => ({ g with world := C.guarded command g.world }, [])
  | .login password => (g, [.elevate g.currentUserId (stripOuterQuotes password)])
  | .elevate userId password =>
    match elevate g.elevatedUsers userId password with
    | (elevatedUsers, true) =>
      ({ g with elevatedUsers }.print (.line ("[sudo] acesso elevado concedido para '".toList ++
        userId ++ "' ate o proximo reboot".toList)), [])
    | (_, false) =>
      (g.print (.failed kSudoWrongPassword "senha incorreta. Uso: sudo -login <senha>".toList), [])
  | .logout => (g, [.revoke g.currentUserId])
  | .revoke userId =>
    ({ g with elevatedUsers := revoke g.elevatedUsers userId }.print
      (.line ("[sudo] acesso elevado revogado para '".toList ++ userId ++ "'".toList)), [])
  | .other line => ({ g with world := C.other line g.world }, [])
  | .exec sql => ({ g with world := C.exec sql g.world }, [])
  | .usage detail => (g.print (.failed kInvalidArgument detail), [])
  | .finish => ({ g with commandOutput := [] }, [])

/-- The record of a step that is the effect of a guarded command. -/
def Step.record (issuer : List Char) : Step → List Effect
  | .effect command issuerElevated => [{ issuer, command, issuerElevated }]
  | _ => []

def Shells.setLine (s : Shells C) (task : Task) (line : Line) : Shells C :=
  { s with lines := Function.update s.lines task line }

/-- A task starts a line once it has finished the one before. -/
def Shells.step (s : Shells C) : Op → Shells C
  | .runLine task command source userId =>
    if (s.lines task).todo = [] then
      s.setLine task
        { issuer := if userId = [] then source else userId, todo := runLine C command }
    else s
  | .advance task =>
    match (s.lines task).todo with
    | [] => s
    | step :: rest =>
      let (globals, next) := perform s.globals (s.lines task).issuer step
      { s with
          globals
          effects := s.effects ++ step.record (s.lines task).issuer }.setLine task
        { s.lines task with todo := next ++ rest }

/-- Every guarded command that took effect had an elevated issuer when its check ran. -/
def Shells.Authorised (s : Shells C) : Prop := ∀ effect ∈ s.effects, effect.issuerElevated = true

def Step.isDispatch : Step → Bool
  | .dispatch _ => true
  | _ => false

def Step.isCheck : Step → Bool
  | .check _ => true
  | _ => false

/-- A check is still to come before the task sets the current user again. -/
def Line.awaitsCheck (line : Line) : Bool :=
  (line.todo.takeWhile fun step => !step.isDispatch).any Step.isCheck

/-- A step that sets the current user does so while no check of the other task is still to
come, or for the same identity. -/
def Shells.Undisturbed (s : Shells C) : Op → Prop
  | .runLine .. => True
  | .advance task =>
    ∀ step ∈ (s.lines task).todo.head?, step.isDispatch = true →
      (s.lines task.other).awaitsCheck = true →
        (s.lines task.other).issuer = (s.lines task).issuer

instance (s : Shells C) : Decidable s.Authorised :=
  inferInstanceAs (Decidable (∀ effect ∈ s.effects, effect.issuerElevated = true))

instance (s : Shells C) : ∀ op, Decidable (s.Undisturbed op)
  | .runLine .. => inferInstanceAs (Decidable True)
  | .advance task =>
    inferInstanceAs (Decidable (∀ step ∈ (s.lines task).todo.head?, step.isDispatch = true →
      (s.lines task.other).awaitsCheck = true →
        (s.lines task.other).issuer = (s.lines task).issuer))

theorem Task.eq_other {task task' : Task} (h : task' ≠ task) : task' = task.other := by
  cases task <;> cases task' <;> first | rfl | exact absurd rfl h

/-! ## One step -/

section perform

variable {g : Globals C} {issuer : List Char}

theorem perform_currentUserId {step : Step} (h : step.isDispatch = false) :
    (perform g issuer step).1.currentUserId = g.currentUserId := by
  cases step with
  | dispatch normalized => cases h
  | check command => rw [perform]; split <;> rfl
  | elevate userId password => rw [perform]; split <;> rfl
  | _ => rfl

theorem perform_dispatch {step : Step} (h : step.isDispatch = true) :
    (perform g issuer step).1.currentUserId = issuer := by
  cases step with
  | dispatch normalized => rfl
  | _ => cases h

theorem perform_later {step later : Step} (h : later ∈ (perform g issuer step).2) :
    later.isDispatch = false ∧ later.isCheck = false := by
  cases step with
  | check command =>
    rw [perform] at h
    split at h
    · rw [List.mem_singleton.1 h]
      exact ⟨rfl, rfl⟩
    · cases h
  | elevate userId password =>
    rw [perform] at h
    split at h <;> cases h
  | login password =>
    rw [List.mem_singleton.1 h]
    exact ⟨rfl, rfl⟩
  | logout =>
    rw [List.mem_singleton.1 h]
    exact ⟨rfl, rfl⟩
  | _ => cases h

/-- Only a check that passed puts off an effect, and notes who issued it. -/
theorem perform_effect {step : Step} {command : Guarded} {issuerElevated : Bool}
    (h : .effect command issuerElevated ∈ (perform g issuer step).2) :
    step.isCheck = true ∧ isElevated g.elevatedUsers g.currentUserId = true ∧
      issuerElevated = isElevated g.elevatedUsers issuer := by
  cases step with
  | check command =>
    rw [perform] at h
    split at h
    · rename_i hcurrent
      cases List.mem_singleton.1 h
      exact ⟨rfl, hcurrent, rfl⟩
    · cases h
  | elevate userId password =>
    rw [perform] at h
    split at h <;> cases h
  | login password => cases List.mem_singleton.1 h
  | logout => cases List.mem_singleton.1 h
  | _ => cases h

end perform

theorem awaitsCheck_cons {issuer : List Char} {step : Step} {rest : List Step}
    (h : step.isDispatch = false) :
    ({ issuer, todo := step :: rest } : Line).awaitsCheck =
      (step.isCheck || ({ issuer, todo := rest } : Line).awaitsCheck) := by
  rw [Line.awaitsCheck, List.takeWhile_cons_of_pos (by rw [h]; rfl), List.any_cons]
  rfl

theorem awaitsCheck_append {issuer : List Char} {next rest : List Step}
    (h : ∀ later ∈ next, later.isDispatch = false ∧ later.isCheck = false) :
    ({ issuer, todo := next ++ rest } : Line).awaitsCheck =
      ({ issuer, todo := rest } : Line).awaitsCheck := by
  induction next with
  | nil => rfl
  | cons later next ih =>
    obtain ⟨hdispatch, hcheck⟩ := h later (.head _)
    rw [List.cons_append, awaitsCheck_cons hdispatch, hcheck, Bool.false_or,
      ih fun later hlater => h later (.tail _ hlater)]

theorem commandSteps_eq_nil (h : C.runCommandLine = none) (command : List Char) :
    commandSteps C command = [] := by
  rw [commandSteps, h]

/-- A line that starts has not come to its first check. -/
theorem awaitsCheck_runLine (issuer command : List Char) :
    ({ issuer, todo := runLine C command } : Line).awaitsCheck = false := by
  rw [runLine]
  induction commandsOf command with
  | nil => rfl
  | cons first rest ih =>
    rw [List.flatMap_cons]
    cases hshell : C.runCommandLine with
    | none =>
      rw [commandSteps_eq_nil hshell]
      exact ih
    | some shell =>
      rw [commandSteps, hshell]
      rfl

theorem effect_notMem_execSteps (sql : List Char) (usage : String) (guarded : Guarded)
    (issuerElevated : Bool) : .effect guarded issuerElevated ∉ execSteps sql usage := by
  rw [execSteps]
  split <;> exact fun h => nomatch List.mem_singleton.1 h

theorem effect_notMem_bodySteps (shell : List Char → List Wrapper) (normalized : List Char)
    (guarded : Guarded) (issuerElevated : Bool) :
    .effect guarded issuerElevated ∉ bodySteps shell normalized := by
  rw [bodySteps]
  split
  · exact effect_notMem_execSteps _ _ _ _
  split
  · exact effect_notMem_execSteps _ _ _ _
  · intro h
    obtain ⟨wrapper, -, hstep⟩ := List.mem_map.1 h
    cases wrapper <;> cases hstep

theorem effect_notMem_runLine (command : List Char) (guarded : Guarded) (issuerElevated : Bool) :
    .effect guarded issuerElevated ∉ runLine C command := by
  rw [runLine, List.mem_flatMap]
  rintro ⟨first, -, hmem⟩
  rw [commandSteps] at hmem
  split at hmem
  · cases hmem
  · simp only [List.cons_append, List.mem_cons, List.mem_append, List.not_mem_nil, or_false,
      reduceCtorEq, false_or] at hmem
    exact effect_notMem_bodySteps _ _ _ _ hmem

/-! ## Runs -/

/-- The current user is the issuer of every line with a check still to come, and what has
passed its check was issued by an elevated user. -/
structure Shells.Attributed (s : Shells C) : Prop where
  current : ∀ task, (s.lines task).awaitsCheck = true →
    s.globals.currentUserId = (s.lines task).issuer
  passed : ∀ task command issuerElevated,
    .effect command issuerElevated ∈ (s.lines task).todo → issuerElevated = true
  authorised : s.Authorised

variable {s : Shells C}

theorem setLine_self (s : Shells C) (task : Task) (line : Line) :
    (s.setLine task line).lines task = line :=
  Function.update_self ..

theorem setLine_of_ne (s : Shells C) {task task' : Task} (h : task' ≠ task) (line : Line) :
    (s.setLine task line).lines task' = s.lines task' :=
  Function.update_of_ne h ..

theorem Shells.Attributed.runLine (h : s.Attributed) (task : Task)
    (command source userId : List Char) :
    (s.step (.runLine task command source userId)).Attributed := by
  rw [Shells.step]
  split
  · refine ⟨fun task' hawaits => ?_, fun task' guarded issuerElevated hmem => ?_, h.authorised⟩
    · by_cases ht : task' = task
      · subst ht
        rw [setLine_self, awaitsCheck_runLine] at hawaits
        cases hawaits
      · rw [setLine_of_ne _ ht] at hawaits ⊢
        exact h.current task' hawaits
    · by_cases ht : task' = task
      · subst ht
        rw [setLine_self] at hmem
        exact absurd hmem (effect_notMem_runLine _ _ _)
      · rw [setLine_of_ne _ ht] at hmem
        exact h.passed task' guarded issuerElevated hmem
  · exact h

/-- A task whose check is next has its own identity as the current user. -/
theorem Shells.Attributed.issuer_of_check (h : s.Attributed) {task : Task} {step : Step}
    {rest : List Step} (htodo : (s.lines task).todo = step :: rest) (hcheck : step.isCheck = true) :
    s.globals.currentUserId = (s.lines task).issuer := by
  refine h.current task ?_
  have hdispatch : step.isDispatch = false := by
    cases step with
    | dispatch normalized => cases hcheck
    | _ => rfl
  rw [Line.awaitsCheck, htodo, List.takeWhile_cons_of_pos (by rw [hdispatch]; rfl), List.any_cons,
    hcheck, Bool.true_or]

/-- The current user after a step is still the issuer of a line that awaits a check. -/
theorem Shells.Attributed.current_advance (h : s.Attributed) {task task' : Task} {step : Step}
    {rest : List Step} (htodo : (s.lines task).todo = step :: rest) (ht : task' ≠ task)
    (hundisturbed : s.Undisturbed (.advance task)) (hawaits : (s.lines task').awaitsCheck = true) :
    (perform s.globals (s.lines task).issuer step).1.currentUserId = (s.lines task').issuer := by
  cases hdispatch : step.isDispatch with
  | true =>
    rw [perform_dispatch hdispatch]
    have hmem : step ∈ (s.lines task).todo.head? := by rw [htodo]; rfl
    obtain rfl := Task.eq_other ht
    exact (hundisturbed step hmem hdispatch hawaits).symm
  | false =>
    rw [perform_currentUserId hdispatch]
    exact h.current task' hawaits

theorem Shells.Attributed.current_own (h : s.Attributed) {task : Task} {step : Step}
    {rest : List Step} (htodo : (s.lines task).todo = step :: rest)
    (hawaits : ({ s.lines task with
      todo := (perform s.globals (s.lines task).issuer step).2 ++ rest } : Line).awaitsCheck = true) :
    (perform s.globals (s.lines task).issuer step).1.currentUserId = (s.lines task).issuer := by
  cases hdispatch : step.isDispatch with
  | true => exact perform_dispatch hdispatch
  | false =>
    rw [perform_currentUserId hdispatch]
    rw [awaitsCheck_append fun later hlater => perform_later hlater] at hawaits
    have hline : (s.lines task).awaitsCheck =
        ({ issuer := (s.lines task).issuer, todo := step :: rest } : Line).awaitsCheck := by
      rw [← htodo]
    refine h.current task ?_
    rw [hline, awaitsCheck_cons hdispatch, hawaits, Bool.or_true]

theorem Shells.Attributed.advance (h : s.Attributed) {task : Task}
    (hundisturbed : s.Undisturbed (.advance task)) : (s.step (.advance task)).Attributed := by
  rw [Shells.step]
  cases htodo : (s.lines task).todo with
  | nil => exact h
  | cons step rest =>
    dsimp only
    refine ⟨fun task' hawaits => ?_, fun task' guarded issuerElevated hmem => ?_,
      fun effect hmem => ?_⟩
    · by_cases ht : task' = task
      · subst ht
        rw [setLine_self] at hawaits ⊢
        exact h.current_own htodo hawaits
      · rw [setLine_of_ne _ ht] at hawaits ⊢
        exact h.current_advance htodo ht hundisturbed hawaits
    · by_cases ht : task' = task
      · subst ht
        rw [setLine_self] at hmem
        obtain hnext | hrest := List.mem_append.1 hmem
        · obtain ⟨hcheck, hcurrent, rfl⟩ := perform_effect hnext
          rwa [← h.issuer_of_check htodo hcheck]
        · exact h.passed task' guarded issuerElevated (htodo ▸ .tail _ hrest)
      · rw [setLine_of_ne _ ht] at hmem
        exact h.passed task' guarded issuerElevated hmem
    · obtain hold | hnew := List.mem_append.1 hmem
      · exact h.authorised effect hold
      · cases step with
        | effect guarded issuerElevated =>
          rw [List.mem_singleton.1 hnew]
          exact h.passed task guarded issuerElevated (htodo ▸ .head _)
        | _ => cases hnew

theorem Shells.Attributed.step (h : s.Attributed) {op : Op} (hundisturbed : s.Undisturbed op) :
    (s.step op).Attributed := by
  cases op with
  | runLine task command source userId => exact h.runLine task command source userId
  | advance task => exact h.advance hundisturbed

/-- No guarded command takes effect for an issuer that is not elevated, in any run in which
no task sets the current user while a check of the other's line is still to come. -/
theorem run_authorised (globals : Globals C) {ops : List Op}
    (h : Run.AllSteps Shells.step Shells.Undisturbed { globals } ops) :
    Run.Throughout Shells.step Shells.Authorised { globals } ops := by
  have hstart : Shells.Attributed ({ globals } : Shells C) := ⟨nofun, nofun, nofun⟩
  exact (Run.Throughout.of_allSteps (fun s op hs hop => hs.step hop) hstart h).imp
    fun s hs => hs.authorised

/-- A shell that knows `sudo -login` and `database -rebuild`, and counts the rebuilds. -/
def rebuildCommands : Commands where
  World := Nat
  runCommandLine := some fun line =>
    match argumentsOf "sudo -login".toList line with
    | some password => [.sudoLogin password]
    | none => if line = "database -rebuild".toList then [.guarded .databaseRebuild] else [.other line]
  guarded _ rebuilds := rebuilds + 1
  other _ rebuilds := rebuilds
  exec _ rebuilds := rebuilds

def localLogin : List Op :=
  .runLine .mainLoop "sudo -login 657585".toList "serial".toList [] ::
    List.replicate 4 (.advance .mainLoop)

def remoteRebuild : Op :=
  .runLine .espnowRx "database -rebuild".toList "espnow".toList
    "espnow:AA:BB:CC:DD:EE:FF".toList

/-- The local user rebuilds the database, and then a peer may not. -/
theorem run_authorised_rebuild :
    Run.Throughout Shells.step Shells.Authorised
      { globals := { world := (0 : Nat) } : Shells rebuildCommands }
      (localLogin ++
        .runLine .mainLoop "database -rebuild".toList "serial".toList [] ::
          List.replicate 4 (.advance .mainLoop) ++
        remoteRebuild :: List.replicate 3 (.advance .espnowRx)) := by
  refine run_authorised _ ?_
  decide +kernel

/-- A line of the local user comes between the worker's dispatch and its check. -/
theorem remote_rebuild_as_local :
    ¬∀ ops, Run.Throughout Shells.step Shells.Authorised
      { globals := { world := (0 : Nat) } : Shells rebuildCommands } ops := by
  intro h
  have hfinal : Shells.Authorised (List.foldl Shells.step
      { globals := { world := (0 : Nat) } : Shells rebuildCommands }
      (localLogin ++
        [remoteRebuild, .advance .espnowRx,
          .runLine .mainLoop "dongle -ping".toList "serial".toList [], .advance .mainLoop,
          .advance .espnowRx, .advance .espnowRx])) :=
    Run.Throughout.final (h _)
  revert hfinal
  decide +kernel

end BallyDongle.ShellConfig
