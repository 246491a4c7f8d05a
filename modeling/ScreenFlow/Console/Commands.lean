import ScreenFlow.Console.Files
import ScreenFlow.Console.Output
import ScreenFlow.Simulation.Machine
import ScreenFlow.Simulation.Wiring

/-!
# Commands of the console

A command reads the files that it needs and runs the assembled parts on its disk, where they keep the
file of the store, and downloads. No server can be reached from a console.
-/

namespace ScreenFlow.Console

open Simulation

/-- What a command begins with. -/
structure Start where
  /-- The configuration, if the command line names none. -/
  config : Option String := none
  /-- How many ids have been made before. -/
  ids : Nat := 0
  wallClock : Int := ({} : World).wallClock

structure Finish where
  code : Nat := 0
  output : String := ""
  /-- What went wrong. -/
  complaint : Option String := none
  /-- How many ids have been made, now and before. -/
  ids : Nat
deriving DecidableEq, Repr, Inhabited

/-- A step of a command. -/
abbrev Step (α : Type) := ExceptT Failure Files.Operation α

def ask (q : Files.Ask) : Step (Files.Answer q) := ExceptT.lift (Files.ask q)

def orFail {α ε : Type} (f : ε → Failure) (a : Except ε α) : Step α := ExceptT.mk (pure (a.mapError f))

def readText (path : String) : Step String := do
  let bytes ← orFail (.file path) (← ask (.read (.ofString path)))
  match Utf8.decode? bytes with
  | some text => return text
  | none => throw (.file path (.other "stream did not contain valid UTF-8"))

def readConfig (path : Option String) : Step Config := do
  match path with
  | none => return {}
  | some path => orFail .config (Config.ofText (← readText path))

/-- A payload is written out, or stands in a file. -/
def readPayload (raw : String) : Step Json := do
  let text ← match Text.dropPrefix? ['@'] raw.toList with
    | some path => readText (String.ofList path)
    | none => pure raw
  orFail .payload (Json.ofText text)

/-! ### Running the parts -/

/-- What every request comes to. -/
def unreachable (r : Request) : RouteAnswer :=
  .fail (.transport ("error sending request for url (" ++ r.url ++ ")"))

/-- The configured place of the store, if it is a file. -/
def storeFile? (c : Config) : Option FileName :=
  if c.store.backend == "file" then c.store.path.map FileName.ofString else none

/-- The files that are read or written for a store. -/
def filesOf (store : Option FileName) : List FileName := store.toList.flatMap fun f => [f, f.draft]

/-- Assembles the parts and lets them run a task that may read some files; downloads go to the folder.
The answer has the number of ids made. -/
def inAssembly {α : Type} (s : Start) (c : Config) (files : List FileName) (folder : FileName)
    (t : Task World (Except Failure α)) : Step (α × Nat) := do
  let store := storeFile? c
  let disk ← ask (.survey (filesOf store ++ files) folder)
  let w : World := {
    ids := s.ids
    wallClock := s.wallClock
    unserved := unreachable
    disk
    downloads := some folder }
  let w ← orFail .dispatcher ((store.elim w w.withFile).assemble c fun _ => none)
  let task := do
    startUp false
    t
  let (m, result) := Machine.run Machine.fuel { world := w } (.task task)
  ask (.settle disk m.world.disk)
  match result with
  | some a => return (← orFail id a, m.world.ids)
  | none => throw .endless

/-- Dispatches a handler of a screen. -/
def dispatchTask (path handler : String) (payload : Json) :
    Task World (Except Failure Report) := do
  let contents ← .read fun w => (w.disk.read (.ofString path)).toOption
  match ← loadScreen contents, ← .read (·.dispatcher) with
  | some screen, some d =>
    match ← dispatchNamed d screen handler payload with
    | some report =>
      shutDown
      return .ok report
    | none => return .error (.handler handler)
  | _, _ => return .error (.screen path)

/-- An operation on the offline queue. -/
def queueTask {α : Type} (f : OfflineSettings → OfflineQueue.Operation (Except OfflineError α)) :
    Task World (Except Failure (Option α)) := do
  match ← onQueue replay f with
  | some (.ok a) =>
    shutDown
    return .ok (some a)
  | some (.error e) => return .error (.queue e)
  | none => return .ok none

/-! ### The commands -/

def run (s : Start) (c : Config) (f : Format) (screen handler payload folder : String) :
    Step Finish := do
  let payload ← readPayload payload
  let (report, ids) ← inAssembly s c [.ofString screen] (.ofString folder)
    (dispatchTask screen handler payload)
  return { output := reportText f report, ids }

def check (s : Start) (c : Config) (f : Format) (path : String) : Step Finish := do
  let text ← readText path
  let screen ← orFail (fun _ => .screen path) (Screen.ofText text)
  let found := screen.check c.registry c.dispatchSettings.maxDepth
  return {
    code := if found.isEmpty then 0 else 1
    output := findingsText f screen.handlers.length found
    complaint := if found.isEmpty then none else some (Failure.problems found.length).message
    ids := s.ids }

/-- The working folder. -/
def here : FileName := .ofString "."

def queue (s : Start) (c : Config) (f : Format) (command : QueueCommand) : Step Finish := do
  match command with
  | .list =>
    let (events, ids) ← inAssembly s c [] here (queueTask OfflineQueue.pending)
    return { output := pendingText f (events.getD []), ids }
  | .replay =>
    let (report, ids) ← inAssembly s c [] here (queueTask OfflineQueue.replay)
    return { output := replayText f report.join, ids }
  | .clear =>
    let (_, ids) ← inAssembly s c [] here (queueTask OfflineQueue.clear)
    return { output := clearedText, ids }

def command (s : Start) (a : Arguments) : Step Finish := do
  let c ← readConfig (a.config.or s.config)
  match a.command with
  | .run screen handler payload folder => run s c a.format screen handler payload folder
  | .check path => check s c a.format path
  | .queue q => queue s c a.format q

/-- Follows a command line. A command that fails ends with 1, a line that asks for none with 2. -/
def perform (s : Start) (words : List String) : Files.Operation Finish := do
  match Arguments.ofList words with
  | .error .help => return { output := usage, ids := s.ids }
  | .error .version => return { output := versionText, ids := s.ids }
  | .error .misuse => return { code := 2, complaint := some usage, ids := s.ids }
  | .ok a =>
    match ← (command s a).run with
    | .ok finish => return finish
    | .error f => return { code := 1, complaint := some f.message, ids := s.ids }

end ScreenFlow.Console
