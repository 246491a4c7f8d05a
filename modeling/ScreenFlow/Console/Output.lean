import ScreenFlow.Config
import ScreenFlow.Console.Arguments
import ScreenFlow.Dispatch.Report
import ScreenFlow.FileName
import ScreenFlow.Json.Printer
import ScreenFlow.Offline.Queue
import ScreenFlow.Screen.Check

/-!
# What the console prints

Every result has a form as lines and one as indented JSON.
-/

namespace ScreenFlow.Console

/-- Lines, each with its end. -/
def unlines (lines : List String) : String := String.join (lines.map (· ++ "\n"))

def printed (f : Format) (lines : List String) (v : Json) : String :=
  match f with
  | .text => unlines lines
  | .json => unlines [v.pretty]

def reportLines (r : Report) : List String :=
  ["Invocation: " ++ r.invocation,
    "Phases:     " ++ Text.joinLines " -> " (r.phases.map Phase.title),
    "Outcome:    " ++ r.outcome.toJson.render]

def reportText (f : Format) (r : Report) : String := printed f (reportLines r) r.toJson

/-- The findings on a screen with so many handlers. -/
def findingsText (f : Format) (handlers : Nat) (found : List Finding) : String :=
  let lines := if found.isEmpty then [s!"{handlers} handlers OK"]
    else found.map fun p => "  " ++ p.handler ++ ": " ++ p.message
  printed f lines (.arr (found.map Finding.toJson))

/-- An event in one line: what it does is its operation, or else its method. -/
def eventLine (e : OfflineEvent) : String :=
  let what := (e.operation.or (e.method.map Method.name)).getD "-"
  "  " ++ Text.joinLines " | " [e.id, e.kind.title, e.dsId, what]

def pendingText (f : Format) (es : List OfflineEvent) : String :=
  printed f (s!"Pending: {es.length}" :: es.map eventLine) (.arr (es.map OfflineEvent.toJson))

def replayText (f : Format) (r : Option ReplayReport) : String :=
  match r, f with
  | none, _ => unlines ["Replay already in progress or queue disabled"]
  | some r, .text => unlines [s!"Replayed: {r.succeeded} succeeded, {r.failed} failed"]
  | some r, .json => unlines [r.toJson.render]

def clearedText : String := unlines ["Queue cleared"]

def versionText : String := unlines ["weft 0.1.0"]

def usage : String := unlines [
  "Usage: weft [OPTIONS] <COMMAND>",
  "",
  "Commands:",
  "  run <SCREEN> <HANDLER>     dispatches a handler of a screen",
  "  check <SCREEN>             checks every handler of a screen",
  "  queue list|replay|clear    shows, replays or drops pending events",
  "  help                       prints this text",
  "",
  "Options:",
  "  -c, --config <CONFIG>      configuration file",
  "      --format <FORMAT>      text or json",
  "      --payload <PAYLOAD>    event payload of run: JSON, or @ and a file",
  "      --download-dir <DIR>   folder that takes the downloads of run",
  "  -h, --help                 prints this text",
  "  -V, --version              prints the version"]

/-! ### Failures -/

/-- Why a command ends without its result. -/
inductive Failure where
  | file (path : String) (fault : FileFault)
  | config (e : ConfigError)
  | payload (e : Json.ReadError)
  | dispatcher (f : Fault)
  | screen (path : String)
  | handler (name : String)
  | queue (e : OfflineError)
  /-- A screen has so many problems. -/
  | problems (count : Nat)
  /-- The command would wait for good. -/
  | endless
deriving Repr

def Failure.message : Failure → String
  | file path fault => "reading " ++ path ++ ": " ++ fault.message
  | config e => e.message
  | payload e => e.message
  | dispatcher f => f.message
  | screen path => "failed to read screen " ++ path
  | handler name => "handler not found: " ++ name
  | queue e => e.message
  | problems count => s!"{count} problem(s) found"
  | endless => "nothing goes on any more"

end ScreenFlow.Console
