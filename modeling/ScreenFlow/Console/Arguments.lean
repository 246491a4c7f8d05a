import ScreenFlow.Text.Chars

/-!
# Arguments of the console

A command line is read word by word, from the outer command to the inner ones. Options may stand at any
level; where one is given at several levels, the innermost counts, and within a level it is given once.
After two dashes no word is an option any more.
-/

namespace ScreenFlow.Console

inductive Format where
  | text
  | json
deriving DecidableEq, Repr, Inhabited

inductive QueueCommand where
  | list
  | replay
  | clear
deriving DecidableEq, Repr, Inhabited

inductive Command where
  /-- Dispatches a handler of a screen; downloads go to the folder. -/
  | run (screen handler payload folder : String)
  | check (screen : String)
  | queue (command : QueueCommand)
deriving DecidableEq, Repr, Inhabited

structure Arguments where
  config : Option String := none
  format : Format := .text
  command : Command
deriving DecidableEq, Repr, Inhabited

/-- Why a command line asks for no command. -/
inductive Detour where
  | help
  | version
  | misuse
deriving DecidableEq, Repr, Inhabited

/-! ### Levels -/

/-- How far a command line names its command. -/
inductive Level where
  | start
  | run
  | check
  | queue
  | queueCommand (c : QueueCommand)
deriving DecidableEq, Repr, Inhabited

/-- An option with a value. -/
structure Choice where
  name : String
  letter : Option Char := none
  accepts : String → Bool

def Choice.config : Choice := ⟨"config", some 'c', fun s => !s.isEmpty⟩

def Choice.format : Choice := ⟨"format", none, fun s => ["text", "json"].contains s⟩

def Choice.payload : Choice := ⟨"payload", none, fun _ => true⟩

def Choice.downloadDir : Choice := ⟨"download-dir", none, fun s => !s.isEmpty⟩

namespace Level

def choices : Level → List Choice
  | run => [.config, .format, .payload, .downloadDir]
  | _ => [.config, .format]

def commands : Level → List (String × Level)
  | start => [("run", run), ("check", check), ("queue", queue)]
  | queue => [("list", queueCommand .list), ("replay", queueCommand .replay),
      ("clear", queueCommand .clear)]
  | _ => []

/-- Which words may stand at a level besides options and commands: for each, whether it is accepted. -/
def words : Level → List (String → Bool)
  | run => [fun s => !s.isEmpty, fun _ => true]
  | check => [fun s => !s.isEmpty]
  | _ => []

end Level

/-! ### Reading -/

structure Reading where
  level : Level := .start
  /-- Options of outer levels, the innermost first. -/
  outer : List (String × String) := []
  /-- Options of this level. -/
  options : List (String × String) := []
  words : List String := []
  /-- An option whose value is the next word. -/
  pending : Option Choice := none
  /-- Whether options are over. -/
  onlyWords : Bool := false
  /-- Whether the words name a command to be explained. -/
  explaining : Bool := false

namespace Reading

def give (r : Reading) (c : Choice) (value : String) : Except Detour Reading :=
  if c.accepts value && (r.options.find? (·.1 == c.name)).isNone then
    .ok { r with options := r.options ++ [(c.name, value)], pending := none }
  else .error .misuse

/-- A word that is no option. -/
def word (r : Reading) (s : String) : Except Detour Reading :=
  match (r.level.words)[r.words.length]? with
  | some accepts => if accepts s then .ok { r with words := r.words ++ [s] } else .error .misuse
  | none => .error .misuse

/-- An option by its name, with the value that is attached to it. -/
def long (r : Reading) (name : String) (value : Option String) : Except Detour Reading :=
  match r.level.choices.find? (·.name == name), value with
  | some c, some v => r.give c v
  | some c, none =>
    if (r.options.find? (·.1 == c.name)).isNone then .ok { r with pending := some c }
    else .error .misuse
  | none, some _ => .error .misuse
  | none, none =>
    if name == "help" then .error .help
    else if name == "version" && r.level == .start then .error .version
    else .error .misuse

/-- An option by its letter; the characters after the letter are its value. -/
def short (r : Reading) (letter : Char) (attached : List Char) : Except Detour Reading :=
  match r.level.choices.find? (·.letter == some letter), attached with
  | some c, '=' :: value => r.give c (String.ofList value)
  | some c, [] => r.long c.name none
  | some c, value => r.give c (String.ofList value)
  | none, _ =>
    if letter == 'h' then .error .help
    else if letter == 'V' && r.level == .start then .error .version
    else .error .misuse

/-- The name of a command at this level. -/
def enter (r : Reading) (s : String) : Except Detour Reading :=
  match r.level.commands.find? (·.1 == s) with
  | some (_, level) =>
    .ok { r with level, outer := r.options ++ r.outer, options := [], words := [] }
  | none => if s == "help" then .ok { r with explaining := true } else .error .misuse

def longOf (r : Reading) (s : String) : Except Detour Reading :=
  match Text.splitOnce '=' s with
  | some (name, value) => r.long name (some value)
  | none => r.long s none

/-- Takes the next word. -/
def step (r : Reading) (s : String) : Except Detour Reading :=
  if r.explaining then if r.level.commands.isEmpty then .error .misuse else r.enter s
  else
    match r.pending, r.onlyWords, s.toList with
    | some _, _, '-' :: _ :: _ => .error .misuse
    | some c, _, _ => r.give c s
    | none, true, _ => r.word s
    | none, false, ['-', '-'] => .ok { r with onlyWords := true }
    | none, false, '-' :: '-' :: name => r.longOf (String.ofList name)
    | none, false, '-' :: letter :: attached => r.short letter attached
    | none, false, _ => if r.level.commands.isEmpty then r.word s else r.enter s

def option? (r : Reading) (c : Choice) : Option String :=
  ((r.options ++ r.outer).find? (·.1 == c.name)).map (·.2)

def command? (r : Reading) : Option Command :=
  match r.level, r.words with
  | .run, [screen, handler] => some (.run screen handler
      ((r.option? .payload).getD "\x7b\x7d") ((r.option? .downloadDir).getD "."))
  | .check, [screen] => some (.check screen)
  | .queueCommand c, _ => some (.queue c)
  | _, _ => none

/-- What the words come to. -/
def finish (r : Reading) : Except Detour Arguments :=
  if r.explaining then .error .help
  else if r.pending.isSome then .error .misuse
  else
    match r.command? with
    | none => .error .misuse
    | some command => .ok {
        config := r.option? .config
        format := if r.option? .format == some "json" then .json else .text
        command }

end Reading

def Arguments.ofList (words : List String) : Except Detour Arguments :=
  (words.foldlM Reading.step {}).bind Reading.finish

end ScreenFlow.Console
