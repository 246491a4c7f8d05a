import ScreenFlow.Console.Commands
import Std.Time.DateTime.Timestamp

/-!
# The command line

Runs the console on the disk of this computer.
-/

namespace ScreenFlow.Console

def faultOf : IO.Error → FileFault
  | .noFileOrDirectory .. => .missing
  | .inappropriateType .. => .notFolder
  | e => .other (toString e)

def attempt {α : Type} (action : IO α) : IO (Except FileFault α) := do
  try
    return .ok (← action)
  catch e =>
    return .error (faultOf e)

/-- The path of a place. -/
def pathOf (place : Place) : String := toString ({ absolute := true, parts := place } : FileName)

def workingPlace : IO Place := do return (FileName.ofString (← IO.currentDir).toString).parts

def entryAt (place : Place) : IO (List (Place × DiskEntry)) := do
  let path := (← IO.currentDir) / pathOf place
  match ← (attempt path.metadata : IO (Except FileFault IO.FS.Metadata)) with
  | .error _ => return []
  | .ok m =>
    match m.type with
    | .dir => return [(place, .folder)]
    | .file => return [(place, .file (← IO.FS.readBinFile path).toList)]
    | _ => return [(place, .sink)]

/-- The places that a path leads through from a place. -/
def wayFrom (place : Place) : List String → List Place
  | [] => [place]
  | ".." :: rest => place :: wayFrom place.dropLast rest
  | part :: rest => place :: wayFrom (place ++ [part]) rest

def wayTo (working : Place) (f : FileName) : List Place :=
  wayFrom (if f.absolute then [] else working) f.steps

/-- The folders that stand directly in a folder. -/
def foldersIn (place : Place) : IO (List Place) := do
  let path := (← IO.currentDir) / pathOf place
  match ← attempt path.readDir with
  | .error _ => return []
  | .ok found =>
    let found ← found.filterM (·.path.isDir)
    return found.toList.map fun e => place ++ [e.fileName]

def survey (files : List FileName) (folder : FileName) : IO Disk := do
  let working ← workingPlace
  let way := wayTo working folder
  let inside ← foldersIn (way.getLast?.getD working)
  let places := ((way ++ files.flatMap (wayTo working)).eraseDups).filter (!·.isEmpty)
  let entries ← places.mapM entryAt
  let folders := (inside.filter (!places.contains ·)).map (·, DiskEntry.folder)
  return { entries := entries.flatten ++ folders, working }

def settle (before after : Disk) : IO Unit := do
  for (place, entry) in after.entries do
    if before.find? place != some entry then
      match entry with
      | .folder => IO.FS.createDir (pathOf place)
      | .file bytes => IO.FS.writeBinFile (pathOf place) ⟨bytes.toArray⟩
      | .sink => pure ()
  for (place, _) in before.entries do
    if after.find? place == none then IO.FS.removeFile (pathOf place)

def answerFromDisk : (q : Files.Ask) → IO (Files.Answer q)
  | .read file => attempt do return (← IO.FS.readBinFile (toString file)).toList
  | .survey files folder => survey files folder
  | .settle before after => settle before after

/-- Ids go on from the time, so that they ascend from one run to the next. -/
def startNow : IO Start := do
  let now := (← Std.Time.Timestamp.now).toMillisecondsSinceUnixEpoch.val
  return { config := ← IO.getEnv "WEFT_CONFIG", ids := now.toNat, wallClock := now }

end ScreenFlow.Console

open ScreenFlow.Console in
def main (words : List String) : IO UInt32 := do
  let finish ← (perform (← startNow) words).runIn answerFromDisk
  IO.print finish.output
  match finish.complaint with
  | some text => IO.eprintln text
  | none => pure ()
  return finish.code.toUInt32
