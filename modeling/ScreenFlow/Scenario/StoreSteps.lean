import ScreenFlow.Scenario.PartSteps
import ScreenFlow.Store.Conformance

/-!
# Steps on the shared store
-/

namespace ScreenFlow.Scenario

open Simulation

def storeForm {α : Type} (f : α → Json) : Except StoreError α → Json
  | .ok a => f a
  | .error e => storeErrorForm e false

def storeStep {α : Type} (f : α → Json) (t : Task World (Except StoreError α)) : Step := do
  return storeForm f (← t)

def setStep (v : Json) (value : String) : Step :=
  storeStep plain (askStore .shared (.set (v.textAt "key") value (v.natAt? "ttlMs")))

def getJsonStep (key : String) : Step := do
  match Store.readJson (← askStore .shared (.get key)) with
  | .ok found => return foundForm found
  | .error e => return storeErrorForm e true

def changesStep : Step := do
  return .arr ((← .modifyGet World.observeChanges).map (receivedForm changeForm))

/-- The number of live entries, which only a store in memory tells. -/
def lengthStep : Step := do
  let w ← Task.get
  match w.shared.backing with
  | .file _ => return missing
  | .memory es =>
    return .obj [("empty", .bool (es.liveCount w.time == 0)), ("len", .nat (es.liveCount w.time))]

def availableStep : Step := do return .bool (← askStore .shared .isAvailable)

def conformanceStep : Step := do
  match ← Store.Conformance.run.perform (askStore .shared) fun _ _ => none with
  | .ok true => return .str "ok"
  | .ok false => return failure "Nonconforming"
  | .error e => return storeErrorForm e false

/-- A step on the file of the shared store, behind the store's back. -/
def onFile (s : Step) : Step := do
  if (← Task.get).shared.isFile then s else return missing

def writeFileStep (v : Json) : Step := onFile do
  .modify (·.overwriteStore (bytesOf (v.at_ "contents")))
  return .null

def readFileStep : Step := onFile do
  return .ofOption bytesForm ((← .read (·.readStore .shared)).toOption.join)

def removeFileStep : Step := onFile do return .bool (← .modifyGet World.removeStore)

def watchFileStep (v : Json) : Step := onFile do
  keepRunning (startWatching ((v.natAt? "everyMs").getD 100))
  return .null

def storeStepOf (name : String) (v : Json) : Option Step :=
  let key := v.textAt "key"
  match name with
  | "store_get" => storeStep textForm (askStore .shared (.get key))
  | "store_set" => setStep v (v.textAt "value")
  | "store_delete" => storeStep .bool (askStore .shared (.delete key))
  | "store_keys" => storeStep (fun ks => .arr (ks.map .str))
      (askStore .shared (.keys (v.textAt "prefix")))
  | "store_get_json" => getJsonStep key
  | "store_set_json" => setStep v (v.at_ "value").render
  | "store_changes" => changesStep
  | "store_len" => lengthStep
  | "store_available" => availableStep
  | "store_conformance" => conformanceStep
  | "file_write" => writeFileStep v
  | "file_read" => readFileStep
  | "file_remove" => removeFileStep
  | "file_reload" => onFile (storeStep .nat (runFile .shared FileStore.reload))
  | "file_watch" => watchFileStep v
  | _ => none

end ScreenFlow.Scenario
