import ScreenFlow.Store.Access

/-!
# What every store has to do

A series of operations on keys of their own, with the answers that a store has to give to them.
-/

namespace ScreenFlow.Store

@[reducible] def interface : Interface := ⟨Ask, Answer⟩

abbrev Operation (α : Type) := Process interface α

abbrev Check := ExceptT StoreError (Process interface) Bool

namespace Conformance

def get (key : String) : ExceptT StoreError (Process interface) (Option String) :=
  Process.call (I := interface) (.get key)

def set (key value : String) : ExceptT StoreError (Process interface) Unit :=
  Process.call (I := interface) (.set key value none)

def delete (key : String) : ExceptT StoreError (Process interface) Bool :=
  Process.call (I := interface) (.delete key)

def missing : Check := do return (← get "conformance:missing").isNone

def setAndGet : Check := do
  set "conformance:set-get" "hello"
  return (← get "conformance:set-get") == some "hello"

def overwrite : Check := do
  set "conformance:overwrite" "v1"
  set "conformance:overwrite" "v2"
  return (← get "conformance:overwrite") == some "v2"

def deleteOnce : Check := do
  set "conformance:to-delete" "bye"
  let existed ← delete "conformance:to-delete"
  let left ← get "conformance:to-delete"
  let again ← delete "conformance:to-delete"
  return existed && left.isNone && !again

def keysInOrder : Check := do
  set "conformance:scan:b" "2"
  set "conformance:scan:a" "1"
  set "conformance:other" "x"
  let keys : List String ← Process.call (I := interface) (.keys "conformance:scan:")
  return keys == ["conformance:scan:a", "conformance:scan:b"]

def timeToLive : Check := do
  let () ← Process.call (I := interface) (.set "conformance:ttl" "ephemeral" (some 3600000))
  return (← get "conformance:ttl") == some "ephemeral"

def jsonValue : Check := do
  let value := Json.arr [.nat 1, .nat 2, .nat 3]
  set "conformance:json" value.render
  let back ← get "conformance:json"
  return (readJson (.ok back)).toOption == some (some value)

def changes : Check := do
  set "conformance:notify" "on"
  delete "conformance:notify"

/-- Runs the checks up to the first one that fails, and tells whether there was none. -/
def runAll : List Check → ExceptT StoreError (Process interface) Bool
  | [] => return true
  | c :: cs => do if ← c then runAll cs else return false

def run : Operation (Except StoreError Bool) :=
  (runAll [missing, setAndGet, overwrite, deleteOnce, keysInOrder, timeToLive, jsonValue,
    changes]).run

end Conformance

end ScreenFlow.Store
