import ScreenFlow.Process.Basic
import ScreenFlow.Store.Entries

/-!
# Access to a store

The operations that every store offers, whatever keeps its contents.
-/

namespace ScreenFlow.Store

inductive Ask where
  | get (key : String)
  | set (key value : String) (ttl : Option Duration)
  /-- Tells whether there was a live entry. -/
  | delete (key : String)
  /-- The live keys that begin with `start`, in ascending order. -/
  | keys (start : String)
  /-- Whether the store can keep anything at all. -/
  | isAvailable

@[reducible] def Answer : Ask → Type
  | .get _ => Except StoreError (Option String)
  | .set .. => Except StoreError Unit
  | .delete _ => Except StoreError Bool
  | .keys _ => Except StoreError (List String)
  | .isAvailable => Bool

/-- Reads what was got as a JSON value. -/
def readJson (got : Except StoreError (Option String)) : Except StoreError (Option Json) :=
  match got with
  | .error e => .error e
  | .ok none => .ok none
  | .ok (some text) =>
    match Json.ofText text with
    | .ok v => .ok (some v)
    | .error e => .error (StoreError.ofReadError e)

/-- How many change messages a store keeps for its receivers. -/
def changeCapacity : Nat := 64

end ScreenFlow.Store
