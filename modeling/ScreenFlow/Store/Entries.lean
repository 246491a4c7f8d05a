import ScreenFlow.Fault
import ScreenFlow.Json.Reader
import ScreenFlow.Text.Chars

/-!
# Store contents

A map from keys to texts in which an entry may expire. An entry is live before its expiry; at that
time and later it is as good as absent. In memory every operation is one atomic change of the
contents, and reading an expired entry removes it.
-/

namespace ScreenFlow

inductive StoreError where
  | unavailable (reason : String)
  | serialization (reason : String)
  | io (reason : String)
  | backend (reason : String)
deriving DecidableEq, Repr, Inhabited

namespace StoreError

def message : StoreError → String
  | unavailable s => "store unavailable: " ++ s
  | serialization s => "serialization error: " ++ s
  | io s => "I/O error: " ++ s
  | backend s => "backend error: " ++ s

def toFault (e : StoreError) : Fault := .storage e.message

def ofReadError (e : Json.ReadError) : StoreError := .serialization e.message

end StoreError

/-- What is announced when a key changes; a deletion has no value. -/
structure StoreChange where
  key : String
  value : Option String
deriving DecidableEq, Repr, Inhabited

structure Entry where
  value : String
  expiresAt : Option Int := none
deriving DecidableEq, Repr, Inhabited

namespace Entry

def isExpired (e : Entry) (now : Int) : Bool := e.expiresAt.any (· ≤ now)

def decode : Decoder Entry := .record do
  return { value := ← .required "value" .string, expiresAt := ← .optional "expiresAt" .int64 }

def toJson (e : Entry) : Json :=
  .obj (("value", .str e.value) :: e.expiresAt.toList.map fun t => ("expiresAt", .int t))

end Entry

/-- Entries with ascending keys. -/
abbrev Entries := List (String × Entry)

namespace Entries

def find? (es : Entries) (key : String) : Option Entry :=
  (List.find? (fun e => e.1 == key) es).map (·.2)

def erase (es : Entries) (key : String) : Entries := es.filter fun e => e.1 != key

def insert (es : Entries) (key : String) (e : Entry) : Entries :=
  let rest := es.erase key
  rest.takeWhile (·.1 < key) ++ (key, e) :: rest.dropWhile (·.1 < key)

/-- The value of a live entry. -/
def live? (es : Entries) (now : Int) (key : String) : Option String :=
  ((es.find? key).filter fun e => !e.isExpired now).map (·.value)

/-- The keys of the live entries that begin with `start`. -/
def liveKeys (es : Entries) (now : Int) (start : String) : List String :=
  (es.filter fun e => Text.startsWith e.1 start && !e.2.isExpired now).map (·.1)

def liveCount (es : Entries) (now : Int) : Nat := (es.filter fun e => !e.2.isExpired now).length

def decode : Decoder Entries := .map Entry.decode

def toJson (es : Entries) : Json := .obj (es.map fun e => (e.1, e.2.toJson))

end Entries

end ScreenFlow

/-! ### In memory -/

namespace ScreenFlow.MemoryStore

def get (es : Entries) (now : Int) (key : String) : Option String × Entries :=
  match es.find? key with
  | some e => if e.isExpired now then (none, es.erase key) else (some e.value, es)
  | none => (none, es)

def set (es : Entries) (now : Int) (key value : String) (ttl : Option Duration) : Entries :=
  es.insert key ⟨value, ttl.map fun d => now + d⟩

/-- Whether there was a live entry, and the contents without it. -/
def delete (es : Entries) (now : Int) (key : String) : Bool × Entries :=
  ((es.live? now key).isSome, es.erase key)

end ScreenFlow.MemoryStore
