import ScreenFlow.Json.Printer
import ScreenFlow.Process.Basic
import ScreenFlow.Store.Entries

/-!
# The store in a file

All entries stand in one file, which is written anew on every change. The entries are cached when the
file is first needed; `reload` reads it again and announces what has changed. Operations pass a
turnstile one by one, but `reload` reads the file before it takes its ticket.
-/

namespace ScreenFlow.FileStore

inductive Ask where
  | takeTicket
  | turn (ticket : Nat)
  | handBack (ticket : Nat)
  | cached
  | setCache (entries : Option Entries)
  /-- The bytes of the file, if there is one. -/
  | readFile
  | writeFile (bytes : Bytes)
  | now
  | announce (change : StoreChange)

@[reducible] def Answer : Ask → Type
  | .takeTicket => Nat
  | .turn _ => Unit
  | .handBack _ => Unit
  | .cached => Option Entries
  | .setCache _ => Unit
  | .readFile => Except StoreError (Option Bytes)
  | .writeFile _ => Except StoreError Unit
  | .now => Int
  | .announce _ => Unit

@[reducible] def interface : Interface := ⟨Ask, Answer⟩

abbrev Operation (α : Type) := Process interface α

def ask (q : Ask) : Operation (Answer q) := Process.call (I := interface) q

def exclusively {α : Type} (body : Operation α) : Operation α := do
  let ticket ← ask .takeTicket
  ask (.turn ticket)
  let a ← body
  ask (.handBack ticket)
  return a

/-- The entries that a file holds; no file and an empty file hold none. -/
def ofBytes : Option Bytes → Except StoreError Entries
  | none | some [] => .ok []
  | some bytes => (Json.decodeBytes Entries.decode bytes).mapError StoreError.ofReadError

def toBytes (es : Entries) : Bytes := Utf8.encode es.toJson.pretty

def readEntries : Operation (Except StoreError Entries) := do
  let bytes ← ask .readFile
  return bytes.bind ofBytes

/-- The cached entries, read from the file if there are none. -/
def entries : Operation (Except StoreError Entries) := do
  match ← ask .cached with
  | some es => return .ok es
  | none =>
    match ← readEntries with
    | .ok es =>
      ask (.setCache (some es))
      return .ok es
    | .error e => return .error e

/-- Replaces the cached entries and then writes them. -/
def store (es : Entries) : Operation (Except StoreError Unit) := do
  ask (.setCache (some es))
  ask (.writeFile (toBytes es))

/-- Lets `f` look at the entries, and replaces them if it tells by what. -/
def withEntries {α : Type} (f : Entries → α × Option Entries) : Operation (Except StoreError α) :=
  exclusively do
    match ← entries with
    | .error e => return .error e
    | .ok es =>
      match f es with
      | (a, none) => return .ok a
      | (a, some changed) =>
        let written ← store changed
        return written.map fun _ => a

/-- The value of a key. An expired entry is removed. -/
def look (now : Int) (key : String) (es : Entries) : Option String × Option Entries :=
  match es.find? key with
  | none => (none, none)
  | some e => if e.isExpired now then (none, some (es.erase key)) else (some e.value, none)

/-- Whether there was a live entry. -/
def remove (now : Int) (key : String) (es : Entries) : Bool × Option Entries :=
  match es.find? key with
  | none => (false, none)
  | some e => (!e.isExpired now, some (es.erase key))

def get (key : String) : Operation (Except StoreError (Option String)) := do
  let now ← ask .now
  withEntries (look now key)

def set (key value : String) (ttl : Option Duration) : Operation (Except StoreError Unit) := do
  let now ← ask .now
  match ← withEntries fun es => ((), some (MemoryStore.set es now key value ttl)) with
  | .error e => return .error e
  | .ok () =>
    ask (.announce ⟨key, some value⟩)
    return .ok ()

def delete (key : String) : Operation (Except StoreError Bool) := do
  let now ← ask .now
  let existed ← withEntries (remove now key)
  if existed.toOption == some true then ask (.announce ⟨key, none⟩)
  return existed

def keys (start : String) : Operation (Except StoreError (List String)) := do
  let now ← ask .now
  withEntries fun es => (es.liveKeys now start, none)

/-- The keys whose live value differs, with their new values. -/
def differences (now : Int) (before after : Entries) : List StoreChange :=
  let keys := (before ++ after.filter fun e => (before.find? e.1).isNone).map (·.1)
  (keys.mergeSort fun a b => decide (a ≤ b)).filterMap fun key =>
    let value := after.live? now key
    if before.live? now key == value then none else some ⟨key, value⟩

def announceAll : List StoreChange → Operation Unit
  | [] => return ()
  | c :: cs => do
    ask (.announce c)
    announceAll cs

/-- Takes over what the file holds now; the answer is the number of keys that changed. -/
def reload : Operation (Except StoreError Nat) := do
  match ← readEntries with
  | .error e => return .error e
  | .ok fresh =>
    exclusively do
      let before ← ask .cached
      let now ← ask .now
      let changes := differences now (before.getD []) fresh
      announceAll changes
      ask (.setCache (some fresh))
      return .ok changes.length

end ScreenFlow.FileStore
