import ScreenFlow.FileName

/-!
# Disks

A tree of folders and files as a value. A path is followed part by part, from the root or from the
working folder; each part but the last has to be a folder that is there. An action that fails leaves
behind what it has done by then.
-/

namespace ScreenFlow

/-- The way from the root. -/
abbrev Place := List String

/-- What can stand at a place. -/
inductive DiskEntry where
  | file (bytes : Bytes)
  | folder
  /-- Swallows what is written to it, and has nothing to be read. -/
  | sink
deriving DecidableEq, Repr, Inhabited

structure Disk where
  entries : List (Place × DiskEntry) := [
    (["dev"], .folder), (["dev", "null"], .sink), (["tmp"], .folder), (["tmp", "work"], .folder)]
  /-- Where paths begin that do not begin at the root. -/
  working : Place := ["tmp", "work"]
deriving DecidableEq, Repr, Inhabited

namespace Disk

/-- What stands at a place; the root is a folder. -/
def find? (d : Disk) : Place → Option DiskEntry
  | [] => some .folder
  | place => (d.entries.find? (·.1 == place)).map (·.2)

def erase (d : Disk) (place : Place) : Disk :=
  { d with entries := d.entries.filter (·.1 != place) }

def put (d : Disk) (place : Place) (e : DiskEntry) : Disk :=
  { d with entries := (d.erase place).entries ++ [(place, e)] }

theorem find?_erase (d : Disk) {place : Place} (h : place ≠ []) :
    (d.erase place).find? place = none := by
  cases place with
  | nil => contradiction
  | cons part above => simp [find?, erase]

theorem find?_erase_of_ne (d : Disk) {place other : Place} (h : other ≠ place) :
    (d.erase place).find? other = d.find? other := by
  cases other with
  | nil => rfl
  | cons part above =>
    simp only [find?, erase, List.find?_filter]
    congr 2
    funext e
    by_cases there : e.1 = part :: above <;> simp [there, h]

theorem find?_put (d : Disk) {place : Place} (e : DiskEntry) (h : place ≠ []) :
    (d.put place e).find? place = some e := by
  cases place with
  | nil => contradiction
  | cons part above =>
    have gone := find?_erase d h
    simp only [find?, Option.map_eq_none_iff] at gone
    simp [find?, put, List.find?_append, gone]

theorem find?_put_of_ne (d : Disk) {place other : Place} (e : DiskEntry) (h : other ≠ place) :
    (d.put place e).find? other = d.find? other := by
  rw [← find?_erase_of_ne d h]
  cases other with
  | nil => rfl
  | cons part above => simp [find?, put, List.find?_append, Ne.symm h]

/-! ### Paths -/

/-- A part that can be looked for in a folder. -/
def checkPart (part : String) : Except FileFault Unit :=
  if FileName.maxPart < (Utf8.encode part).length then .error .nameTooLong else .ok ()

/-- Goes on to the folder that a part names. -/
def enter (d : Disk) (place : Place) (part : String) : Except FileFault Place :=
  match part with
  | "." => .ok place
  | ".." => .ok place.dropLast
  | part => do
    checkPart part
    match d.find? (place ++ [part]) with
    | some .folder => return place ++ [part]
    | some _ => throw .notFolder
    | none => throw .missing

/-- Where a path leads: a folder that is there, and the name of something in it. Without a name it is
the folder itself. -/
structure Target where
  folder : Place
  name : Option String
  /-- Whether a slash tells that it is to be a folder. -/
  slash : Bool

def Target.place (t : Target) : Place := t.folder ++ t.name.toList

/-- What stands at a target, if something does. -/
def lookAt (d : Disk) (t : Target) : Except FileFault (Option DiskEntry) := do
  if let some name := t.name then checkPart name
  return d.find? t.place

def locate (d : Disk) (f : FileName) : Except FileFault Target := do
  f.check
  let start := if f.absolute then [] else d.working
  match f.parts.getLast? with
  | none | some "." | some ".." => return ⟨← f.parts.foldlM d.enter start, none, f.slash⟩
  | some name =>
    return ⟨← f.parts.dropLast.foldlM d.enter start, some name, f.slash⟩

def lookUp (d : Disk) (f : FileName) : Except FileFault DiskEntry := do
  let t ← d.locate f
  match ← d.lookAt t with
  | none => throw .missing
  | some .folder => return .folder
  | some e => if t.slash then throw .notFolder else return e

def isFolder (d : Disk) (f : FileName) : Bool := (d.lookUp f).toOption == some .folder

def read (d : Disk) (f : FileName) : Except FileFault Bytes := do
  match ← d.lookUp f with
  | .file bytes => return bytes
  | .sink => return []
  | .folder => throw .isFolder

/-! ### Changes -/

abbrev Action (α : Type) := ExceptT FileFault (StateM Disk) α

/-- Creates a file or replaces its bytes. -/
def write (f : FileName) (bytes : Bytes) : Action Unit := do
  let t ← (← get).locate f
  if t.name.isNone || t.slash then throw .isFolder
  match ← (← get).lookAt t with
  | some .folder => throw .isFolder
  | some .sink => return
  | _ => modify (·.put t.place (.file bytes))

def makeFolder (f : FileName) : Action Unit := do
  let t ← (← get).locate f
  if t.name.isNone || (← (← get).lookAt t).isSome then throw .exists_
  modify (·.put t.place .folder)

/-- Makes a folder unless it is there. -/
def ensureFolder (f : FileName) : Action Unit :=
  tryCatch (makeFolder f) fun fault => do
    if (← get).isFolder f then return else throw fault

/-- Makes a folder and those above it, the last part of the way being the first one tried. -/
def makeFoldersTo (absolute : Bool) : List String → Action Unit
  | [] => return
  | part :: above =>
    let f : FileName := { absolute, parts := (part :: above).reverse }
    tryCatch (ensureFolder f) fun fault => do
      if fault != .missing then throw fault
      makeFoldersTo absolute above
      ensureFolder f

def makeFolders (f : FileName) : Action Unit := makeFoldersTo f.absolute f.steps.reverse

/-- Moves a file to another place, over what stands there. -/
def move (source target : FileName) : Action Unit := do
  let s ← (← get).locate source
  let t ← (← get).locate target
  if s.name.isNone || t.name.isNone then throw .busy
  match ← (← get).lookAt s, ← (← get).lookAt t with
  | none, _ => throw .missing
  | some .folder, _ => throw .isFolder
  | some e, there =>
    if s.slash || t.slash then throw .notFolder
    if there == some .folder then throw .isFolder
    if s.place != t.place then modify fun d => (d.erase s.place).put t.place e

/-- Writes a file together with the folders that it needs. -/
def store (f : FileName) (bytes : Bytes) : Action Unit := do
  makeFolders f.parent
  write f bytes

/-- What is done one after the other to replace a file: it is written under another name first and then
moved to its place, so that whoever reads it finds either all of the old bytes or all of the new ones. -/
def replacement (f : FileName) (bytes : Bytes) : List (Action Unit) :=
  [makeFolders f.draft.parent, write f.draft bytes, move f.draft f]

/-- Removes a file, if it is there. -/
def remove (f : FileName) : Action Unit := do
  let t ← (← get).locate f
  match ← (← get).lookAt t with
  | none => throw .missing
  | some .folder => throw .isFolder
  | some _ => if t.slash then throw .notFolder else modify (·.erase t.place)

/-- The files that stand directly in the working folder. -/
def files (d : Disk) : List (String × Bytes) :=
  d.entries.filterMap fun
    | (place, .file bytes) =>
      match place.getLast? with
      | some name => if place == d.working ++ [name] then some (name, bytes) else none
      | none => none
    | _ => none

/-- Does something on a disk. -/
def perform {α : Type} (d : Disk) (a : Action α) : Except FileFault α × Disk := a.run.run d

/-- Makes the folder in which a path ends, and tells whether it is there then. -/
def provide (d : Disk) (f : FileName) : Bool × Disk :=
  if f.isBare then (false, d)
  else
    let (result, d) := d.perform (makeFolders f.parent)
    (result.isOk, d)

end Disk

end ScreenFlow
