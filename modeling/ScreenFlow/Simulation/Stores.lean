import ScreenFlow.Process.Task
import ScreenFlow.Simulation.World
import ScreenFlow.Store.File

/-!
# The stores of a world

A store in memory follows the time of the world. A store in a file follows the clock on the wall, and
waits for the disk whenever its file is read or written.
-/

namespace ScreenFlow.Simulation

namespace StoreState

def isFile (s : StoreState) : Bool :=
  match s.backing with
  | .file _ => true
  | .memory _ => false

/-- What the store keeps of its file; a store in memory has none. -/
def file (s : StoreState) : FileState :=
  match s.backing with
  | .file f => f
  | .memory _ => {}

/-- The contents of a store in memory. -/
def entries (s : StoreState) : Entries :=
  match s.backing with
  | .memory es => es
  | .file _ => []

def modifyFile (s : StoreState) (f : FileState → FileState) : StoreState :=
  match s.backing with
  | .file x => { s with backing := .file (f x) }
  | .memory _ => s

def announce (s : StoreState) (c : StoreChange) : StoreState :=
  { s with changes := s.changes.send c }

end StoreState

namespace World

def modifyStore (w : World) (slot : Slot) (f : StoreState → StoreState) : World :=
  w.setStore (f (w.store slot)) slot

def modifyFile (w : World) (slot : Slot) (f : FileState → FileState) : World :=
  w.modifyStore slot (·.modifyFile f)

/-- The bytes of a store's file, if there is one. -/
def readStore (w : World) (slot : Slot) : Except StoreError (Option Bytes) :=
  match w.disk.read (w.store slot).file.path with
  | .ok bytes => .ok (some bytes)
  | .error .missing => .ok none
  | .error f => .error (.io f.message)

def onDisk {α : Type} (w : World) (a : Disk.Action α) : Except FileFault α × World :=
  let (result, disk) := w.disk.perform a
  (result, { w with disk })

/-- Writes the file of the shared store behind the store's back, if it can be written. -/
def overwriteStore (w : World) (bytes : Bytes) : World :=
  (w.onDisk (Disk.store w.shared.file.path bytes)).2

/-- Removes the file of the shared store, and tells whether there was one. -/
def removeStore (w : World) : Bool × World :=
  let (result, w) := w.onDisk (Disk.remove w.shared.file.path)
  (result.isOk, w)

/-- Whether a store can keep anything. For one in a file, the folder of the file is made. -/
def storeAvailable (w : World) (slot : Slot) : Bool × World :=
  match (w.store slot).backing with
  | .memory _ => (true, w)
  | .file f =>
    let (available, disk) := w.disk.provide f.path
    (available, { w with disk })

end World

/-! ### A store in a file -/

/-- Waits for the disk. That takes no time, but everything else that can go on does so first. -/
def awaitDisk : Task World Unit :=
  Task.get.bind fun w => .waitUntil (fun x => w.rests < x.rests) (some w.time)

/-- Does one after the other on the disk, up to the first action that fails. -/
def doAll : List (Disk.Action Unit) → Task World (Except FileFault Unit)
  | [] => .done (.ok ())
  | a :: rest => do
    awaitDisk
    match ← .modifyGet (·.onDisk a) with
    | .ok () => doAll rest
    | .error f => return .error f

def readFile (slot : Slot) : Task World (Except StoreError (Option Bytes)) := do
  awaitDisk
  .read (·.readStore slot)

def writeFile (slot : Slot) (bytes : Bytes) : Task World (Except StoreError Unit) := do
  let w ← Task.get
  let result ← doAll (Disk.replacement (w.store slot).file.path bytes)
  return result.mapError fun f => .io f.message

def answerFile (slot : Slot) : (q : FileStore.Ask) → Task World (FileStore.Answer q)
  | .takeTicket => .modifyGet fun w =>
    let (ticket, lock) := (w.store slot).file.lock.take
    (ticket, w.modifyFile slot ({ · with lock }))
  | .turn ticket => .waitUntil (fun w => (w.store slot).file.lock.hasTurn ticket) none
  | .handBack ticket => .modify (·.modifyFile slot fun f => { f with lock := f.lock.handBack ticket })
  | .cached => .read fun w => (w.store slot).file.cache
  | .setCache entries => .modify (·.modifyFile slot ({ · with cache := entries }))
  | .readFile => readFile slot
  | .writeFile bytes => writeFile slot bytes
  | .now => .read (·.wallClock)
  | .announce c => .modify (·.modifyStore slot (·.announce c))

/-- A ticket that was taken is handed back. -/
def undoFile (slot : Slot) : (q : FileStore.Ask) → FileStore.Answer q → Option (World → World)
  | .takeTicket, ticket => some (·.modifyFile slot fun f => { f with lock := f.lock.handBack ticket })
  | _, _ => none

def runFile {α : Type} (slot : Slot) (p : FileStore.Operation α) : Task World α :=
  p.perform (answerFile slot) (undoFile slot)

def askFile (slot : Slot) : (q : Store.Ask) → Task World (Store.Answer q)
  | .get key => runFile slot (FileStore.get key)
  | .set key value ttl => runFile slot (FileStore.set key value ttl)
  | .delete key => runFile slot (FileStore.delete key)
  | .keys start => runFile slot (FileStore.keys start)
  | .isAvailable => .modifyGet (·.storeAvailable slot)

/-! ### A store in memory -/

def memoryAnswer (s : StoreState) (es : Entries) (now : Int) :
    (q : Store.Ask) → Store.Answer q × StoreState
  | .get key =>
    let (found, es) := MemoryStore.get es now key
    (.ok found, { s with backing := .memory es })
  | .set key value ttl =>
    let s := { s with backing := .memory (MemoryStore.set es now key value ttl) }
    (.ok (), s.announce ⟨key, some value⟩)
  | .delete key =>
    let (existed, es) := MemoryStore.delete es now key
    let s := { s with backing := .memory es }
    (.ok existed, if existed then s.announce ⟨key, none⟩ else s)
  | .keys start => (.ok (es.liveKeys now start), s)
  | .isAvailable => (true, s)

def askMemory (slot : Slot) (q : Store.Ask) : Task World (Store.Answer q) :=
  .modifyGet fun w =>
    let s := w.store slot
    let (a, s) := memoryAnswer s s.entries w.time q
    (a, w.setStore s slot)

/-- An operation on the store of a slot. -/
def askStore (slot : Slot) (q : Store.Ask) : Task World (Store.Answer q) :=
  Task.get.bind fun w => if (w.store slot).isFile then askFile slot q else askMemory slot q

end ScreenFlow.Simulation
