import ScreenFlow.Offline.Settings
import ScreenFlow.Offline.Event
import ScreenFlow.Store.Access

/-!
# The offline queue

Queued events stand in the store, in the order of their stamps. Whoever changes the queue passes a
turnstile, reads it, and writes it back. A replay pass works on what it read at its start; when it is
through, the events that failed stay, and so do those that came meanwhile. Only one pass runs at a
time.
-/

namespace ScreenFlow

/-- How far a replay pass has come. -/
structure ReplayProgress where
  completed : Nat
  total : Nat
deriving DecidableEq, Repr, Inhabited

structure ReplayReport where
  succeeded : Nat := 0
  failed : Nat := 0
deriving DecidableEq, Repr, Inhabited

def ReplayReport.toJson (r : ReplayReport) : Json :=
  .obj [("failed", .nat r.failed), ("succeeded", .nat r.succeeded)]

namespace OfflineQueue

inductive Ask where
  | store (q : Store.Ask)
  | takeTicket
  | turn (ticket : Nat)
  | handBack (ticket : Nat)
  /-- The stamp of the last event that was accepted here. -/
  | lastStamp
  | setLastStamp (stamp : Int)
  | wallClock
  /-- Begins a pass and gives its number, unless one is running. -/
  | startPass
  | endPass (pass : Nat)
  | hasReplayer
  | replay (e : OfflineEvent)
  | progress (p : ReplayProgress)
  | pause (d : Duration)
  | registerSync (tag : String)
  /-- Notes the state of the connection and tells the one before. -/
  | switch (online : Bool)

@[reducible] def Answer : Ask → Type
  | .store q => Store.Answer q
  | .takeTicket => Nat
  | .turn _ => Unit
  | .handBack _ => Unit
  | .lastStamp => Int
  | .setLastStamp _ => Unit
  | .wallClock => Int
  | .startPass => Option Nat
  | .endPass _ => Unit
  | .hasReplayer => Bool
  | .replay _ => Except Fault Unit
  | .progress _ => Unit
  | .pause _ => Unit
  | .registerSync _ => Unit
  | .switch _ => Bool

@[reducible] def interface : Interface := ⟨Ask, Answer⟩

abbrev Operation (α : Type) := Process interface α

def ask (q : Ask) : Operation (Answer q) := Process.call (I := interface) q

def exclusively {α : Type} (body : Operation α) : Operation α := do
  let ticket ← ask .takeTicket
  ask (.turn ticket)
  let a ← body
  ask (.handBack ticket)
  return a

/-! ### The stored form -/

/-- Events by stamp; those with equal stamps keep their order. -/
def sortByStamp (es : List OfflineEvent) : List OfflineEvent :=
  es.mergeSort fun a b => decide (a.createdAt ≤ b.createdAt)

def ofText (text : String) : Except OfflineError (List OfflineEvent) :=
  match Json.decodeText (Decoder.list OfflineEvent.decode) text with
  | .ok es => .ok (sortByStamp es)
  | .error e => .error (.corrupt e.message)

def toText (es : List OfflineEvent) : String := (Json.arr (es.map OfflineEvent.toJson)).render

def load (s : OfflineSettings) : Operation (Except OfflineError (List OfflineEvent)) := do
  match ← ask (.store (.get s.queueKey)) with
  | .error e => return .error (.store e)
  | .ok none => return .ok []
  | .ok (some text) => return ofText text

/-- An empty queue is not stored at all. -/
def save (s : OfflineSettings) (es : List OfflineEvent) : Operation (Except OfflineError Unit) := do
  if es.isEmpty then
    let deleted : Except StoreError Bool ← ask (.store (.delete s.queueKey))
    return (deleted.map fun _ => ()).mapError .store
  else
    let written : Except StoreError Unit ← ask (.store (.set s.queueKey (toText es) none))
    return written.mapError .store

/-! ### Queueing -/

/-- The stamp of a new event: the time, but later than every other stamp. -/
def nextStamp (now last : Int) (queued : List OfflineEvent) : Int :=
  let newest := queued.foldl (fun m e => max m e.createdAt) ((queued.head?.map (·.createdAt)).getD 0)
  max (max now (last + 1)) (newest + 1)

/-- Puts an event at the end of the queue. -/
def append (s : OfflineSettings) (e : OfflineEvent) : Operation (Except OfflineError String) := do
  match ← load s with
  | .error f => return .error f
  | .ok queued =>
    let now ← ask .wallClock
    let last ← ask .lastStamp
    let stamp := nextStamp now last queued
    ask (.setLastStamp stamp)
    match ← save s (queued ++ [{ e with createdAt := stamp }]) with
    | .error f => return .error f
    | .ok () => return .ok e.id

/-- Accepts an event; the answer is its id. -/
def enqueue (s : OfflineSettings) (e : OfflineEvent) : Operation (Except OfflineError String) := do
  match ← exclusively (append s e) with
  | .error f => return .error f
  | .ok id =>
    ask (.registerSync s.syncTag)
    return .ok id

/-- The queued events in the order of replay. -/
def pending (s : OfflineSettings) : Operation (Except OfflineError (List OfflineEvent)) := load s

def clear (s : OfflineSettings) : Operation (Except OfflineError Unit) := exclusively (save s [])

/-! ### Replaying -/

/-- What a pass has found out: the failed events, oldest first, and the count of all outcomes. -/
structure Pass where
  failed : List OfflineEvent := []
  report : ReplayReport := {}
deriving Repr, Inhabited

namespace Pass

def succeed (p : Pass) : Pass :=
  { p with report := { p.report with succeeded := p.report.succeeded + 1 } }

def fail (p : Pass) (e : OfflineEvent) : Pass :=
  { failed := p.failed ++ [e], report := { p.report with failed := p.report.failed + 1 } }

end Pass

/-- Replays the events one by one, `done` of `total` being through already. -/
def replayAll (s : OfflineSettings) (total : Nat) : Nat → List OfflineEvent → Pass → Operation Pass
  | _, [], p => return p
  | done, e :: es, p => do
    let p : Pass := match ← ask (.replay e) with
      | .ok () => p.succeed
      | .error _ => p.fail e
    ask (.progress ⟨done + 1, total⟩)
    if !es.isEmpty && s.throttle != 0 then ask (.pause s.throttle)
    replayAll s total (done + 1) es p

/-- What stays in the queue: the failed events, and those that the pass has not seen. -/
def remaining (snapshot failed current : List OfflineEvent) : List OfflineEvent :=
  sortByStamp (failed ++ current.filter fun e => !(snapshot.any (·.id == e.id)))

/-- Writes back what a pass leaves. -/
def conclude (s : OfflineSettings) (snapshot : List OfflineEvent) (p : Pass) :
    Operation (Except OfflineError ReplayReport) :=
  exclusively do
    match ← load s with
    | .error f => return .error f
    | .ok current =>
      match ← save s (remaining snapshot p.failed current) with
      | .error f => return .error f
      | .ok () => return .ok p.report

/-- One pass over the queue. -/
def pass (s : OfflineSettings) : Operation (Except OfflineError ReplayReport) := do
  if !(← ask .hasReplayer) then return .error .noExecutor
  match ← exclusively (load s) with
  | .error f => return .error f
  | .ok snapshot =>
    ask (.progress ⟨0, snapshot.length⟩)
    if snapshot.isEmpty then return .ok {}
    let p ← replayAll s snapshot.length 0 snapshot {}
    conclude s snapshot p

/-- Replays the queue; without a report if a pass is running already. -/
def replay (s : OfflineSettings) : Operation (Except OfflineError (Option ReplayReport)) := do
  match ← ask .startPass with
  | none => return .ok none
  | some n =>
    let result ← pass s
    ask (.endPass n)
    return result.map some

/-- Notes that the connection is there or gone. When it comes back the queue is replayed. -/
def setOnline (s : OfflineSettings) (online : Bool) :
    Operation (Except OfflineError (Option ReplayReport)) := do
  let before ← ask (.switch online)
  if online && !before && s.replayOnReconnect then replay s else return .ok none

/-! ### Kept reads -/

def cacheKey (s : OfflineSettings) (key : String) : String := s.cachePrefix ++ key

def cached (s : OfflineSettings) (key : String) : Operation (Except OfflineError (Option Json)) := do
  let got : Except StoreError (Option String) ← ask (.store (.get (cacheKey s key)))
  return (Store.readJson got).mapError .store

def keep (s : OfflineSettings) (key : String) (value : Json) :
    Operation (Except OfflineError Unit) := do
  let written : Except StoreError Unit ← ask (.store (.set (cacheKey s key) value.render none))
  return written.mapError .store

end OfflineQueue

end ScreenFlow
