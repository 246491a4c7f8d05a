import ScreenFlow.Simulation.Sending
import ScreenFlow.Simulation.Stores

/-!
# The session of a world
-/

namespace ScreenFlow.Simulation

namespace World

def modifySession (w : World) (f : SessionPart → SessionPart) : World :=
  { w with session := w.session.map f }

def sessionSlot (w : World) : Slot := (w.session.map (·.slot)).getD .session

/-- What the clock of the session shows. -/
def sessionClock (w : World) : Int :=
  match w.session with
  | some s => if s.moves then s.epoch + w.time else s.epoch
  | none => w.wallClock

/-- The session token of the moment: a prepared one, or else the one of the session. -/
def liveToken (w : World) : Option String :=
  match w.tokens with
  | some t => t.token
  | none => (w.session.bind (·.current)).map (·.token)

end World

def answerAuth : (q : Auth.Ask) → Task World (Auth.Answer q)
  | .store q => Task.get.bind fun w => askStore w.sessionSlot q
  | .takeTicket => .modifyGet fun w =>
    match w.session with
    | some s =>
      let (ticket, lock) := s.lock.take
      (ticket, { w with session := some { s with lock } })
    | none => (0, w)
  | .turn ticket => .waitUntil (fun w => w.session.all (·.lock.hasTurn ticket)) none
  | .handBack ticket => .modify (·.modifySession fun s => { s with lock := s.lock.handBack ticket })
  | .session => .read fun w => w.session.bind (·.current)
  | .setSession a => .modify (·.modifySession ({ · with current := a }))
  | .profile => .read fun w => w.session.bind (·.profile)
  | .setProfile p => .modify (·.modifySession ({ · with profile := p }))
  | .now => .read (·.sessionClock)
  | .send r => send r
  | .emit e => .modify (·.modifySession fun s => { s with events := s.events.send e })
  | .toLogin path => .modify fun w =>
    if w.session.any (·.hosted) then w.host (.navigate path true) else w

def undoAuth : (q : Auth.Ask) → Auth.Answer q → Option (World → World)
  | .takeTicket, ticket =>
    some (·.modifySession fun s => { s with lock := s.lock.handBack ticket })
  | _, _ => none

def runAuth {α : Type} (p : Auth.Operation α) : Task World α := p.perform answerAuth undoAuth

/-- An operation on the session, if the world has one. -/
def onSession {α : Type} (f : Auth → Auth.Operation α) : Task World (Option α) :=
  Task.get.bind fun w =>
    match w.session with
    | some s => (runAuth (f s.auth)).bind fun a => .done (some a)
    | none => .done none

/-! ### Tokens for requests -/

/-- The next prepared outcome of a refresh. -/
def Tokens.refresh (t : Tokens) : Except Fault String × Tokens :=
  let t := { t with refreshCalls := t.refreshCalls + 1 }
  match t.refreshes with
  | [] => (.error (.tokenRefresh "no scripted refresh"), t)
  | .ok token :: rest => (.ok token, { t with token := some token, refreshes := rest })
  | .error f :: rest => (.error f, { t with refreshes := rest })

def canRefresh (w : World) : Bool :=
  match w.tokens, w.session with
  | some t, _ => !t.refreshes.isEmpty
  | none, some s => s.auth.canRefresh s.current
  | none, none => false

/-- Gets a new token for a request that was turned away. -/
def refreshToken : Task World (Except Fault String) :=
  Task.get.bind fun w =>
    match w.tokens, w.session with
    | some t, _ => .modifyGet fun w =>
      let (result, t) := t.refresh
      (result, { w with tokens := some t })
    | none, some s => runAuth s.auth.refreshForRequest
    | none, none => .done (.error (.tokenRefresh "no session"))

end ScreenFlow.Simulation
