import ScreenFlow.Fault
import ScreenFlow.Http.Headers

/-!
# Sockets held at both ends

Every connection is a pair of queues. A client that connects does not wait for the server; the server
accepts connections in the order in which they were made.
-/

namespace ScreenFlow.Simulation

structure Connection where
  url : String
  protocol : Option String
  headers : Headers
  toClient : List String := []
  toServer : List String := []
  /-- Whether the client still takes frames. -/
  clientReads : Bool := true
  clientHeld : Bool := true
  serverHeld : Bool := true
deriving Repr, Inhabited

structure Sockets where
  connections : Array Connection := #[]
  /-- How many connections the server has accepted. -/
  accepted : Nat := 0
  /-- How many of the next connections are refused. -/
  refusals : Nat := 0
  attempts : Nat := 0
deriving Repr, Inhabited

namespace Sockets

/-- Connects, unless the attempt is refused; the answer is the number of the connection. -/
def connect (s : Sockets) (url : String) (protocol : Option String) (headers : Headers) :
    Except Fault Nat × Sockets :=
  let s := { s with attempts := s.attempts + 1 }
  if 0 < s.refusals then
    (.error (.transport s!"connection to {url} refused"), { s with refusals := s.refusals - 1 })
  else
    (.ok s.connections.size, { s with connections := s.connections.push { url, protocol, headers } })

def modify (s : Sockets) (n : Nat) (f : Connection → Connection) : Sockets :=
  { s with connections := s.connections.modify n f }

/-! ### The client's end -/

def closedByServer : Fault := .transport "server closed the connection"

def sendToServer (s : Sockets) (n : Nat) (text : String) : Except Fault Unit × Sockets :=
  if (s.connections[n]?).any (·.serverHeld) then
    (.ok (), s.modify n fun c => { c with toServer := c.toServer ++ [text] })
  else (.error closedByServer, s)

def close (s : Sockets) (n : Nat) : Sockets := s.modify n fun c => { c with clientReads := false }

def release (s : Sockets) (n : Nat) : Sockets :=
  s.modify n fun c => { c with clientReads := false, clientHeld := false }

/-- The next frame for the client; without one, whether the server has gone. -/
def clientFrame (s : Sockets) (n : Nat) : Option String × Bool :=
  match s.connections[n]? with
  | some c => (c.toClient.head?, !c.serverHeld)
  | none => (none, true)

def dropClientFrame (s : Sockets) (n : Nat) : Sockets :=
  s.modify n fun c => { c with toClient := c.toClient.drop 1 }

/-! ### The server's end -/

def sendToClient (s : Sockets) (n : Nat) (text : String) : Sockets :=
  s.modify n fun c => if c.clientReads then { c with toClient := c.toClient ++ [text] } else c

def hasUnaccepted (s : Sockets) : Bool := s.accepted < s.connections.size

/-- Accepts the oldest connection that waits for it. -/
def accept (s : Sockets) : Option (Nat × Connection) × Sockets :=
  match s.connections[s.accepted]? with
  | some c => (some (s.accepted, c), { s with accepted := s.accepted + 1 })
  | none => (none, s)

/-- Whether the server holds this connection. -/
def isServed (s : Sockets) (n : Nat) : Bool :=
  n < s.accepted && (s.connections[n]?).any (·.serverHeld)

def dropServer (s : Sockets) (n : Nat) : Sockets :=
  s.modify n fun c => { c with serverHeld := false }

/-- The next frame for the server; without one, whether the client has gone. -/
def serverFrame (s : Sockets) (n : Nat) : Option String × Bool :=
  match s.connections[n]? with
  | some c => (c.toServer.head?, !c.clientHeld)
  | none => (none, true)

def dropServerFrame (s : Sockets) (n : Nat) : Sockets :=
  s.modify n fun c => { c with toServer := c.toServer.drop 1 }

end Sockets

end ScreenFlow.Simulation
