import Mathlib.Tactic

/-!
# The connections of a TLS server

A `TLSSocketServer` has an array of descriptors for `poll` and a map from client ids to connections.
The number of clients is one counter for all servers of the process. It is the number of the last
entry of the array in use, and the next client id is one more.

## Implementation notes

A connection is its client id and its descriptor, which is `-1` after `Close`.
-/

namespace Netstack.TlsServer

def userLimit : Nat := 10

/-- The events that `poll` reports: `POLLIN`, `POLLRDHUP`, and `POLLERR` or `POLLNVAL`. -/
structure Revents where
  pollIn : Bool := false
  hangUp : Bool := false
  error : Bool := false
  deriving DecidableEq, Repr

structure PollFd where
  fd : Int := 0
  /-- Whether events are asked for. -/
  events : Bool := false
  revents : Revents := {}
  deriving DecidableEq, Repr

/-- A client id and a descriptor. -/
abbrev Connection := Nat × Int

/-- The connection has not been closed. -/
def isLive (c : Connection) : Bool := c.2 ≠ -1

structure Server where
  listenSocketFd : Int := -1
  fds : Nat → PollFd := fun _ => {}
  clientIdConnections : List Connection := []
  reads : List Int := []
  refusals : List Nat := []

/-- `map_[clientID] = connection`. -/
def assign (clientID : Nat) (socketFd : Int) : List Connection → List Connection
  | [] => [(clientID, socketFd)]
  | c :: cs =>
    if clientID < c.1 then (clientID, socketFd) :: c :: cs
    else if clientID = c.1 then (clientID, socketFd) :: cs
    else c :: assign clientID socketFd cs

variable (userCounter : Nat) (s : Server)

namespace Server

def live : List Connection := s.clientIdConnections.filter isLive

def removeConnect (socketFd : Int) (s : Server) : Server :=
  { s with clientIdConnections := s.clientIdConnections.eraseP fun c => c.2 = socketFd }

variable (clientID : Nat)

def addConnect (socketFd : Int) (s : Server) : Server :=
  { s with clientIdConnections := assign clientID socketFd s.clientIdConnections }

variable (index : Nat)

def setFd (entry : PollFd) : Server :=
  { s with fds := Function.update s.fds index entry }

def initPollList : Server := s.setFd 0 { fd := s.listenSocketFd, events := true }

/-- No descriptor is left in the array. -/
def isEmpty (s : Server) : Bool :=
  (List.range (userCounter + 1)).all fun i => (s.fds i).fd ≤ 0

/-- The counter, the index and the server after an entry of the array was handled. -/
structure Dropped where
  userCounter : Nat
  index : Nat
  server : Server
  exitLoop : Bool

/-- The last entry is moved to the index, without its events. -/
def dropFdFromPollList (s : Server) : Dropped :=
  if index = 0 then
    let s := s.setFd 0 { s.fds 0 with fd := -1, events := false }
    { userCounter, index, server := s, exitLoop := s.isEmpty userCounter }
  else
    let s := s.setFd index { s.fds index with fd := (s.fds userCounter).fd }
    let s := s.setFd userCounter { s.fds userCounter with fd := -1, events := false }
    { userCounter := userCounter - 1
      index := index - 1
      server := s
      exitLoop := s.isEmpty (userCounter - 1) }

/-- `RemoveConnect` and `DropFdFromPollList` for an entry of the array. -/
def hangUp (s : Server) : Dropped :=
  (s.removeConnect (s.fds index).fd).dropFdFromPollList userCounter index

/-- `RecvRemoteInfo`; `len` is what `Recv` returns, if there is a connection to call it on. -/
def recvRemoteInfo (len : Int) (s : Server) : Dropped :=
  let socketFd := (s.fds index).fd
  match s.clientIdConnections.find? fun c => c.2 = socketFd with
  | none => s.hangUp userCounter index
  | some _ =>
    let s := { s with reads := s.reads ++ [socketFd] }
    if 0 < len then { userCounter, index, server := s, exitLoop := false }
    else s.hangUp userCounter index

/-- `SetTlsConnectionSecureOptions`; `handshake` is the result of `TlsAcceptToHost`. -/
def setTlsConnectionSecureOptions (connectFD : Int) (handshake : Bool)
    (s : Server) : Nat × Server :=
  if !handshake then (userCounter, s)
  else if userLimit ≤ userCounter then
    (userCounter, { s with refusals := s.refusals ++ [s.live.length] })
  else
    let s := s.setFd (userCounter + 1) { fd := connectFD, events := true }
    (userCounter + 1, s.addConnect clientID connectFD)

def processTcpAccept (connectFD : Int) (handshake : Bool) (s : Server) : Nat × Server :=
  s.setTlsConnectionSecureOptions userCounter (userCounter + 1) connectFD handshake

/-- `Close` of the application: the connection stays in the map. -/
def close (s : Server) : Server :=
  { s with
    clientIdConnections := s.clientIdConnections.map fun c =>
      if c.1 = clientID then (c.1, -1) else c }

end Server

/-! ### Operations -/

inductive Event where
  | listen (listenFd : Int)
  | accept (connectFD : Int) (handshake : Bool)
  | hangUp (index : Nat)
  | recv (index : Nat) (len : Int)
  | close (clientID : Nat)
  deriving DecidableEq, Repr

/-- `poll` reports on the entries that are in use, and `accept` returns a descriptor that is not
open. -/
def Event.Possible (isOpen : Int → Prop) : Event → Prop
  | .accept connectFD _ => 0 ≤ connectFD ∧ ¬ isOpen connectFD
  | .hangUp index => index ≤ userCounter
  | .recv index _ => index ≤ userCounter
  | _ => True

instance (isOpen : Int → Prop) [DecidablePred isOpen] (e : Event) :
    Decidable (e.Possible userCounter isOpen) := by
  cases e <;> dsimp only [Event.Possible] <;> infer_instance

namespace Server

def handle (s : Server) : Event → Nat × Server
  | .listen listenFd =>
    (userCounter, { s with listenSocketFd := listenFd }.initPollList)
  | .accept connectFD handshake => s.processTcpAccept userCounter connectFD handshake
  | .hangUp index =>
    let d := s.hangUp userCounter index
    (d.userCounter, d.server)
  | .recv index len =>
    let d := s.recvRemoteInfo userCounter index len
    (d.userCounter, d.server)
  | .close clientID => (userCounter, s.close clientID)

/-- A connection is on this descriptor. -/
def isOpen (fd : Int) : Prop := ∃ c ∈ s.live, c.2 = fd

instance (fd : Int) : Decidable (s.isOpen fd) :=
  inferInstanceAs (Decidable (∃ c ∈ s.live, c.2 = fd))

/-- The map has a connection with this descriptor. -/
def connected (fd : Int) : Prop := ∃ c ∈ s.clientIdConnections, c.2 = fd

instance (fd : Int) : Decidable (s.connected fd) :=
  inferInstanceAs (Decidable (∃ c ∈ s.clientIdConnections, c.2 = fd))

/-- The entry of the array that is dropped: its client hangs up, or there is nothing to receive
from it, or no connection to receive it on. -/
def drops : Event → Option Nat
  | .hangUp index => some index
  | .recv index len =>
    if 0 < len ∧ s.connected (s.fds index).fd then none else some index
  | _ => none

end Server

end Netstack.TlsServer
