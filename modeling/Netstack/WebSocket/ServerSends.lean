import Netstack.Foundation.Mailboxes
import Netstack.WebSocket.ServerStop

/-!
# Messages sent by the server

A message in the queue of a client is written by a writable callback of its connection, one at a
time. Threads that send and the service thread take turns at the accesses to the shared objects.

## Implementation notes

The sends and the callbacks are cut at these accesses. An address is not given to a new connection
while it is live, and a writable callback is made only if it is pending.
-/

namespace Netstack.WebSocket.ServerExec

open Function Foundation

/-- What a thread in `ExecServerSend` has done so far. -/
inductive Sender (κ : Type) where
  | idle
  | named (clientId : Bytes) (data : SendData)
  | foundWsi (wsi : κ) (data : SendData)
  | foundClient (c : Nat) (data : SendData)
  | checked (c : Nat) (data : SendData)
  | pushed (c : Nat)
  deriving DecidableEq, Repr

/-- The callback that the service thread is in, if it is cut. -/
inductive Service (κ : Type) where
  | idle
  | bound (wsi : κ) (c : Nat) (peer : Option WebSocketConnection)
  | listed (wsi : κ) (c : Nat)
  | addressed (wsi : κ) (c : Nat)
  | wrote (wsi : κ) (c : Nat)
  deriving DecidableEq, Repr

structure System (κ ι : Type) where
  manager : Manager κ
  live : κ → Bool := fun _ => false
  service : Service κ := .idle
  sender : ι → Sender κ := fun _ => .idle
  /-- The messages pushed into each session. -/
  posted : Nat → List SendData := fun _ => []

inductive Event (κ ι : Type) where
  | send (i : ι) (connection : WebSocketConnection) (data : SendData)
  | proceed (i : ι)
  | callback (cb : Callback κ) (ret : Int)
  | resume (ret : Int)

namespace System

variable {κ ι : Type} [DecidableEq κ] [DecidableEq ι]

variable (s : System κ ι)

def setSender (i : ι) (sender : Sender κ) : System κ ι :=
  { s with sender := update s.sender i sender }

def push (s : System κ ι) (i : ι) (c : Nat) (data : SendData) : System κ ι :=
  { s with
    manager := s.manager.setSession c ((s.manager.sessions c).push data)
    sender := update s.sender i (.pushed c)
    posted := update s.posted c (s.posted c ++ [data]) }

def trigger (i : ι) (c : Nat) : System κ ι :=
  { s with
    manager := s.manager.triggerClient c
    sender := update s.sender i .idle }

/-- The next access of a thread that sends. -/
def proceed (i : ι) : Option (System κ ι) :=
  match s.sender i with
  | .idle => none
  | .named clientId data =>
    match s.manager.webSocketConnection[clientId]? with
    | none => some (s.setSender i .idle)
    | some (wsi, _) => some (s.setSender i (.foundWsi wsi data))
  | .foundWsi wsi data =>
    match s.manager.userDataMap wsi with
    | none => some (s.setSender i .idle)
    | some c => some (s.setSender i (.foundClient c data))
  | .foundClient c data =>
    if (s.manager.sessions c).closed ∨ (s.manager.sessions c).threadStop then
      some (s.setSender i .idle)
    else some (s.setSender i (.checked c data))
  | .checked c data => some (s.push i c data)
  | .pushed c => some (s.trigger i c)

/-- The connection is no longer there for the callbacks of its client. -/
def drop (wsi : κ) (m : Manager κ) : System κ ι :=
  { s with manager := m, live := update s.live wsi false }

def writeable (wsi : κ) (ret : Int) : System κ ι :=
  let called := s.manager.takeWritable wsi
  match s.manager.userDataMap wsi with
  | none => s.drop wsi (called.lwsCallbackServerWriteable wsi ret).2
  | some c =>
    if s.manager.userData.threadStop ∨ (s.manager.sessions c).closed then
      s.drop wsi (called.lwsCallbackServerWriteable wsi ret).2
    else
      match called.writeFirst c with
      | none => { s with manager := (called.lwsCallbackServerWriteable wsi ret).2 }
      | some m => { s with manager := m, service := .wrote wsi c }

def bind (wsi : κ) (peer : Option WebSocketConnection) : System κ ι :=
  { s with
    manager := s.manager.addClientUserData wsi
    service := .bound wsi s.manager.sessionCount peer }

def list (wsi : κ) (c : Nat) (connection : WebSocketConnection) : System κ ι :=
  { s with
    manager := s.manager.addConnections connection.clientId wsi connection
    service := .listed wsi c }

def address (wsi : κ) (c : Nat) : System κ ι :=
  { s with
    manager := s.manager.setClientLws c wsi
    service := .addressed wsi c }

def establish (wsi : κ) (c : Nat) (ret : Int) : System κ ι :=
  { s with
    manager := (((s.manager.triggerClient c).onConnect wsi).httpDummy ret).2
    live := update s.live wsi true
    service := .idle }

/-- A callback that libwebsockets makes. -/
def callback (cb : Callback κ) (ret : Int) : Option (System κ ι) :=
  match cb with
  | .established wsi peer =>
    if s.live wsi then none
    else some (s.bind wsi peer)
  | .serverWriteable wsi =>
    if s.live wsi ∧ s.manager.writables wsi then some (s.writeable wsi ret) else none
  | .closed wsi => some (s.drop wsi (s.manager.lwsCallbackClosed wsi ret).2)
  | cb => some { s with manager := (lwsServerCallback s.manager ret cb).2 }

/-- The service thread goes on with a callback that was cut. -/
def resume (ret : Int) : Option (System κ ι) :=
  match s.service with
  | .idle => none
  | .bound _ _ none => some { s with manager := s.manager.raiseServerError.2, service := .idle }
  | .bound wsi c (some connection) => some (s.list wsi c connection)
  | .listed wsi c => some (s.address wsi c)
  | .addressed wsi c => some (s.establish wsi c ret)
  | .wrote _ c =>
    some { s with manager := ((s.manager.triggerRest c).httpDummy ret).2, service := .idle }

def step : Event κ ι → Option (System κ ι)
  | .send i connection data =>
    if s.sender i = .idle then
      if connection.clientIP = [] then some s
      else some (s.setSender i (.named connection.clientId data))
    else none
  | .proceed i => s.proceed i
  | .callback cb ret => if s.service = .idle then s.callback cb ret else none
  | .resume ret => s.resume ret

end System

end Netstack.WebSocket.ServerExec
