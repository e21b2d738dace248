import Netstack.Foundation.Execution
import Netstack.WebSocketNative.Client

/-!
# Runs of the native WebSocket client

Calls of the application, callbacks of libwebsockets and the ends of service threads, in any order
that they can come in.

## Implementation notes

The application makes one call at a time. A thread that `ConnectEx` has started is detached and
takes away whatever context the client has when it ends. The links and the record are a history.
-/

namespace Netstack.WebSocketClient

open Foundation

inductive Phase where
  | connecting
  | established
  | closed
  deriving DecidableEq, Repr

/-- A connection that libwebsockets has, and the fragments of the message it is receiving. -/
structure Link (κ : Type) where
  wsi : κ
  context : Nat
  phase : Phase := .connecting
  /-- A callback has answered -1. -/
  doomed : Bool := false
  fragments : List Bytes := []
  /-- What the application was told with these fragments. -/
  told : List Call := []
  deriving DecidableEq

/-- A fragment with those before it in its message, the calls it caused, and those that the message
has caused with it. -/
structure Receipt where
  fragments : List Bytes
  isFinal : Bool
  reports : Bool
  calls : List Call
  told : List Call
  deriving DecidableEq

/-- A call of `Connect` or `ConnectEx`. -/
structure Attempt (κ : Type) where
  ex : Bool
  env : Environment κ
  url : Bytes
  options : OpenOptions

/-- The call that waits for the service thread. -/
inductive Waiting (κ : Type) where
  | idle
  | closing
  | destroying
  | connecting (env : Environment κ) (url : Bytes) (options : OpenOptions)

structure System (κ : Type) where
  client : Client κ := {}
  links : List (Link κ) := []
  /-- The contexts that detached threads serve. -/
  detached : List Nat := []
  waiting : Waiting κ := .idle
  /-- The call that has just returned success. -/
  justConnected : Option (Attempt κ) := none
  receipts : List Receipt := []

inductive Event (κ : Type) where
  | connect (env : Environment κ) (url : Bytes) (options : OpenOptions)
  | connectEx (env : Environment κ) (url : Bytes) (options : OpenOptions)
  | send (data : Option Bytes)
  | sendEx (permission : Bool) (data : Option Bytes)
  | close (code : UInt32) (reason : Option Bytes)
  | closeEx (permission : Bool) (code : UInt32) (reason : Option Bytes)
  | destroy
  | proceed
  | threadEnd (context : Nat)
  | appendHandshakeHeader (wsi : κ) (takes : Bytes → Bytes → Bool)
  | connectionError (wsi : κ) (data : Option Bytes)
  | filterPreEstablish (wsi : κ) (response : UInt32) (statusLine protocol : Option Bytes)
      (responseHeader : Std.ExtTreeMap Bytes Bytes)
  | established (wsi : κ)
  | receive (wsi : κ) (data : Option Bytes) (isFinal : Bool)
  | writable (wsi : κ)
  | wsPeerInitiatedClose (wsi : κ) (payload : Bytes)
  | closed (wsi : κ)
  | wsiDestroy (wsi : κ)

namespace System

variable {κ : Type}

section Calls

variable (s : System κ)

def setClient (client : Client κ) : System κ :=
  { s with client, justConnected := none }

/-- A call returns, or goes on to wait for the service thread. -/
def waitUnless (answer : Option Int × Client κ) (waiting : Waiting κ) : System κ :=
  match answer.1 with
  | some _ => s.setClient answer.2
  | none => { s.setClient answer.2 with waiting }

/-- The connection that an attempt makes if it succeeds. -/
def newLinks (env : Environment κ) : List (Link κ) :=
  match env.wsi, env.context with
  | some wsi, some context => [{ wsi, context }]
  | _, _ => []

/-- An attempt to connect returns. -/
def connected (a : Attempt κ) (answer : Int × Client κ) : System κ :=
  if answer.1 = websocketNoneErr then
    { s with
      client := answer.2
      links := s.links ++ newLinks a.env
      detached := if a.ex then s.detached ++ a.env.context.toList else s.detached
      waiting := .idle
      justConnected := some a }
  else { s.setClient answer.2 with waiting := .idle }

/-- The context and the address that libwebsockets gives are not in use. -/
def Available (env : Environment κ) : Prop :=
  (∀ l ∈ s.links, env.wsi ≠ some l.wsi ∧ env.context ≠ some l.context) ∧
    ∀ n ∈ s.detached, env.context ≠ some n

/-- The service thread has ended and the connections of its context are destroyed. -/
def Joinable : Prop :=
  (s.client.serviceThread.isSome = true → s.client.clientContext.threadStop = true) ∧
    ∀ l ∈ s.links, s.client.serviceThread ≠ some l.context

instance : Decidable s.Joinable := by
  unfold Joinable
  infer_instance

variable [DecidableEq κ]

instance (env : Environment κ) : Decidable (s.Available env) := by
  unfold Available
  infer_instance

def release (s : System κ) : System κ :=
  { s.setClient s.client.release with waiting := .idle }

def proceed : Option (System κ) :=
  match s.waiting with
  | .idle => none
  | .closing => if s.Joinable then some s.release else none
  | .destroying => if s.Joinable then some s.release else none
  | .connecting env url options =>
    if s.Joinable ∧ s.Available env then
      some (s.connected ⟨false, env, url, options⟩ (s.client.connectFinish env url))
    else none

def connectEx (s : System κ) (env : Environment κ) (url : Bytes) (options : OpenOptions) :
    System κ :=
  s.connected ⟨true, env, url, options⟩ (s.client.connectEx env url options)

def isIdle : Bool :=
  match s.waiting with
  | .idle => true
  | _ => false

def threadEnd (n : Nat) : System κ :=
  { s.setClient (s.client.mapContext fun x => x.setContext none) with
    detached := s.detached.erase n }

end Calls

section Callbacks

variable [DecidableEq κ]

variable (s : System κ)

def replaceLink (l l' : Link κ) : System κ :=
  { s with links := s.links.map fun x => if x = l then l' else x }

/-- A callback for a connection in the given phase, from the thread that serves its context. -/
def withLink (wsi : κ) (phase : Phase) (next : Link κ → System κ) : Option (System κ) :=
  match s.links.find? fun l => l.wsi = wsi with
  | none => none
  | some l =>
    if l.phase = phase ∧ l.doomed = false ∧
        (s.client.serviceThread = some l.context ∨ l.context ∈ s.detached) then
      some (next l)
    else none

/-- A callback for a connection that comes to its end, from any thread. -/
def withEnding (wsi : κ) (phases : List Phase) (next : Link κ → System κ) : Option (System κ) :=
  match s.links.find? fun l => l.wsi = wsi with
  | none => none
  | some l => if l.phase ∈ phases then some (next l) else none

variable (l : Link κ)

/-- The client after a callback, and the link with its answer. -/
def answered (answer : Int × Client κ) : System κ :=
  if answer.1 < 0 then (s.setClient answer.2).replaceLink l { l with doomed := true }
  else s.setClient answer.2

/-- A connection that is established has received nothing. -/
def opened : Link κ :=
  { wsi := l.wsi, context := l.context, phase := .established }

def established : System κ :=
  (s.setClient (s.client.lwsCallbackClientEstablished l.wsi).2).replaceLink l (opened l)

variable (data : Option Bytes)

/-- The link after a fragment. -/
def advance (isFinal : Bool) (calls : List Call) : Link κ :=
  if isFinal then { l with fragments := [], told := [] }
  else { l with fragments := l.fragments ++ [data.getD []], told := l.told ++ calls }

def receive (isFinal : Bool) : System κ :=
  let client := (s.client.lwsCallbackClientReceive data isFinal).2
  let calls := client.calls.drop s.client.calls.length
  { (s.setClient client).replaceLink l (advance l data isFinal calls) with
    receipts := s.receipts ++
      [⟨l.fragments ++ [data.getD []], isFinal, s.client.registered.onError, calls,
        l.told ++ calls⟩] }

def connectionError : System κ :=
  (s.setClient (s.client.lwsCallbackClientConnectionError data).2).replaceLink l
    { l with phase := .closed }

def closed (s : System κ) (l : Link κ) : System κ :=
  (s.setClient s.client.lwsCallbackClientClosed.2).replaceLink l { l with phase := .closed }

def wsiDestroy : System κ :=
  { s.setClient s.client.lwsCallbackWsiDestroy.2 with links := s.links.filter fun x => x ≠ l }

end Callbacks

variable [DecidableEq κ]

def step (s : System κ) : Event κ → Option (System κ)
  | .connect env url options =>
    if s.isIdle then
      some (s.waitUnless (s.client.connectStart env options) (.connecting env url options))
    else none
  | .connectEx env url options =>
    if s.isIdle ∧ s.Available env then some (s.connectEx env url options) else none
  | .send data => if s.isIdle then some (s.setClient (s.client.send data).2) else none
  | .sendEx permission data =>
    if s.isIdle then some (s.setClient (s.client.sendEx permission data).2) else none
  | .close code reason =>
    if s.isIdle then some (s.waitUnless (s.client.closeStart code reason) .closing) else none
  | .closeEx permission code reason =>
    if s.isIdle then some (s.setClient (s.client.closeEx permission code reason).2) else none
  | .destroy => if s.isIdle then some (s.waitUnless s.client.destroyStart .destroying) else none
  | .proceed => s.proceed
  | .threadEnd n => if n ∈ s.detached then some (s.threadEnd n) else none
  | .appendHandshakeHeader wsi takes =>
    s.withLink wsi .connecting fun l =>
      s.answered l (s.client.lwsCallbackClientAppendHandshakeHeader wsi takes)
  | .connectionError wsi data => s.withEnding wsi [.connecting] fun l => s.connectionError l data
  | .filterPreEstablish wsi response statusLine protocol responseHeader =>
    s.withLink wsi .connecting fun _ =>
      s.setClient (s.client.lwsCallbackClientFilterPreEstablish response statusLine protocol
        responseHeader).2
  | .established wsi => s.withLink wsi .connecting fun l => s.established l
  | .receive wsi data isFinal => s.withLink wsi .established fun l => s.receive l data isFinal
  | .writable wsi =>
    if s.client.writables wsi then
      s.withLink wsi .established fun l =>
        s.answered l ((s.client.takeWritable wsi).lwsCallbackClientWritable wsi)
    else none
  | .wsPeerInitiatedClose wsi payload =>
    s.withLink wsi .established fun _ =>
      s.setClient (s.client.lwsCallbackWsPeerInitiatedClose payload).2
  | .closed wsi => s.withEnding wsi [.established] fun l => s.closed l
  | .wsiDestroy wsi => s.withEnding wsi [.connecting, .closed] fun l => s.wsiDestroy l

theorem withLink_eq_some {s t : System κ} {wsi : κ} {phase : Phase} {next : Link κ → System κ}
    (h : s.withLink wsi phase next = some t) : ∃ l ∈ s.links, l.phase = phase ∧ next l = t := by
  unfold withLink at h
  grind

theorem withEnding_eq_some {s t : System κ} {wsi : κ} {phases : List Phase}
    {next : Link κ → System κ} (h : s.withEnding wsi phases next = some t) :
    ∃ l ∈ s.links, l.phase ∈ phases ∧ next l = t := by
  unfold withEnding at h
  grind

end System

section Samples

/-- An attempt to connect to `wss://example.com/chat` that succeeds. -/
def sampleEnvironment (context wsi : Nat) : Environment Nat where
  lwsParseUri _ := some ⟨ascii "wss", ascii "example.com", 443, ascii "chat"⟩
  context := some context
  wsi := some wsi

def sampleUrl : Bytes := ascii "wss://example.com/chat"

/-- The client connects, and the connection is established. -/
def sampleConnect (context wsi : Nat) (options : OpenOptions) : List (Event Nat) :=
  [.connect (sampleEnvironment context wsi) sampleUrl options, .proceed,
    .appendHandshakeHeader wsi fun _ _ => true,
    .filterPreEstablish wsi 101 (some (ascii "HTTP/1.1 101 Switching Protocols")) none ∅,
    .established wsi]

/-- The connection is lost. -/
def sampleLoss (wsi : Nat) : List (Event Nat) := [.closed wsi, .wsiDestroy wsi]

end Samples

end Netstack.WebSocketClient
