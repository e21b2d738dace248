import Netstack.Foundation.Execution

/-!
# The TCP server

`Listen` starts a thread that accepts clients, and that thread starts one for each client. `Close`
stops the threads and waits for the first of them, which waits for the others.

## Implementation notes

The threads go on one statement at a time, as far as it touches something shared. `Listen` is called
only while nothing is going on. `returns` has what was left each time that `Close` succeeded. A
connection and its thread are known by their place in `clients`. The map has them under an id that
comes again after 2^32 clients. The permission is asked for again in many places, each time with an
answer of its own; a call of `Listen`, `SetExtraOptions` or `Close` that is denied is no event.
-/

namespace Netstack.Socket

open Function Foundation.Execution List Option

/-- The options and the clients of each listening descriptor. -/
structure SocketConfig (Opt : Type*) where
  tcpExtraOptions : Int → Option Opt := fun _ => none
  tcpClients : Int → Option (Finset Nat) := fun _ => none

namespace SocketConfig

variable {Opt : Type*} (config : SocketConfig Opt)

def setTcpExtraOptions (listenFd : Int) (option : Opt) : SocketConfig Opt :=
  { config with
    tcpExtraOptions := update config.tcpExtraOptions listenFd (some option) }

/-- An entry that is there already stays as it is. -/
def addNewListenSocket (listenFd : Int) : SocketConfig Opt :=
  { config with
    tcpClients := update config.tcpClients listenFd
      (some ((config.tcpClients listenFd).getD ∅)) }

def addNewAcceptSocket (listenFd : Int) (acceptFd : Nat) : SocketConfig Opt :=
  { config with
    tcpClients := update config.tcpClients listenFd
      ((config.tcpClients listenFd).map (insert acceptFd)) }

def removeAcceptSocket (acceptFd : Nat) : SocketConfig Opt :=
  { config with tcpClients := fun listenFd => (config.tcpClients listenFd).map (·.erase acceptFd) }

def removeServerSocket (listenFd : Int) : SocketConfig Opt where
  tcpExtraOptions := update config.tcpExtraOptions listenFd none
  tcpClients := update config.tcpClients listenFd none

def getClients (listenFd : Int) : Finset Nat :=
  (config.tcpClients listenFd).getD ∅

/-- Nothing is known under the number. -/
def Lacks (fd : Int) : Prop :=
  config.tcpExtraOptions fd = none ∧ config.tcpClients fd = none

section Lacks

variable {config : SocketConfig Opt} {key listenFd : Int}

section

variable (h : config.Lacks key)
include h

theorem Lacks.setTcpExtraOptions (hne : key ≠ listenFd)
    (option : Opt) : (config.setTcpExtraOptions listenFd option).Lacks key :=
  ⟨(update_of_ne hne _ _).trans h.1, h.2⟩

theorem Lacks.addNewListenSocket (hne : key ≠ listenFd) :
    (config.addNewListenSocket listenFd).Lacks key :=
  ⟨h.1, (update_of_ne hne _ _).trans h.2⟩

theorem Lacks.addNewAcceptSocket (listenFd : Int) (acceptFd : Nat) :
    (config.addNewAcceptSocket listenFd acceptFd).Lacks key := by
  refine ⟨h.1, ?_⟩
  by_cases hkey : key = listenFd
  · subst hkey
    simp [SocketConfig.addNewAcceptSocket, h.2]
  · exact (update_of_ne hkey _ _).trans h.2

theorem Lacks.removeAcceptSocket (acceptFd : Nat) :
    (config.removeAcceptSocket acceptFd).Lacks key := by
  refine ⟨h.1, ?_⟩
  simp [SocketConfig.removeAcceptSocket, h.2]

end

/-- Removing the only listening descriptor leaves nothing. -/
theorem lacks_removeServerSocket (h : ∀ key, key ≠ listenFd → config.Lacks key) :
    (config.removeServerSocket listenFd).Lacks key := by
  by_cases hkey : key = listenFd
  · subst hkey
    exact ⟨update_self _ _ _, update_self _ _ _⟩
  · exact ⟨(update_of_ne hkey _ _).trans (h key hkey).1,
      (update_of_ne hkey _ _).trans (h key hkey).2⟩

theorem getClients_addNewListenSocket (h : config.Lacks key) :
    (config.addNewListenSocket key).getClients key = ∅ := by
  simp [SocketConfig.addNewListenSocket, getClients, h.2]

end Lacks

end SocketConfig

/-- Where `ClientHandler` is: `CleanupClientConnection` has found a connection and read its
number. -/
inductive Handler where
  | absent
  | created
  | looking
  | receiving
  | cleaning
  | closing (connection connectFd : Option Nat)
  | removing (connectFd : Option Nat)
  | deregistering (connectFd : Option Nat)
  | ended
  deriving DecidableEq

/-- The thread will still remove the connection, if it does not leave its loop by itself. -/
def Handler.willRemove : Handler → Bool
  | .absent | .deregistering _ | .ended => false
  | _ => true

/-- The thread is not running. -/
def Handler.idle : Handler → Bool
  | .absent | .ended => true
  | _ => false

theorem Handler.idle_of_willRemove {p : Handler} (h : p.willRemove = true) : p.idle = false := by
  cases p with
  | absent | deregistering | ended => exact nomatch h
  | _ => rfl

structure TCPClient where
  clientId : UInt32
  socketFd : Option Nat := none
  inMap : Bool := true
  handler : Handler := .absent
  deriving DecidableEq

namespace TCPClient

/-- The map has the connection under the id. -/
def isEntry (clientId : UInt32) (c : TCPClient) : Bool := c.inMap && c.clientId == clientId

def close (granted : Bool) (c : TCPClient) : TCPClient :=
  if granted then { c with socketFd := none } else c

def getSocketFd (granted : Bool) (c : TCPClient) : Option Nat :=
  if granted then c.socketFd else none

end TCPClient

/-- Where `DoAcceptLoop` is, with the client that it works on. -/
inductive Acceptor where
  | created
  | starting
  | marking
  | looking
  | accepting
  | removing
  | adding (connectFd : Nat)
  | setting (client connectFd : Nat)
  | registering (client connectFd : Nat)
  | creating (client : Nat)
  | joining
  | ended
  deriving DecidableEq

namespace Acceptor

/-- `isAcceptExit_` still says that there is no thread. -/
def early : Acceptor → Bool
  | .created | .starting | .marking => true
  | _ => false

def hasLeft : Acceptor → Bool
  | .joining | .ended => true
  | _ => false

/-- The client has an entry in the map and no thread yet. -/
def holds : Acceptor → Nat → Bool
  | .setting client _, other | .registering client _, other | .creating client, other =>
    client = other
  | _, _ => false

end Acceptor

/-- What a call of the thread that accepts gives: `accept`, or the permission check of
`GetSocketFd` before the loop. -/
inductive Accepted where
  | client (connectFd : Nat)
  | interrupted
  | failed
  | denied
  deriving DecidableEq

/-- Where `Close` is. -/
inductive Closing where
  | entered
  | stopping
  | shutting
  | closing
  | forgetting
  | marking
  | closingAll
  | waiting
  deriving DecidableEq

/-- `listenFd_` was overwritten. -/
def Closing.late : Closing → Bool
  | .marking | .closingAll | .waiting => true
  | _ => false

/-- What there is when `Close` returns. -/
structure Remains (Opt : Type*) where
  connectionMap : List UInt32
  config : SocketConfig Opt

/-- Nothing is left, and so whatever number the next `Listen` gets, it finds neither clients nor
options. -/
def Remains.Clean {Opt : Type*} (r : Remains Opt) : Prop :=
  r.connectionMap = [] ∧ (∀ fd, r.config.Lacks fd) ∧
    ∀ fd, (r.config.addNewListenSocket fd).getClients fd = ∅ ∧
      (r.config.addNewListenSocket fd).tcpExtraOptions fd = none

structure TCPSocketServer (Opt : Type*) where
  listenFd : Int := -1
  /-- The listening socket takes clients. -/
  listening : Bool := false
  isRunning : Bool := false
  isClosed : Bool := false
  isAcceptExit : Bool := true
  config : SocketConfig Opt := {}
  userCounter : UInt32 := 0
  clients : List TCPClient := []
  acceptor : Acceptor := .ended
  closers : List Closing := []
  returns : List (Remains Opt) := []

namespace TCPSocketServer

variable {Opt : Type*}

/-- The answers of an event are those of `accept`, `PollAndRecvData` and the permission checks. -/
inductive Event (Opt : Type*) where
  | listen (fd : Nat)
  | setExtraOptions (option : Opt)
  | close
  | advanceClose (i : Nat) (granted : UInt32 → Bool)
  | advanceAccept (accepted : Accepted)
  | advanceHandler (client : Nat) (answer : Bool)

variable (s : TCPSocketServer Opt)

def connectionMap : List UInt32 :=
  (s.clients.filter (·.inMap)).map (·.clientId)

def onClient (client : Nat) (f : TCPClient → TCPClient) : TCPSocketServer Opt :=
  { s with clients := s.clients.modify client f }

/-- A change of the connection that the map has under the id. -/
def onEntry (clientId : UInt32) (f : TCPClient → TCPClient) : TCPSocketServer Opt :=
  { s with clients := s.clients.map fun c => if c.isEntry clientId then f c else c }

/-- The connection takes the place of one with the same id. -/
def addConnection (clientId : UInt32) : TCPSocketServer Opt :=
  let t := s.onEntry clientId ({ · with inMap := false })
  { t with clients := t.clients ++ [{ clientId }] }

def acceptStep (accepted : Accepted) : Acceptor → Option (TCPSocketServer Opt)
  | .created =>
    if accepted = .denied ∨ s.listenFd < 0 then some { s with acceptor := .ended }
    else some { s with acceptor := .starting }
  | .starting => some { s with isRunning := true, acceptor := .marking }
  | .marking => some { s with isAcceptExit := false, acceptor := .looking }
  | .looking =>
    if s.isRunning then some { s with acceptor := .accepting }
    else some { s with acceptor := .joining }
  | .accepting =>
    match accepted with
    | .client connectFd =>
      if s.listening then some { s with acceptor := .adding connectFd } else none
    | .interrupted => some { s with acceptor := .looking }
    | .failed => some { s with acceptor := .removing }
    | .denied => none
  | .removing =>
    some { s with config := s.config.removeServerSocket s.listenFd, acceptor := .joining }
  | .adding connectFd =>
    some { s.addConnection (s.userCounter + 1) with
      userCounter := s.userCounter + 1
      acceptor := .setting s.clients.length connectFd }
  | .setting client connectFd =>
    some { s.onClient client ({ · with socketFd := some connectFd }) with
      acceptor := .registering client connectFd }
  | .registering client connectFd =>
    some { s with
      config := s.config.addNewAcceptSocket s.listenFd connectFd
      acceptor := .creating client }
  | .creating client =>
    some { s.onClient client ({ · with handler := .created }) with acceptor := .looking }
  | .joining =>
    if ∀ c ∈ s.clients, c.handler.idle = true then
      some { s with isAcceptExit := true, acceptor := .ended }
    else none
  | .ended => none

/-- `ClientHandler` of a client. -/
def handlerStep (client : Nat) (clientId : UInt32) (answer : Bool) :
    Handler → Option (TCPSocketServer Opt)
  | .absent => none
  | .created =>
    let found := s.clients.any (·.isEntry clientId)
    some (s.onClient client ({ · with handler := if found then .looking else .ended }))
  | .looking =>
    some (s.onClient client ({ · with handler := if s.isRunning then .receiving else .ended }))
  | .receiving =>
    some (s.onClient client ({ · with handler := if answer then .looking else .cleaning }))
  | .cleaning =>
    let connection := s.clients.findIdx? (·.isEntry clientId)
    let connectFd := (connection.bind (s.clients[·]?)).bind (·.getSocketFd answer)
    some (s.onClient client ({ · with handler := .closing connection connectFd }))
  | .closing connection connectFd =>
    let closed := match connection with
      | some connection => s.onClient connection (·.close answer)
      | none => s
    some (closed.onClient client ({ · with handler := .removing connectFd }))
  | .removing connectFd =>
    let removed := s.onEntry clientId fun c => { c.close answer with inMap := false }
    some (removed.onClient client ({ · with handler := .deregistering connectFd }))
  | .deregistering connectFd =>
    some { s.onClient client ({ · with handler := .ended }) with
      config := match connectFd with
        | some fd => s.config.removeAcceptSocket fd
        | none => s.config }
  | .ended => none

/-- A call of `Close` returns success. -/
def returned (i : Nat) : TCPSocketServer Opt :=
  { s with
    closers := s.closers.eraseIdx i
    returns := s.returns ++ [{ connectionMap := s.connectionMap, config := s.config }] }

def closeStep (i : Nat) (granted : UInt32 → Bool) : Closing → Option (TCPSocketServer Opt)
  | .entered =>
    if s.isClosed ∨ s.listenFd < 0 then some ({ s with isClosed := true }.returned i)
    else some { s with closers := s.closers.set i .stopping }
  | .stopping => some { s with isRunning := false, closers := s.closers.set i .shutting }
  | .shutting =>
    if s.listenFd < 0 then some { s with closers := s.closers.set i .closingAll }
    else some { s with listening := false, closers := s.closers.set i .closing }
  | .closing => some { s with closers := s.closers.set i .forgetting }
  | .forgetting => some { s with listenFd := -1, closers := s.closers.set i .marking }
  | .marking => some { s with isClosed := true, closers := s.closers.set i .closingAll }
  | .closingAll =>
    some { s with
      clients := s.clients.map fun c => if c.inMap then c.close (granted c.clientId) else c
      closers := s.closers.set i .waiting }
  | .waiting => if s.isAcceptExit then some (s.returned i) else none

def step : Event Opt → Option (TCPSocketServer Opt)
  | .listen fd =>
    if 0 < fd ∧ s.listenFd < 0 ∧ s.acceptor = .ended ∧ s.closers = [] then
      some { s with
        listenFd := fd
        listening := true
        config := s.config.addNewListenSocket fd
        isClosed := false
        acceptor := .created }
    else none
  | .setExtraOptions option =>
    if s.listenFd < 0 then none
    else some { s with config := s.config.setTcpExtraOptions s.listenFd option }
  | .close => some { s with closers := s.closers ++ [.entered] }
  | .advanceClose i granted =>
    s.closers[i]?.bind fun position => s.closeStep i granted position
  | .advanceAccept accepted => s.acceptStep accepted s.acceptor
  | .advanceHandler client answer =>
    s.clients[client]?.bind fun c => s.handlerStep client c.clientId answer c.handler

/-- What keeps `Close` from leaving something behind: the thread that accepts gets the permission,
no thread finds that the server is not running, the thread that accepts removes the listening
descriptor while it is known, and `Close` is called when that thread is in its loop and no other
call is going on. -/
def Undisturbed : Event Opt → Prop
  | .listen _ => True
  | .setExtraOptions _ => s.config.tcpClients s.listenFd ≠ none
  | .close => s.closers = []
  | .advanceClose i _ => s.closers[i]? = some .entered →
      s.isAcceptExit = false ∨ s.acceptor = .ended
  | .advanceAccept accepted => (s.acceptor = .created → accepted ≠ .denied) ∧
      (s.acceptor = .looking → s.isRunning = true) ∧ (s.acceptor = .removing → 0 ≤ s.listenFd)
  | .advanceHandler client _ => ∀ c ∈ s.clients[client]?,
      c.handler = .looking → s.isRunning = true

instance (s : TCPSocketServer Opt) (event : Event Opt) : Decidable (s.Undisturbed event) := by
  cases event <;> dsimp only [Undisturbed] <;> infer_instance

section Sound

variable {s t : TCPSocketServer Opt} {p : Closing}

/-- What holds of an undisturbed server. -/
structure Sound (s : TCPSocketServer Opt) : Prop where
  /-- Somebody will remove each connection that is in the map. -/
  mapped : ∀ (i : Nat) (c : TCPClient), s.clients[i]? = some c → c.inMap = true →
    c.handler.willRemove = true ∨ s.acceptor.holds i = true
  keys : 0 ≤ s.listenFd → ∀ key, key ≠ s.listenFd → s.config.Lacks key
  removed : s.acceptor.hasLeft = true → ∀ key, s.config.Lacks key
  settled : s.acceptor = .ended → ∀ c ∈ s.clients, c.inMap = false
  exit : s.isAcceptExit = true ↔ s.acceptor.early = true ∨ s.acceptor = .ended
  single : s.closers.length ≤ 1
  closing : ∀ p ∈ s.closers, p ≠ .entered → s.acceptor.early = false
  late : ∀ p ∈ s.closers, p.late = true → s.listenFd < 0
  closed : s.isClosed = true → s.listenFd < 0
  unlistened : s.listenFd < 0 → s.acceptor = .ended ∨ ∃ p ∈ s.closers, p.late = true
  clean : ∀ r ∈ s.returns, r.Clean

theorem sound_start : Sound ({} : TCPSocketServer Opt) where
  mapped := nofun
  keys := nofun
  removed _ _ := ⟨rfl, rfl⟩
  settled _ := nofun
  exit := iff_of_true rfl (.inr rfl)
  single := Nat.zero_le _
  closing := nofun
  late := nofun
  closed := nofun
  unlistened _ := .inl rfl
  clean := nofun

namespace Sound

variable (h : Sound s)
include h

theorem clean_of_ended (hended : s.acceptor = .ended) :
    Remains.Clean { connectionMap := s.connectionMap, config := s.config } := by
  have hlacks := h.removed (by rw [hended]; rfl)
  refine ⟨?_, hlacks, fun fd => ⟨SocketConfig.getClients_addNewListenSocket (hlacks fd),
    (hlacks fd).1⟩⟩
  refine map_eq_nil_iff.mpr (filter_eq_nil_iff.mpr fun c hc => ?_)
  rw [h.settled hended c hc]
  exact Bool.false_ne_true

/-- A change of the clients may take connections out of the map. -/
theorem withClients {clients : List TCPClient}
    (hclients : ∀ (i : Nat) (d : TCPClient), clients[i]? = some d → d.inMap = true →
      ∃ c, s.clients[i]? = some c ∧ c.inMap = true ∧
        (d.handler.willRemove = true ∨ s.acceptor.holds i = true)) :
    Sound { s with clients := clients } := by
  refine { h with mapped := ?_, settled := ?_ }
  · intro i d hd hin
    obtain ⟨-, -, -, hlater⟩ := hclients i d hd hin
    exact hlater
  · intro hended d hd
    obtain ⟨i, hi⟩ := mem_iff_getElem?.mp hd
    by_contra hin
    obtain ⟨c, hc, hin', -⟩ := hclients i d hi (eq_true_of_ne_false hin)
    cases hin'.symm.trans (h.settled hended c (mem_of_getElem? hc))

/-- A change of each connection by itself that keeps its thread. -/
theorem mapClients {g : TCPClient → TCPClient} (hhandler : ∀ c, (g c).handler = c.handler)
    (hmap : ∀ c, (g c).inMap = true → c.inMap = true) :
    Sound { s with clients := s.clients.map g } := by
  refine h.withClients fun i d hd hin => ?_
  rw [getElem?_map] at hd
  obtain ⟨c, hc, rfl⟩ := Option.map_eq_some_iff.mp hd
  refine ⟨c, hc, hmap c hin, ?_⟩
  rw [hhandler]
  exact h.mapped i c hc (hmap c hin)

theorem onEntry (clientId : UInt32) {f : TCPClient → TCPClient}
    (hhandler : ∀ c, (f c).handler = c.handler) : Sound (s.onEntry clientId f) := by
  refine h.mapClients ?_ ?_
  · grind
  · grind [TCPClient.isEntry]

/-- A change of one client. -/
theorem onClient (client : Nat) {f : TCPClient → TCPClient}
    (hmap : ∀ c, s.clients[client]? = some c → (f c).inMap = true → c.inMap = true ∧
      ((f c).handler.willRemove = true ∨ s.acceptor.holds client = true)) :
    Sound (s.onClient client f) := by
  have hmapped := h.mapped
  refine h.withClients fun i d hd hin => ?_
  rw [getElem?_modify] at hd
  obtain ⟨c, hc, hd⟩ := Option.map_eq_some_iff.mp hd
  grind

section Accept

/-- The thread that accepts goes on with what it holds, before it has left its loop. -/
theorem move {p : Acceptor} (hp : s.acceptor = p) (hp' : p ≠ .ended)
    (q : Acceptor) (hholds : ∀ client, p.holds client = true → q.holds client = true)
    (hearly : p.early = q.early) (hleft : q.hasLeft = false) : Sound { s with acceptor := q } := by
  have hq : q ≠ .ended := by
    rintro rfl
    exact nomatch hleft
  have hmapped := h.mapped
  have hexit := h.exit
  have hclosing := h.closing
  have hunlistened := h.unlistened
  refine { h with mapped := ?_, removed := ?_, settled := ?_, exit := ?_, closing := ?_,
                  unlistened := ?_ }
  · grind
  · exact fun hleft' => nomatch hleft.symm.trans hleft'
  · exact fun hended => absurd hended hq
  · grind
  · grind
  · grind

/-- A thread that was started before `Close` finds the listening descriptor. -/
theorem listening (hat : s.acceptor = .created) : ¬ s.listenFd < 0 := by
  intro hlisten
  obtain ⟨p, hp, hlate⟩ := (h.unlistened hlisten).resolve_left (by rw [hat]; nofun)
  have hnot := h.closing p hp (by rintro rfl; exact nomatch hlate)
  rw [hat] at hnot
  exact nomatch hnot

theorem mark (hat : s.acceptor = .marking) :
    Sound { s with isAcceptExit := false, acceptor := .looking } := by
  have hmapped := h.mapped
  have hunlistened := h.unlistened
  refine { h with mapped := ?_, removed := nofun, settled := nofun, exit := ?_,
                  closing := fun _ _ _ => rfl, unlistened := ?_ }
  · grind [Acceptor.holds]
  · exact iff_of_false nofun nofun
  · grind

theorem removeServer (hat : s.acceptor = .removing) (hlisten : 0 ≤ s.listenFd) :
    Sound { s with config := s.config.removeServerSocket s.listenFd, acceptor := .joining } := by
  have hmapped := h.mapped
  have hexit := h.exit
  have hunlistened := h.unlistened
  have hlacks (key : Int) : (s.config.removeServerSocket s.listenFd).Lacks key :=
    SocketConfig.lacks_removeServerSocket (h.keys hlisten)
  refine { h with mapped := ?_, keys := fun _ key _ => hlacks key, removed := fun _ => hlacks,
                  settled := nofun, exit := ?_, closing := fun _ _ _ => rfl, unlistened := ?_ }
  · grind [Acceptor.holds]
  · grind [Acceptor.early]
  · grind

/-- The connection that is added is the last one, whatever its id. -/
theorem add (connectFd : Nat) (hat : s.acceptor = .adding connectFd) :
    Sound { s.addConnection (s.userCounter + 1) with
      userCounter := s.userCounter + 1
      acceptor := .setting s.clients.length connectFd } := by
  have hreplaced := h.onEntry (s.userCounter + 1) (f := ({ · with inMap := false })) fun _ => rfl
  have hmoved := hreplaced.move hat nofun (.setting s.clients.length connectFd) nofun rfl rfl
  have hmapped := hreplaced.mapped
  refine { hmoved with mapped := ?_, settled := nofun }
  intro i c hc hin
  rw [addConnection, getElem?_append] at hc
  split at hc
  · have hlater := hmapped i c hc hin
    grind [TCPSocketServer.onEntry, Acceptor.holds]
  · grind [TCPSocketServer.onEntry, Acceptor.holds]

theorem startHandler (client : Nat) (hat : s.acceptor = .creating client) :
    Sound { s.onClient client ({ · with handler := .created }) with acceptor := .looking } := by
  have hcreated : Sound (s.onClient client ({ · with handler := .created })) :=
    h.onClient client fun c _ hin => ⟨hin, .inl rfl⟩
  have hmapped := hcreated.mapped
  have hexit := h.exit
  have hunlistened := h.unlistened
  refine { hcreated with mapped := ?_, removed := nofun, settled := nofun, exit := ?_,
                         closing := fun _ _ _ => rfl, unlistened := ?_ }
  · intro i c hc hin
    have hlater := hmapped i c hc hin
    rw [TCPSocketServer.onClient, getElem?_modify] at hc
    grind [TCPSocketServer.onClient, Handler.willRemove, Acceptor.holds]
  · grind [TCPSocketServer.onClient, Acceptor.early]
  · grind [TCPSocketServer.onClient]

/-- The thread that accepts has waited for the others. -/
theorem join (hat : s.acceptor = .joining) (hidle : ∀ c ∈ s.clients, c.handler.idle = true) :
    Sound { s with isAcceptExit := true, acceptor := .ended } := by
  have hout : ∀ c ∈ s.clients, c.inMap = false := by
    intro c hc
    obtain ⟨i, hi⟩ := mem_iff_getElem?.mp hc
    have hmapped := h.mapped i c hi
    grind [Handler.idle_of_willRemove, Acceptor.holds]
  refine { h with mapped := ?_, removed := fun _ => h.removed (by rw [hat]; rfl),
                  settled := fun _ => hout, exit := iff_of_true rfl (.inr rfl),
                  closing := fun _ _ _ => rfl, unlistened := fun _ => .inl rfl }
  intro i c hc hin
  cases hin.symm.trans (hout c (mem_of_getElem? hc))

theorem acceptStep {accepted : Accepted} (hcond : s.Undisturbed (.advanceAccept accepted))
    (hstep : s.acceptStep accepted s.acceptor = some t) : Sound t := by
  obtain ⟨hgranted, hrunning, hlisten⟩ := hcond
  generalize hat : s.acceptor = position at hstep
  cases position with
  | created =>
    rw [TCPSocketServer.acceptStep, if_neg (not_or.mpr ⟨hgranted hat, h.listening hat⟩)] at hstep
    cases hstep
    exact h.move hat nofun .starting nofun rfl rfl
  | starting =>
    cases hstep
    have hrun : Sound { s with isRunning := true } := { h with }
    exact hrun.move hat nofun .marking nofun rfl rfl
  | marking =>
    cases hstep
    exact h.mark hat
  | looking =>
    rw [TCPSocketServer.acceptStep, if_pos (hrunning hat)] at hstep
    cases hstep
    exact h.move hat nofun .accepting nofun rfl rfl
  | accepting =>
    cases accepted with
    | client connectFd =>
      obtain ⟨-, hclient⟩ := ite_none_right_eq_some.mp hstep
      cases hclient
      exact h.move hat nofun (.adding connectFd) nofun rfl rfl
    | interrupted =>
      cases hstep
      exact h.move hat nofun .looking nofun rfl rfl
    | failed =>
      cases hstep
      exact h.move hat nofun .removing nofun rfl rfl
    | denied => exact nomatch hstep
  | removing =>
    cases hstep
    exact h.removeServer hat (hlisten hat)
  | adding connectFd =>
    cases hstep
    exact h.add connectFd hat
  | setting client connectFd =>
    cases hstep
    have hset : Sound (s.onClient client ({ · with socketFd := some connectFd })) :=
      h.onClient client fun c hc hin => ⟨hin, h.mapped client c hc hin⟩
    exact hset.move hat nofun (.registering client connectFd) (fun _ hholds => hholds) rfl rfl
  | registering client connectFd =>
    cases hstep
    have hregistered : Sound { s with
        config := s.config.addNewAcceptSocket s.listenFd connectFd } :=
      { h with
        keys := fun hlisten key hne => (h.keys hlisten key hne).addNewAcceptSocket _ _
        removed := fun hleft key => (h.removed hleft key).addNewAcceptSocket _ _ }
    exact hregistered.move hat nofun (.creating client) (fun _ hholds => hholds) rfl rfl
  | creating client =>
    cases hstep
    exact h.startHandler client hat
  | joining =>
    obtain ⟨hidle, hjoin⟩ := ite_none_right_eq_some.mp hstep
    cases hjoin
    exact h.join hat hidle
  | ended => exact nomatch hstep

end Accept

/-- The thread of a client goes on. -/
theorem handlerStep {client : Nat} {answer : Bool} {c : TCPClient}
    (hc : s.clients[client]? = some c) (hrunning : c.handler = .looking → s.isRunning = true)
    (hstep : s.handlerStep client c.clientId answer c.handler = some t) : Sound t := by
  have hmapped := h.mapped client c hc
  generalize hat : c.handler = position at hstep
  cases position with
  | absent | ended => exact nomatch hstep
  | created =>
    cases hstep
    refine h.onClient client fun d hd hin => ⟨hin, .inl ?_⟩
    obtain rfl := Option.some.inj (hc.symm.trans hd)
    have hfound : s.clients.any (·.isEntry c.clientId) = true :=
      any_eq_true.mpr ⟨c, mem_of_getElem? hc, by simpa [TCPClient.isEntry] using hin⟩
    rw [hfound]
    rfl
  | looking | receiving | cleaning =>
    cases hstep
    exact h.onClient client (by grind [Handler.willRemove])
  | closing connection connectFd =>
    cases hstep
    have hclosed : Sound (match connection with
        | some connection => s.onClient connection (·.close answer)
        | none => s) := by
      cases connection with
      | none => exact h
      | some connection => exact h.onClient connection (by grind [TCPClient.close, h.mapped])
    exact hclosed.onClient client (by grind [Handler.willRemove])
  | removing connectFd =>
    cases hstep
    have hremoved := h.onEntry c.clientId (f := fun c => { c.close answer with inMap := false })
      (by grind [TCPClient.close])
    refine hremoved.onClient client fun d hd hin => ?_
    grind [TCPSocketServer.onEntry, TCPClient.isEntry]
  | deregistering connectFd =>
    cases hstep
    have hended : Sound (s.onClient client ({ · with handler := .ended })) :=
      h.onClient client (by grind [Handler.willRemove])
    cases connectFd with
    | none => exact hended
    | some fd =>
      exact { hended with
        keys := fun hlisten key hne => (hended.keys hlisten key hne).removeAcceptSocket fd
        removed := fun hleft key => (hended.removed hleft key).removeAcceptSocket fd }

section Close

/-- While there is at most one call of `Close`, it is the first. -/
theorem closers_eq {i : Nat} (hat : s.closers[i]? = some p) : i = 0 ∧ s.closers = [p] := by
  have hsingle := h.single
  match hclosers : s.closers with
  | [] | [q] | _ :: _ :: _ => grind

variable (hclosers : s.closers = [p])
include hclosers

/-- The call of `Close` goes to its next position. -/
theorem closeMove (q : Closing) (hentered : p = .entered → s.acceptor.early = false)
    (hlate : p.late = true → q.late = true) (hlisten : q.late = true → s.listenFd < 0) :
    Sound { s with closers := s.closers.set 0 q } := by
  have hclosing := h.closing p (by rw [hclosers]; exact mem_cons_self)
  have hunlistened := h.unlistened
  rw [hclosers]
  refine { h with single := le_rfl, closing := ?_, late := ?_, unlistened := ?_ }
  · grind
  · grind
  · grind

/-- `Close` returns when the thread that accepts has ended. -/
theorem returned (hended : s.acceptor = .ended) : Sound (s.returned 0) := by
  have hclean := h.clean
  have hlast := h.clean_of_ended hended
  simp only [TCPSocketServer.returned, hclosers, eraseIdx_cons_zero]
  refine { h with single := Nat.zero_le _, closing := nofun, late := nofun,
                  unlistened := fun _ => .inl hended, clean := ?_ }
  grind

theorem forget (hearly : s.acceptor.early = false) :
    Sound { s with listenFd := -1, closers := s.closers.set 0 .marking } := by
  rw [hclosers]
  refine { h with keys := nofun, single := le_rfl, closing := ?_, late := fun _ _ _ => ?_,
                  closed := fun _ => ?_, unlistened := fun _ => ?_ }
  · exact fun _ _ _ => hearly
  · exact neg_one_lt_zero
  · exact neg_one_lt_zero
  · exact .inr ⟨.marking, mem_cons_self, rfl⟩

/-- The first check of `Close`. -/
theorem enter (hp : p = .entered) (hcond : s.isAcceptExit = false ∨ s.acceptor = .ended)
    (granted : UInt32 → Bool) (hstep : s.closeStep 0 granted .entered = some t) : Sound t := by
  rw [TCPSocketServer.closeStep] at hstep
  split at hstep
  · next hclosed =>
      cases hstep
      have hlisten : s.listenFd < 0 := hclosed.elim h.closed id
      have hunlistened := h.unlistened hlisten
      have hmarked : Sound { s with isClosed := true } := { h with closed := fun _ => hlisten }
      exact hmarked.returned hclosers (by grind [Closing.late])
  · cases hstep
    have hexit := h.exit
    refine h.closeMove hclosers .stopping (fun _ => ?_) (hp ▸ nofun) nofun
    rcases hcond with hrunning | hended
    · grind
    · rw [hended]
      rfl

theorem closeAll (hp : p = .closingAll) (granted : UInt32 → Bool) :
    Sound { s with
      clients := s.clients.map fun c => if c.inMap then c.close (granted c.clientId) else c
      closers := s.closers.set 0 .waiting } := by
  have hclosed : Sound { s with
      clients := s.clients.map fun c => if c.inMap then c.close (granted c.clientId) else c } :=
    h.mapClients (by grind [TCPClient.close]) (by grind)
  have hlisten := h.late p (by rw [hclosers]; exact mem_cons_self) (hp ▸ rfl)
  exact hclosed.closeMove hclosers .waiting (hp ▸ nofun) (fun _ => rfl) fun _ => hlisten

end Close

theorem closeStep {i : Nat} {granted : UInt32 → Bool} (hat : s.closers[i]? = some p)
    (hcond : s.Undisturbed (.advanceClose i granted))
    (hstep : s.closeStep i granted p = some t) : Sound t := by
  obtain ⟨rfl, hclosers⟩ := h.closers_eq hat
  have hmem : p ∈ s.closers := mem_of_getElem? hat
  cases p with
  | entered => exact h.enter hclosers rfl (hcond hat) granted hstep
  | stopping =>
    cases hstep
    have hstopped : Sound { s with isRunning := false } := { h with }
    exact hstopped.closeMove hclosers .shutting nofun nofun nofun
  | shutting =>
    rw [TCPSocketServer.closeStep] at hstep
    split at hstep
    · next hlisten =>
        cases hstep
        exact h.closeMove hclosers .closingAll nofun nofun fun _ => hlisten
    · cases hstep
      have hshut : Sound { s with listening := false } := { h with }
      exact hshut.closeMove hclosers .closing nofun nofun nofun
  | closing =>
    cases hstep
    exact h.closeMove hclosers .forgetting nofun nofun nofun
  | forgetting =>
    cases hstep
    exact h.forget hclosers (h.closing _ hmem nofun)
  | marking =>
    cases hstep
    have hlisten : s.listenFd < 0 := h.late _ hmem rfl
    have hmarked : Sound { s with isClosed := true } := { h with closed := fun _ => hlisten }
    exact hmarked.closeMove hclosers .closingAll nofun (fun _ => rfl) fun _ => hlisten
  | closingAll =>
    cases hstep
    exact h.closeAll hclosers rfl granted
  | waiting =>
    obtain ⟨hexit, hreturn⟩ := ite_none_right_eq_some.mp hstep
    cases hreturn
    refine h.returned hclosers ((h.exit.mp hexit).resolve_left ?_)
    rw [h.closing _ hmem nofun]
    exact nofun

theorem listen (fd : Nat) (hended : s.acceptor = .ended) (hclosers : s.closers = []) :
    Sound { s with
      listenFd := fd
      listening := true
      config := s.config.addNewListenSocket fd
      isClosed := false
      acceptor := .created } := by
  have hlacks := h.removed (by rw [hended]; rfl)
  have hsettled := h.settled hended
  refine { h with mapped := ?_, keys := ?_, removed := nofun, settled := nofun, exit := ?_,
                  closing := ?_, late := ?_, closed := nofun, unlistened := ?_ }
  · intro i c hc hin
    cases hin.symm.trans (hsettled c (mem_of_getElem? hc))
  · exact fun _ key hne => (hlacks key).addNewListenSocket hne
  · exact iff_of_true (h.exit.mpr (.inr hended)) (.inl rfl)
  · grind
  · grind
  · grind

theorem step {event : Event Opt} (hcond : s.Undisturbed event)
    (hstep : s.step event = some t) : Sound t := by
  cases event with
  | listen fd =>
    obtain ⟨⟨-, -, hended, hclosers⟩, hlisten⟩ := ite_none_right_eq_some.mp hstep
    cases hlisten
    exact h.listen fd hended hclosers
  | setExtraOptions option =>
    obtain ⟨-, hset⟩ := ite_none_left_eq_some.mp hstep
    cases hset
    refine { h with keys := ?_, removed := ?_ }
    · exact fun hlisten key hne => (h.keys hlisten key hne).setTcpExtraOptions hne option
    · exact fun hleft => absurd (h.removed hleft s.listenFd).2 hcond
  | close =>
    cases hstep
    have hnone : s.closers = [] := hcond
    have hunlistened := h.unlistened
    refine { h with single := ?_, closing := ?_, late := ?_, unlistened := ?_ }
    · grind
    · grind
    · grind [Closing.late]
    · grind
  | advanceClose i granted =>
    obtain ⟨p, hat, hclose⟩ := bind_eq_some_iff.mp hstep
    exact h.closeStep hat hcond hclose
  | advanceAccept accepted => exact h.acceptStep hcond hstep
  | advanceHandler client answer =>
    obtain ⟨c, hfound, hhandler⟩ := bind_eq_some_iff.mp hstep
    exact h.handlerStep hfound (hcond c hfound) hhandler

end Sound

end Sound

/-- In an undisturbed run nothing is left whenever `Close` has returned success. -/
theorem close_leaves_nothing (events : List (Event Opt))
    (hundisturbed : Meets step Undisturbed events ({} : TCPSocketServer Opt)) :
    Throughout step (fun s => ∀ r ∈ s.returns, r.Clean) events ({} : TCPSocketServer Opt) :=
  throughout_of_meets (fun _ _ _ h hcond hstep => h.step hcond hstep) (fun _ h => h.clean) events
    sound_start hundisturbed

/-- The call of `Close` goes on. -/
def closes : Event Nat := .advanceClose 0 fun _ => true

/-- The server listens under number 3, has options and a client under number 5, and is waiting for
that client and for the next one. -/
def oneClient : List (Event Nat) :=
  .listen 3 :: replicate 4 (.advanceAccept .failed) ++ .setExtraOptions 8 ::
    .advanceAccept (.client 5) :: replicate 5 (.advanceAccept .failed) ++
    replicate 2 (.advanceHandler 0 true)

/-- The client goes, and the thread that accepts is woken up before `Close` overwrites
`listenFd_`. -/
def wokenInTime : List (Event Nat) :=
  oneClient ++ .close :: replicate 3 closes ++ replicate 5 (.advanceHandler 0 false) ++
    replicate 3 (.advanceAccept .failed) ++ replicate 5 closes

theorem wokenInTime_leaves_nothing :
    (wokenInTime.foldlM step {}).any (·.returns.length = 1) = true ∧
      Throughout step (fun s => ∀ r ∈ s.returns, r.Clean) wokenInTime {} :=
  ⟨by decide, close_leaves_nothing wokenInTime (by decide)⟩

/-- `Close` overwrites `listenFd_` before the thread that accepts is woken up, and the thread of the
client finds that the server is not running. -/
def wokenTooLate : List (Event Nat) :=
  oneClient ++ .advanceHandler 0 true :: .close :: replicate 7 closes ++
    .advanceHandler 0 true :: replicate 3 (.advanceAccept .failed) ++ [closes]

/-- When `Close` has returned, the map has the client, and the next `Listen` that gets number 3 has
its descriptor and the options. -/
theorem wokenTooLate_leaves_client :
    ∃ s r, wokenTooLate.foldlM step {} = some s ∧ s.returns = [r] ∧ r.connectionMap = [1] ∧
      (r.config.addNewListenSocket 3).getClients 3 = {5} ∧
      (r.config.addNewListenSocket 3).tcpExtraOptions 3 = some 8 := by
  refine ⟨_, _, rfl, rfl, ?_⟩
  decide

end TCPSocketServer

end Netstack.Socket
