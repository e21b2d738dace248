import Netstack.Foundation.FiniteMaps
import Netstack.Foundation.Numerals
import Netstack.WebSocket.UserData

/-!
# The context of the native WebSocket server

What a `ServerContext` keeps about its clients: the connections by the name of their peer, their
sessions, the fragments received so far, and the lists that decide about new connections.

## Implementation notes

Sessions are numbered as they are made. The order of an unordered map is that of the platform, and
`now` has a reading of the clock for each place that reads it.
-/

namespace Netstack.WebSocketServer

open Function Foundation WebSocket

def websocketPerMessageMaxSize : Nat := 1024 * 1024 * 1024

def oneMinuteInSec : UInt64 := 60

def maxConnectionsPerMinute : Nat := 50

def maxClientListSize : Nat := 10000

structure SocketConnection where
  clientIP : Bytes := []
  clientPort : UInt32 := 0
  deriving DecidableEq, Repr

/-- The name of a connection: `ip:port`. -/
def SocketConnection.clientId (conn : SocketConnection) : Bytes :=
  conn.clientIP ++ ascii ":" ++ decimal conn.clientPort.toNat

theorem SocketConnection.clientId_ne_nil (conn : SocketConnection) : conn.clientId ≠ [] := by
  simp [SocketConnection.clientId, ascii]

structure ClientInfo where
  cnt : Nat
  lastConnectionTime : UInt64
  deriving DecidableEq, Repr

structure ServerCert where
  certPath : Bytes := []
  keyPath : Bytes := []
  deriving DecidableEq, Repr

structure ServerConfig where
  serverIP : Bytes
  serverPort : Int := 0
  serverCert : ServerCert := {}
  maxConcurrentClientsNumber : Int := 0
  maxConnectionsForOneClient : Int := 0
  deriving DecidableEq, Repr

/-- What the system and the standard library decide. -/
structure Platform (κ : Type) where
  visit : Std.ExtTreeMap Bytes (κ × SocketConnection) → List (Bytes × κ × SocketConnection)
  visit_perm : ∀ connections, (visit connections).Perm connections.toList
  isValidIPV4 : Bytes → Bool
  isValidIPV6 : Bytes → Bool
  realpath : Bytes → Option Bytes

structure ServerContext (κ : Type) where
  closed : Bool := false
  threadStop : Bool := false
  closeStatus : UInt32 := lwsCloseStatusNoStatus
  closeReason : Bytes := []
  /-- Whether there is a context of libwebsockets. -/
  context : Bool := false
  permissionDenied : Bool := false
  startServerConfig : ServerConfig := ⟨[], 0, {}, 0, 0⟩
  sessions : Nat → UserData κ := fun _ => {}
  sessionCount : Nat := 0
  userDataMap : κ → Option Nat := fun _ => none
  webSocketConnection : Std.ExtTreeMap Bytes (κ × SocketConnection) := ∅
  clientList : Std.ExtTreeMap Bytes ClientInfo := ∅
  banList : Std.ExtTreeMap Bytes UInt64 := ∅
  wsServerBinaryData : κ → Option Bytes := fun _ => none
  wsServerTextData : κ → Option Bytes := fun _ => none

namespace ServerContext

variable {κ : Type} [DecidableEq κ]

variable (c : ServerContext κ)

def close (status : UInt32) (reason : Bytes) : ServerContext κ :=
  { c with closeStatus := status, closeReason := reason, closed := true }

def setThreadStop (threadStop : Bool) : ServerContext κ :=
  { c with threadStop }

/-- The server is neither closed nor about to stop. -/
def Active : Prop := c.closed = false ∧ c.threadStop = false

instance (c : ServerContext κ) : Decidable c.Active := by
  unfold Active
  infer_instance

variable {c}

omit [DecidableEq κ] in
theorem not_active_iff : ¬ c.Active ↔ c.closed = true ∨ c.threadStop = true := by
  simp [Active, or_iff_not_imp_left]

variable {wsi : κ}

variable (p : Platform κ) {entry : Bytes × κ × SocketConnection}

section Connections

def setSession (c : ServerContext κ) (n : Nat) (u : UserData κ) : ServerContext κ :=
  { c with sessions := update c.sessions n u }

/-- A new session becomes that of the connection. -/
def addClientUserData (c : ServerContext κ) (wsi : κ) : ServerContext κ :=
  { c with
    sessions := update c.sessions c.sessionCount {}
    sessionCount := c.sessionCount + 1
    userDataMap := update c.userDataMap wsi (some c.sessionCount) }

def removeClientUserData (c : ServerContext κ) (wsi : κ) : ServerContext κ :=
  { c with userDataMap := update c.userDataMap wsi none }

def addConnections (c : ServerContext κ) (id : Bytes) (wsi : κ) (conn : SocketConnection) :
    ServerContext κ :=
  if c.closed ∨ c.threadStop then c
  else { c with webSocketConnection := c.webSocketConnection.insert id (wsi, conn) }

def removeConnections (c : ServerContext κ) (id : Bytes) : ServerContext κ :=
  { c with webSocketConnection := c.webSocketConnection.erase id }

/-- The first entry visited that has the given address. -/
def findWsi (c : ServerContext κ) (wsi : κ) : Option (Bytes × κ × SocketConnection) :=
  (p.visit c.webSocketConnection).find? fun entry => entry.2.1 = wsi

def getClientIdFromConnectionByWsi (c : ServerContext κ) (wsi : κ) : Bytes :=
  match c.findWsi p wsi with
  | some entry => entry.1
  | none => []

def getConnectionFromWsi (c : ServerContext κ) (wsi : κ) : SocketConnection :=
  match c.findWsi p wsi with
  | some entry => entry.2.2
  | none => {}

omit [DecidableEq κ] in
theorem mem_visit :
    entry ∈ p.visit c.webSocketConnection ↔ c.webSocketConnection[entry.1]? = some entry.2 := by
  rw [(p.visit_perm c.webSocketConnection).mem_iff]
  exact Std.ExtTreeMap.mem_toList_iff_getElem?_eq_some

/-- The entry found by an address holds it. -/
theorem findWsi_eq_some {p : Platform κ} (h : c.findWsi p wsi = some entry) :
    c.webSocketConnection[entry.1]? = some (wsi, entry.2.2) := by
  have hmem := (mem_visit p).mp (List.mem_of_find?_eq_some h)
  have hwsi := List.find?_some h
  rw [hmem, ← of_decide_eq_true hwsi]

theorem findWsi_eq_none {p : Platform κ}
    (h : c.findWsi p wsi = none) (id : Bytes) (conn : SocketConnection) :
    c.webSocketConnection[id]? ≠ some (wsi, conn) := by
  intro hentry
  have hmem : (id, wsi, conn) ∈ p.visit c.webSocketConnection := (mem_visit p).mpr hentry
  have hnot := List.find?_eq_none.mp h (id, wsi, conn) hmem
  simp at hnot

def listAllConnections (c : ServerContext κ) : List SocketConnection :=
  (p.visit c.webSocketConnection).map fun entry => entry.2.2

def getClientWsi (c : ServerContext κ) (clientId : Bytes) : Option κ :=
  (c.webSocketConnection[clientId]?).map Prod.fst

end Connections

section Admission

variable (c)

def addBanList (now : UInt64) (ip : Bytes) : ServerContext κ :=
  { c with banList := c.banList.insert ip (now + oneMinuteInSec) }

def isIpInBanList (now : UInt64) (ip : Bytes) : Bool × ServerContext κ :=
  match c.banList[ip]? with
  | some until_ =>
    if now < until_ then (true, c) else (false, { c with banList := c.banList.erase ip })
  | none => (false, c)

/-- The clients whose last minute is over are forgotten when the list is long. -/
def shortenClientList (now : UInt64) : ServerContext κ :=
  if maxClientListSize < c.clientList.size then
    { c with
      clientList := c.clientList.filter fun _ info =>
        !(decide (info.lastConnectionTime ≤ now) &&
          decide (oneMinuteInSec < now - info.lastConnectionTime)) }
  else c

/-- The part of `IsAllowConnection` after the list of banned addresses. -/
def countConnection (now banned : UInt64) (ip : Bytes) : Bool × ServerContext κ :=
  match c.clientList[ip]? with
  | none => (true, { c with clientList := c.clientList.insert ip ⟨1, now⟩ })
  | some info =>
    if now < info.lastConnectionTime then
      (true, { c with clientList := c.clientList.insert ip ⟨1, now⟩ })
    else if oneMinuteInSec < now - info.lastConnectionTime then
      (true, { c with clientList := c.clientList.insert ip ⟨1, now⟩ })
    else if maxConnectionsPerMinute < info.cnt then (false, c.addBanList banned ip)
    else (true, { c with clientList := c.clientList.insert ip { info with cnt := info.cnt + 1 } })

def isAllowConnection (now : Nat → UInt64) (ip : Bytes) : Bool × ServerContext κ :=
  match c.isIpInBanList (now 0) ip with
  | (true, c) => (false, c)
  | (false, c) => (c.shortenClientList (now 1)).countConnection (now 2) (now 3) ip

end Admission

section Fragments

/-- The buffers for the fragments of a kind of message. -/
def wsServerData (c : ServerContext κ) (isBinary : Bool) : κ → Option Bytes :=
  if isBinary then c.wsServerBinaryData else c.wsServerTextData

def setWsServerData (c : ServerContext κ) (isBinary : Bool) (data : κ → Option Bytes) :
    ServerContext κ :=
  if isBinary then { c with wsServerBinaryData := data } else { c with wsServerTextData := data }

def getWsServerData (c : ServerContext κ) (isBinary : Bool) (wsi : κ) : Bytes :=
  (c.wsServerData isBinary wsi).getD []

def clearWsServerData (c : ServerContext κ) (isBinary : Bool) (wsi : κ) : ServerContext κ :=
  c.setWsServerData isBinary (update (c.wsServerData isBinary) wsi none)

/-- `AppendWsServerBinaryData` or `AppendWsServerTextData`. The result says whether the data
exceeds the limit. -/
def appendWsServerData (c : ServerContext κ) (isBinary : Bool) (wsi : κ) (data : Bytes) :
    Bool × ServerContext κ :=
  if data = [] then (false, c)
  else
    match c.wsServerData isBinary wsi with
    | some buffer =>
      if websocketPerMessageMaxSize - buffer.length < data.length then
        (true, c.clearWsServerData isBinary wsi)
      else
        (false, c.setWsServerData isBinary
          (update (c.wsServerData isBinary) wsi (some (buffer ++ data))))
    | none =>
      if websocketPerMessageMaxSize < data.length then (true, c)
      else
        (false, c.setWsServerData isBinary
          (update (c.wsServerData isBinary) wsi (some data)))

theorem getWsServerData_setWsServerData (c : ServerContext κ) (isBinary isBinary' : Bool)
    (wsi wsi' : κ) (data : Option Bytes) :
    ServerContext.getWsServerData
        (c.setWsServerData isBinary (update (c.wsServerData isBinary) wsi data))
        isBinary' wsi' =
      if isBinary' = isBinary ∧ wsi' = wsi then data.getD []
      else c.getWsServerData isBinary' wsi' := by
  by_cases hwsi : wsi' = wsi <;> cases isBinary <;> cases isBinary' <;>
    simp [getWsServerData, setWsServerData, wsServerData, hwsi]

theorem getWsServerData_clearWsServerData (c : ServerContext κ) (isBinary isBinary' : Bool)
    (wsi wsi' : κ) :
    (c.clearWsServerData isBinary wsi).getWsServerData isBinary' wsi' =
      if isBinary' = isBinary ∧ wsi' = wsi then [] else c.getWsServerData isBinary' wsi' :=
  c.getWsServerData_setWsServerData isBinary isBinary' wsi wsi' none

theorem appendWsServerData_exceeds {isBinary : Bool}
    (hbound : (c.getWsServerData isBinary wsi).length ≤ websocketPerMessageMaxSize) (data : Bytes) :
    (c.appendWsServerData isBinary wsi data).1 = true ↔
      websocketPerMessageMaxSize < (c.getWsServerData isBinary wsi).length + data.length := by
  unfold appendWsServerData
  by_cases hdata : data = []
  · simp only [hdata, if_true, List.length_nil, Nat.add_zero, Bool.false_eq_true, false_iff]
    omega
  · rw [if_neg hdata]
    unfold getWsServerData at hbound ⊢
    grind

/-- The buffer holds what it held and the data, or nothing if that is too much. -/
theorem getWsServerData_appendWsServerData (c : ServerContext κ) (isBinary isBinary' : Bool)
    (wsi wsi' : κ) (data : Bytes) :
    (c.appendWsServerData isBinary wsi data).2.getWsServerData isBinary' wsi' =
      if isBinary' = isBinary ∧ wsi' = wsi then
        if (c.appendWsServerData isBinary wsi data).1 then []
        else c.getWsServerData isBinary wsi ++ data
      else c.getWsServerData isBinary' wsi' := by
  unfold appendWsServerData
  by_cases hdata : data = []
  · simp only [hdata, if_true, List.append_nil, Bool.false_eq_true, if_false]
    split
    · rename_i hsame
      rw [hsame.1, hsame.2]
    · rfl
  · rw [if_neg hdata]
    cases hbuffer : c.wsServerData isBinary wsi with
    | none =>
      have hempty : c.getWsServerData isBinary wsi = [] := by simp [getWsServerData, hbuffer]
      dsimp only
      split
      · simp only [if_true]
        split
        · rename_i hsame
          rw [hsame.1, hsame.2, hempty]
        · rfl
      · rw [getWsServerData_setWsServerData]
        simp [hempty]
    | some buffer =>
      have hheld : c.getWsServerData isBinary wsi = buffer := by simp [getWsServerData, hbuffer]
      grind [getWsServerData_clearWsServerData, getWsServerData_setWsServerData]

end Fragments

end ServerContext

end Netstack.WebSocketServer
