import Netstack.Foundation.FiniteMaps
import Netstack.Foundation.NetworkOrder
import Netstack.Foundation.Numerals
import Netstack.WebSocket.UserData

/-!
# The WebSocket server of the JS interface

The libwebsockets callbacks of `WebSocketServerExec` over what the event manager keeps: sessions,
connections, the fragments received so far and the limits for new connections.

## Implementation notes

The state is that of a server between `StartService` and the end of `RunServerService`. What depends
on the network is part of a callback. Writes, close reasons and the works of JS are recorded.
-/

namespace Netstack.WebSocket.ServerExec

open Function Foundation

def commonErrorCode : Nat := 200

def linkDown : Bytes := ascii "The link is down"

def oneMinuteInSec : UInt64 := 60

def maxConnectionsPerMinute : Nat := 50

def int32Max : Nat := 2147483647

structure WebSocketConnection where
  clientIP : Bytes := []
  clientPort : UInt32 := 0
  deriving DecidableEq, Repr

/-- The name of a connection: `ip:port`. -/
def WebSocketConnection.clientId (conn : WebSocketConnection) : Bytes :=
  conn.clientIP ++ ascii ":" ++ decimal conn.clientPort.toNat

structure ClientInfo where
  cnt : Nat
  lastConnectionTime : UInt64
  deriving DecidableEq, Repr

structure WebSocketMessage where
  data : Bytes
  connection : WebSocketConnection := {}
  deriving DecidableEq, Repr

inductive EventName where
  | serverError
  | serverConnect
  | serverClose
  | serverMessageReceive
  deriving DecidableEq, Repr

inductive Emission (κ : Type) where
  | serverError (code : Nat)
  | serverConnect (connection : WebSocketConnection)
  | serverClose (connection : WebSocketConnection) (code : UInt32) (reason : Bytes)
  | serverMessageReceive (wsi : κ) (isBinary : Bool)
  deriving DecidableEq, Repr

structure Manager (κ : Type) where
  userData : UserData κ := {}
  sessions : Nat → UserData κ := fun _ => {}
  sessionCount : Nat := 0
  userDataMap : κ → Option Nat := fun _ => none
  webSocketConnection : Std.ExtTreeMap Bytes (κ × WebSocketConnection) := ∅
  maxConnClientCnt : UInt32 := 0
  maxConnForOneClient : UInt32 := 0
  clientList : Std.ExtTreeMap Bytes ClientInfo := ∅
  banList : Std.ExtTreeMap Bytes UInt64 := ∅
  wsServerTextData : κ → Bytes := fun _ => []
  wsServerBinaryData : κ → Bytes := fun _ => []
  serverDataQueue : κ → List WebSocketMessage := fun _ => []
  hasEventListener : EventName → Bool := fun _ => false
  emitted : List (Emission κ) := []
  writables : Writables κ := fun _ => false
  written : Nat → List SendData := fun _ => []
  closeReasons : κ → Option (UInt32 × Bytes) := fun _ => none

namespace Manager

variable {κ : Type} [DecidableEq κ]

variable (m : Manager κ)

section Events

def emit (event : Emission κ) : Manager κ :=
  { m with emitted := m.emitted ++ [event] }

def onServerError (code : Nat) : Manager κ :=
  if m.hasEventListener .serverError then m.emit (.serverError code) else m

def raiseServerError : Int × Manager κ :=
  (-1, m.onServerError commonErrorCode)

def httpDummy (ret : Int) : Int × Manager κ :=
  (0, if ret < 0 then m.onServerError commonErrorCode else m)

/-- The connection of the first entry of the map that has the given address. -/
def findConnection (wsi : κ) : Option WebSocketConnection :=
  (m.webSocketConnection.toList.find? fun entry => entry.2.1 = wsi).map fun entry => entry.2.2

def onConnect (wsi : κ) : Manager κ :=
  if m.hasEventListener .serverConnect then
    match m.findConnection wsi with
    | some conn => m.emit (.serverConnect conn)
    | none => m
  else m

def onServerClose (wsi : κ) (closeStatus : UInt32) (closeReason : Bytes) : Manager κ :=
  if m.hasEventListener .serverClose then
    match m.findConnection wsi with
    | some conn => m.emit (.serverClose conn closeStatus closeReason)
    | none => m
  else m

end Events

section Sessions

variable (c : Nat)

def setSession (u : UserData κ) : Manager κ :=
  { m with sessions := update m.sessions c u }

omit [DecidableEq κ] in
@[simp]
theorem setSession_self (u : UserData κ) : (m.setSession c u).sessions c = u := by
  simp [setSession]

omit [DecidableEq κ] in
theorem setSession_of_ne {c d : Nat} (h : d ≠ c) (u : UserData κ) :
    (m.setSession c u).sessions d = m.sessions d := by
  simp [setSession, h]

/-- A new session becomes that of the connection. -/
def addClientUserData (wsi : κ) : Manager κ :=
  { m with
    sessions := update m.sessions m.sessionCount {}
    sessionCount := m.sessionCount + 1
    userDataMap := update m.userDataMap wsi (some m.sessionCount) }

theorem addClientUserData_self {m : Manager κ} {wsi : κ} {c : Nat} :
    (m.addClientUserData wsi).userDataMap wsi = some c ↔ c = m.sessionCount := by
  simp [addClientUserData, eq_comm]

theorem addClientUserData_of_ne {wsi wsi' : κ} (h : wsi' ≠ wsi) :
    (m.addClientUserData wsi).userDataMap wsi' = m.userDataMap wsi' := by
  simp [addClientUserData, h]

theorem addClientUserData_session (wsi : κ) :
    (m.addClientUserData wsi).sessions m.sessionCount = {} := by
  simp [addClientUserData]

theorem addClientUserData_session_of_ne (wsi : κ) {c : Nat}
    (h : c ≠ m.sessionCount) : (m.addClientUserData wsi).sessions c = m.sessions c := by
  simp [addClientUserData, h]

def removeClientUserData (wsi : κ) : Manager κ :=
  { m with userDataMap := update m.userDataMap wsi none }

def setClientLws (wsi : κ) : Manager κ :=
  m.setSession c ((m.sessions c).setLws (some wsi))

def triggerClient : Manager κ :=
  { m with writables := (m.sessions c).triggerWritable m.writables }

def triggerServer : Manager κ :=
  { m with writables := m.userData.triggerWritable m.writables }

/-- The writable callback of the connection is no longer pending. -/
def takeWritable (wsi : κ) : Manager κ :=
  { m with writables := update m.writables wsi false }

theorem takeWritable_of_ne {wsi wsi' : κ} (h : wsi' ≠ wsi) :
    (m.takeWritable wsi).writables wsi' = m.writables wsi' := by
  simp [takeWritable, h]

def addConnections (id : Bytes) (wsi : κ) (conn : WebSocketConnection) : Manager κ :=
  if m.userData.closed ∨ m.userData.threadStop then m
  else { m with webSocketConnection := m.webSocketConnection.insert id (wsi, conn) }

/-- The name of the last entry of the map that has the given address. -/
def clearWebSocketConnection (wsi : κ) : Bytes :=
  m.webSocketConnection.toList.foldl
    (fun clientId entry => if entry.2.1 = wsi then entry.1 else clientId) []

def removeConnections (id : Bytes) : Manager κ :=
  { m with webSocketConnection := m.webSocketConnection.erase id }

def getConnections : List WebSocketConnection :=
  m.webSocketConnection.toList.map fun entry => entry.2.2

end Sessions

section Admission

variable (connections : List WebSocketConnection)

def isOverMaxConcurrentClientsCnt (ip : Bytes) : Bool :=
  let uniqueIp := (connections.map (·.clientIP)).dedup
  if ip ∈ uniqueIp then m.maxConnClientCnt.toNat < uniqueIp.length
  else m.maxConnClientCnt.toNat < uniqueIp.length + 1

def isOverMaxCntForOneClient (ip : Bytes) : Bool :=
  m.maxConnForOneClient.toNat < connections.countP (fun conn => ip = conn.clientIP) + 1

def isOverMaxClientConns (ip : Bytes) : Bool :=
  m.isOverMaxConcurrentClientsCnt m.getConnections ip ||
    m.isOverMaxCntForOneClient m.getConnections ip

variable (now : UInt64)

def isIpInBanList (ip : Bytes) : Bool × Manager κ :=
  match m.banList[ip]? with
  | some until_ =>
    if now < until_ then (true, m) else (false, { m with banList := m.banList.erase ip })
  | none => (false, m)

def isHighFreqConnection (ip : Bytes) : Bool :=
  match m.clientList[ip]? with
  | some info =>
    decide (now - info.lastConnectionTime ≤ oneMinuteInSec) &&
      decide (maxConnectionsPerMinute < info.cnt)
  | none => false

def addBanList (ip : Bytes) : Manager κ :=
  { m with banList := m.banList.insert ip (now + oneMinuteInSec) }

def updataClientList (now : Nat → UInt64) (ip : Bytes) : Manager κ :=
  match m.clientList[ip]? with
  | none => { m with clientList := m.clientList.insert ip ⟨1, now 0⟩ }
  | some info =>
    if oneMinuteInSec < now 0 - info.lastConnectionTime then
      { m with clientList := m.clientList.insert ip ⟨1, now 1⟩ }
    else
      { m with clientList := m.clientList.insert ip { info with cnt := info.cnt + 1 } }

def isAllowConnection (now : Nat → UInt64) (ip : Bytes) : Bool × Manager κ :=
  match m.isIpInBanList (now 0) ip with
  | (true, m) => (false, m)
  | (false, m) =>
    if m.isHighFreqConnection (now 1) ip then (false, m.addBanList (now 2) ip)
    else (true, m.updataClientList (fun i => now (i + 2)) ip)

end Admission

section Receiving

def setWebsocketMessage (wsi : κ) (msgFromManager : Bytes) : WebSocketMessage :=
  { data := msgFromManager, connection := (m.findConnection wsi).getD {} }

def handleServerRcvMessage (wsi : κ) (data : Bytes) (isBinary isFinal : Bool) : Manager κ :=
  if isBinary then
    let message := m.wsServerBinaryData wsi ++ data
    if isFinal then
      { m with
        wsServerBinaryData := update m.wsServerBinaryData wsi []
        serverDataQueue := update m.serverDataQueue wsi
          (m.serverDataQueue wsi ++ [m.setWebsocketMessage wsi message])
        emitted := m.emitted ++ [.serverMessageReceive wsi true] }
    else { m with wsServerBinaryData := update m.wsServerBinaryData wsi message }
  else
    let message := m.wsServerTextData wsi ++ data
    if isFinal then
      { m with
        wsServerTextData := update m.wsServerTextData wsi []
        serverDataQueue := update m.serverDataQueue wsi
          (m.serverDataQueue wsi ++ [m.setWebsocketMessage wsi message])
        emitted := m.emitted ++ [.serverMessageReceive wsi false] }
    else { m with wsServerTextData := update m.wsServerTextData wsi message }

def onServerMessage (wsi : κ) (data : Bytes) (isBinary isFinal : Bool) : Manager κ :=
  if m.hasEventListener .serverMessageReceive then
    if int32Max < data.length then m
    else m.handleServerRcvMessage wsi data isBinary isFinal
  else m

end Receiving

section Callbacks

def lwsCallbackFilterProtocolConnection (peer : Option WebSocketConnection)
    (now : Nat → UInt64) (ret : Int) : Int × Manager κ :=
  if m.userData.closed ∨ m.userData.threadStop then m.raiseServerError
  else
    match peer with
    | none => m.raiseServerError
    | some connection =>
      if m.isOverMaxClientConns connection.clientIP then m.raiseServerError
      else
        match m.isAllowConnection now connection.clientIP with
        | (false, m) => m.raiseServerError
        | (true, m) => m.httpDummy ret

def lwsCallbackEstablished (wsi : κ) (peer : Option WebSocketConnection)
    (ret : Int) : Int × Manager κ :=
  match peer with
  | none => (m.addClientUserData wsi).raiseServerError
  | some connection =>
    let listed := (m.addClientUserData wsi).addConnections connection.clientId wsi connection
    let ready := (listed.setClientLws m.sessionCount wsi).triggerClient m.sessionCount
    (ready.onConnect wsi).httpDummy ret

def lwsCallbackReceive (wsi : κ) (data : Bytes) (isBinary isFinal : Bool)
    (ret : Int) : Int × Manager κ :=
  (m.onServerMessage wsi data isBinary isFinal).httpDummy ret

/-- The first message of a session is popped and written. -/
def writeFirst (c : Nat) : Option (Manager κ) :=
  match (m.sessions c).pop with
  | (none, _) => none
  | (some sendData, u) =>
    some { m.setSession c u with
      written := update m.written c (m.written c ++ [sendData]) }

/-- What the writable callback does about the messages that are left. -/
def triggerRest (c : Nat) : Manager κ :=
  if (m.sessions c).dataQueue = [] then m else m.triggerServer

def lwsCloseReason (wsi : κ) (u : UserData κ) : Manager κ :=
  { m with
    closeReasons :=
      update m.closeReasons wsi (some (u.closeStatus, cString u.closeReason)) }

def lwsCallbackServerWriteable (wsi : κ) (ret : Int) : Int × Manager κ :=
  if m.userData.threadStop then (-1, m)
  else
    match m.userDataMap wsi with
    | none => m.raiseServerError
    | some c =>
      if (m.sessions c).closed then (-1, m.lwsCloseReason wsi (m.sessions c))
      else
        match m.writeFirst c with
        | none => m.httpDummy ret
        | some m => (m.triggerRest c).httpDummy ret

def lwsCallbackWsPeerInitiatedCloseServer (wsi : κ) (payload : Bytes)
    (ret : Int) : Int × Manager κ :=
  match payload with
  | hi :: lo :: closeReason =>
    match m.userDataMap wsi with
    | none =>
      Manager.httpDummy { m with userData := m.userData.close lwsCloseStatusNormal [] } ret
    | some c =>
      let closeStatus := (join16 hi lo).toUInt32
      (m.setSession c ((m.sessions c).close closeStatus closeReason)).httpDummy ret
  | _ => Manager.httpDummy { m with userData := m.userData.close lwsCloseStatusNormal [] } ret

/-- The session of the client is closed and the server is told about it. -/
def closeClient (wsi : κ) (c : Nat) : Manager κ :=
  let u := ((m.sessions c).setThreadStop true).closeIfReasonEmpty linkDown
  let closed := m.setSession c u
  let reported :=
    if u.closeStatus = lwsCloseStatusNoStatus then closed.onServerError commonErrorCode
    else closed
  reported.onServerClose wsi u.closeStatus u.closeReason

def stopIfClosed : Manager κ :=
  if m.userData.closed ∧ ¬ m.userData.threadStop then
    { m with userData := m.userData.setThreadStop true }
  else m

def lwsCallbackClosed (wsi : κ) (ret : Int) : Int × Manager κ :=
  match m.userDataMap wsi with
  | none => m.raiseServerError
  | some c =>
    let removed := (m.closeClient wsi c).removeConnections (m.clearWebSocketConnection wsi)
    (removed.removeClientUserData wsi).stopIfClosed.httpDummy ret

def lwsCallbackWsiDestroyServer (ret : Int) : Int × Manager κ :=
  Manager.httpDummy { m with userData := m.userData.setLws none } ret

def lwsCallbackProtocolDestroyServer (ret : Int) : Int × Manager κ :=
  m.httpDummy ret

end Callbacks

section Frames

/-- The sessions, the connections and what was written are as before. -/
structure Keeps (m m' : Manager κ) : Prop where
  userData : m'.userData = m.userData
  sessions : m'.sessions = m.sessions
  sessionCount : m'.sessionCount = m.sessionCount
  userDataMap : m'.userDataMap = m.userDataMap
  webSocketConnection : m'.webSocketConnection = m.webSocketConnection
  writables : m'.writables = m.writables
  written : m'.written = m.written

omit [DecidableEq κ]

theorem Keeps.refl : Keeps m m := ⟨rfl, rfl, rfl, rfl, rfl, rfl, rfl⟩

theorem Keeps.trans {m₁ m₂ m₃ : Manager κ} (h₁ : Keeps m₁ m₂) (h₂ : Keeps m₂ m₃) : Keeps m₁ m₃ where
  userData := h₂.userData.trans h₁.userData
  sessions := h₂.sessions.trans h₁.sessions
  sessionCount := h₂.sessionCount.trans h₁.sessionCount
  userDataMap := h₂.userDataMap.trans h₁.userDataMap
  webSocketConnection := h₂.webSocketConnection.trans h₁.webSocketConnection
  writables := h₂.writables.trans h₁.writables
  written := h₂.written.trans h₁.written

theorem keeps_emit (event : Emission κ) : Keeps m (m.emit event) :=
  ⟨rfl, rfl, rfl, rfl, rfl, rfl, rfl⟩

theorem keeps_onServerError (code : Nat) : Keeps m (m.onServerError code) := by
  unfold onServerError
  split
  · exact keeps_emit m _
  · exact Keeps.refl m

theorem keeps_httpDummy (ret : Int) : Keeps m (m.httpDummy ret).2 := by
  grind [httpDummy, keeps_onServerError, Keeps.refl]

theorem keeps_isIpInBanList (now : UInt64) (ip : Bytes) : Keeps m (m.isIpInBanList now ip).2 := by
  unfold isIpInBanList
  cases m.banList[ip]? with
  | none => exact Keeps.refl m
  | some until_ =>
    dsimp only
    split <;> exact ⟨rfl, rfl, rfl, rfl, rfl, rfl, rfl⟩

variable (now : Nat → UInt64) (ip : Bytes)

theorem keeps_updataClientList :
    Keeps m (m.updataClientList now ip) := by
  unfold updataClientList
  cases m.clientList[ip]? with
  | none => exact ⟨rfl, rfl, rfl, rfl, rfl, rfl, rfl⟩
  | some info =>
    dsimp only
    split <;> exact ⟨rfl, rfl, rfl, rfl, rfl, rfl, rfl⟩

theorem keeps_isAllowConnection :
    Keeps m (m.isAllowConnection now ip).2 := by
  have hban := keeps_isIpInBanList m (now 0) ip
  unfold isAllowConnection
  cases h : m.isIpInBanList (now 0) ip with
  | mk banned m' =>
    rw [h] at hban
    cases banned with
    | true => exact hban
    | false =>
      dsimp only
      split
      · exact hban.trans ⟨rfl, rfl, rfl, rfl, rfl, rfl, rfl⟩
      · exact hban.trans (keeps_updataClientList m' (fun i => now (i + 2)) ip)

theorem keeps_lwsCallbackFilterProtocolConnection
    (peer : Option WebSocketConnection) (now : Nat → UInt64) (ret : Int) :
    Keeps m (m.lwsCallbackFilterProtocolConnection peer now ret).2 := by
  unfold lwsCallbackFilterProtocolConnection
  split
  · exact keeps_onServerError m commonErrorCode
  cases peer with
  | none => exact keeps_onServerError m commonErrorCode
  | some connection =>
    dsimp only
    split
    · exact keeps_onServerError m commonErrorCode
    have hallow := keeps_isAllowConnection m now connection.clientIP
    cases h : m.isAllowConnection now connection.clientIP with
    | mk allowed m' =>
      rw [h] at hallow
      cases allowed with
      | false => exact hallow.trans (keeps_onServerError m' commonErrorCode)
      | true => exact hallow.trans (keeps_httpDummy m' ret)

variable [DecidableEq κ]

theorem keeps_onConnect (wsi : κ) : Keeps m (m.onConnect wsi) := by
  unfold onConnect
  grind [keeps_emit, Keeps.refl]

theorem keeps_onServerClose (wsi : κ) (closeStatus : UInt32)
    (closeReason : Bytes) : Keeps m (m.onServerClose wsi closeStatus closeReason) := by
  unfold onServerClose
  grind [keeps_emit, Keeps.refl]

theorem keeps_onServerMessage (wsi : κ) (data : Bytes)
    (isBinary isFinal : Bool) : Keeps m (m.onServerMessage wsi data isBinary isFinal) := by
  unfold onServerMessage handleServerRcvMessage
  cases isBinary <;> cases isFinal <;> dsimp only <;> split <;>
    first | exact Keeps.refl m | (split <;> exact ⟨rfl, rfl, rfl, rfl, rfl, rfl, rfl⟩)

theorem keeps_lwsCallbackReceive (wsi : κ) (data : Bytes) (isBinary isFinal : Bool) (ret : Int) :
    Keeps m (m.lwsCallbackReceive wsi data isBinary isFinal ret).2 :=
  (keeps_onServerMessage m wsi data isBinary isFinal).trans (keeps_httpDummy _ ret)

end Frames

end Manager

/-- A call of `lwsServerCallback`. -/
inductive Callback (κ : Type) where
  | filterProtocolConnection (peer : Option WebSocketConnection) (now : Nat → UInt64)
  | established (wsi : κ) (peer : Option WebSocketConnection)
  | receive (wsi : κ) (data : Bytes) (isBinary isFinal : Bool)
  | serverWriteable (wsi : κ)
  | wsPeerInitiatedClose (wsi : κ) (payload : Bytes)
  | closed (wsi : κ)
  | wsiDestroy
  | protocolDestroy

variable {κ : Type} [DecidableEq κ]

/-- The callback that libwebsockets makes. A writable callback is no longer pending when it is
made. -/
def lwsServerCallback (m : Manager κ) (ret : Int) : Callback κ → Int × Manager κ
  | .filterProtocolConnection peer now => m.lwsCallbackFilterProtocolConnection peer now ret
  | .established wsi peer => m.lwsCallbackEstablished wsi peer ret
  | .receive wsi data isBinary isFinal => m.lwsCallbackReceive wsi data isBinary isFinal ret
  | .serverWriteable wsi => (m.takeWritable wsi).lwsCallbackServerWriteable wsi ret
  | .wsPeerInitiatedClose wsi payload =>
    m.lwsCallbackWsPeerInitiatedCloseServer wsi payload ret
  | .closed wsi => m.lwsCallbackClosed wsi ret
  | .wsiDestroy => m.lwsCallbackWsiDestroyServer ret
  | .protocolDestroy => m.lwsCallbackProtocolDestroyServer ret

end Netstack.WebSocket.ServerExec
