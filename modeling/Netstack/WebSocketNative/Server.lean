import Netstack.Foundation.NetworkOrder
import Netstack.WebSocketNative.ServerContext

/-!
# The native WebSocket server

`WebSocketServer` and the callbacks that libwebsockets makes for it.

## Implementation notes

What depends on the network or the system is part of a call. A close with a status on a connection
without a session, which is a null pointer, is left out. The calls of the registered callbacks,
`lws_write` and `lws_close_reason` are recorded.
-/

namespace Netstack.WebSocketServer

open Function Foundation WebSocket

def linkDown : Bytes := ascii "The link is down"

def serverGoingAway : Bytes := ascii "server is going away"

def maxConcurrentClientsNumber : Int := 10

def maxConnectionsForOneClient : Int := 10

def commonErrorCode : Int := 200

def maxPort : Nat := 65535

def int32Max : Nat := 2147483647

def websocketErrorPermissionDenied : Int := 201

def websocketErrorCodeFileNotExist : Int := 2302002

def websocketErrorCodeInvalidNic : Int := 2302004

def websocketErrorCodeInvalidPort : Int := 2302005

def websocketErrorCodeConnectionNotExist : Int := 2302006

def websocketErrorCodePortAlreadyOccupied : Int := 2302007

def websocketUnknownOtherError : Int := 2302999

def websocketDataLengthExceeds : Int := 1012

/-- The calls of the callbacks that an application has registered. -/
inductive Call where
  | onError (code : Int)
  | onConnect (connection : SocketConnection)
  | onClose (code : UInt32) (reason : Bytes) (connection : SocketConnection)
  | onMessageReceive (data : Bytes) (connection : SocketConnection)
  deriving DecidableEq, Repr

/-- Which callbacks are registered. -/
structure Registered where
  onError : Bool := true
  onConnect : Bool := true
  onClose : Bool := true
  onMessageReceive : Bool := true
  deriving DecidableEq, Repr

structure Server (κ : Type) where
  serverContext : ServerContext κ := {}
  joinable : Bool := false
  registered : Registered := {}
  wsiUser : κ → Option Nat := fun _ => none
  writables : Writables κ := fun _ => false
  written : Nat → List SendData := fun _ => []
  closeReasons : κ → Option (UInt32 × Bytes) := fun _ => none
  calls : List Call := []

namespace Server

variable {κ : Type} [DecidableEq κ]

variable (s : Server κ)

section Reporting

def call (registered : Bool) (c : Call) : Server κ :=
  if registered then { s with calls := s.calls ++ [c] } else s

def onServerError (code : Int) : Server κ :=
  s.call s.registered.onError (.onError code)

def raiseServerError : Int × Server κ :=
  (-1, s.onServerError commonErrorCode)

/-- Change the context. -/
def mapContext (f : ServerContext κ → ServerContext κ) : Server κ :=
  { s with serverContext := f s.serverContext }

def setSession (s : Server κ) (n : Nat) (u : UserData κ) : Server κ :=
  s.mapContext fun c => c.setSession n u

def triggerClient (n : Nat) : Server κ :=
  { s with writables := (s.serverContext.sessions n).triggerWritable s.writables }

/-- The writable callback of the connection is no longer pending. -/
def takeWritable (wsi : κ) : Server κ :=
  { s with writables := update s.writables wsi false }

end Reporting

variable (p : Platform κ)

section Admission

variable (connections : List SocketConnection)

def isOverMaxConcurrentClientsCnt (ip : Bytes) : Bool :=
  let uniqueIp := (connections.map (·.clientIP)).dedup
  let limit := s.serverContext.startServerConfig.maxConcurrentClientsNumber
  if ip ∈ uniqueIp then limit < uniqueIp.length else limit < uniqueIp.length + 1

def isOverMaxCntForOneClient (ip : Bytes) : Bool :=
  s.serverContext.startServerConfig.maxConnectionsForOneClient <
    connections.countP (fun conn => ip = conn.clientIP) + 1

def isOverMaxClientConns (s : Server κ) (ip : Bytes) : Bool :=
  let connections := s.serverContext.listAllConnections p
  s.isOverMaxConcurrentClientsCnt connections ip || s.isOverMaxCntForOneClient connections ip

def lwsCallbackFilterProtocolConnection (s : Server κ)
    (peer : Option SocketConnection) (now : Nat → UInt64) : Int × Server κ :=
  if s.serverContext.closed ∨ s.serverContext.threadStop then (-1, s)
  else
    match peer with
    | none => s.raiseServerError
    | some connection =>
      if s.isOverMaxClientConns p connection.clientIP then s.raiseServerError
      else
        match s.serverContext.isAllowConnection now connection.clientIP with
        | (false, c) => Server.raiseServerError { s with serverContext := c }
        | (true, c) => (0, { s with serverContext := c })

end Admission

section Callbacks

/-- The connection gets a session. -/
def bindSession (wsi : κ) : Server κ :=
  { s with
    serverContext := s.serverContext.addClientUserData wsi
    wsiUser := update s.wsiUser wsi (some s.serverContext.sessionCount) }

def listConnection (wsi : κ) (connection : SocketConnection) : Server κ :=
  s.mapContext fun c => c.addConnections connection.clientId wsi connection

/-- The connection gets a session and is listed. -/
def acceptConnection (wsi : κ) (connection : SocketConnection) : Server κ :=
  let n := s.serverContext.sessionCount
  let listed := (s.bindSession wsi).listConnection wsi connection
  (listed.setSession n ((listed.serverContext.sessions n).setLws (some wsi))).triggerClient n

def lwsCallbackEstablished (wsi : κ) (peer : Option SocketConnection) : Int × Server κ :=
  if s.serverContext.closed ∨ s.serverContext.threadStop then s.raiseServerError
  else
    match peer with
    | none => (s.bindSession wsi).raiseServerError
    | some connection =>
      (0, (s.acceptConnection wsi connection).call s.registered.onConnect (.onConnect connection))

/-- The message of a connection is handed to the application. -/
def deliver (s : Server κ) (wsi : κ) (isBinary : Bool) : Server κ :=
  let received := s.call s.registered.onMessageReceive
    (.onMessageReceive (s.serverContext.getWsServerData isBinary wsi)
      (s.serverContext.getConnectionFromWsi p wsi))
  received.mapContext fun c => (c.clearWsServerData true wsi).clearWsServerData false wsi

def lwsCallbackReceive (s : Server κ) (wsi : κ) (data : Bytes)
    (isBinary isFinal : Bool) : Int × Server κ :=
  if int32Max < data.length then (-1, s)
  else
    match s.serverContext.appendWsServerData isBinary wsi data with
    | (true, c) =>
      (0, Server.onServerError { s with serverContext := c } websocketDataLengthExceeds)
    | (false, c) =>
      if isFinal then (0, Server.deliver p { s with serverContext := c } wsi isBinary)
      else (0, { s with serverContext := c })

/-- The first message of a session is popped and written. -/
def writeFirst (n : Nat) : Option (Server κ) :=
  match (s.serverContext.sessions n).pop with
  | (none, _) => none
  | (some sendData, u) =>
    if sendData.data = [] then none
    else
      some { s.setSession n u with
        written := update s.written n (s.written n ++ [sendData]) }

def triggerRest (n : Nat) : Server κ :=
  if (s.serverContext.sessions n).dataQueue = [] then s else s.triggerClient n

def lwsCloseReason (wsi : κ) (u : UserData κ) : Server κ :=
  { s with
    closeReasons :=
      update s.closeReasons wsi (some (u.closeStatus, cString u.closeReason)) }

def lwsCallbackServerWriteable (wsi : κ) : Int × Server κ :=
  if s.serverContext.threadStop then (-1, s)
  else
    match s.wsiUser wsi with
    | none => s.raiseServerError
    | some n =>
      let u := s.serverContext.sessions n
      if u.closed then (-1, s.lwsCloseReason wsi u)
      else
        match s.writeFirst n with
        | none => (0, s.setSession n u.pop.2)
        | some s => (0, s.triggerRest n)

/-- Without a status the close is taken for one of the server. -/
def lwsCallbackWsPeerInitiatedCloseServer (wsi : κ) (payload : Bytes) : Int × Server κ :=
  match payload with
  | hi :: lo :: closeReason =>
    match s.wsiUser wsi with
    | none => (0, s)
    | some n =>
      let closeStatus := (join16 hi lo).toUInt32
      (0, s.setSession n ((s.serverContext.sessions n).close closeStatus closeReason))
  | _ => (0, s.mapContext fun c => c.close lwsCloseStatusNormal [])

/-- The session of the client is closed and the application is told about it. -/
def closeClient (s : Server κ) (wsi : κ) (n : Nat) : Server κ :=
  let u := ((s.serverContext.sessions n).setThreadStop true).closeIfReasonEmpty linkDown
  let closed := s.setSession n u
  let reported :=
    if u.closeStatus = lwsCloseStatusNoStatus then closed.onServerError commonErrorCode
    else closed
  reported.call s.registered.onClose
    (.onClose u.closeStatus (cString u.closeReason) (s.serverContext.getConnectionFromWsi p wsi))

def stopIfClosed : Server κ :=
  if s.serverContext.closed ∧ ¬ s.serverContext.threadStop then
    s.mapContext fun c => c.setThreadStop true
  else s

def lwsCallbackClosed (s : Server κ) (wsi : κ) : Int × Server κ :=
  if s.serverContext.closed ∨ s.serverContext.threadStop then (-1, s)
  else
    match s.serverContext.userDataMap wsi with
    | none => s.raiseServerError
    | some n =>
      let clientId := s.serverContext.getClientIdFromConnectionByWsi p wsi
      let removed := (s.closeClient p wsi n).mapContext fun c =>
        (c.removeConnections clientId).removeClientUserData wsi
      (0, { removed with wsiUser := update removed.wsiUser wsi none }.stopIfClosed)

end Callbacks

section Control

def checkServerConfig (config : ServerConfig) : Int :=
  if !p.isValidIPV4 config.serverIP && !p.isValidIPV6 config.serverIP then
    websocketErrorCodeInvalidNic
  else if maxPort < (UInt32.ofInt config.serverPort).toNat then websocketErrorCodeInvalidPort
  else if config.maxConcurrentClientsNumber < 0 ∨ config.maxConnectionsForOneClient < 0 then
    websocketUnknownOtherError
  else if maxConcurrentClientsNumber < config.maxConcurrentClientsNumber then
    websocketUnknownOtherError
  else if maxConnectionsForOneClient < config.maxConnectionsForOneClient then
    websocketUnknownOtherError
  else 0

def fillServerCertPath (cert : ServerCert) : Bool :=
  cert.certPath.isEmpty ||
    ((p.realpath cert.certPath).isSome && (p.realpath cert.keyPath).isSome)

def start (s : Server κ) (permission : Bool) (config : ServerConfig)
    (created : Bool) : Int × Server κ :=
  if s.joinable then (websocketUnknownOtherError, s)
  else if !permission then
    (websocketErrorPermissionDenied, s.mapContext fun c => { c with permissionDenied := true })
  else if checkServerConfig p config ≠ 0 then (checkServerConfig p config, s)
  else
    let configured := s.mapContext fun c => { c with startServerConfig := config }
    if !fillServerCertPath p config.serverCert then (websocketErrorCodeFileNotExist, configured)
    else if !created then (websocketErrorCodePortAlreadyOccupied, configured)
    else (0, { configured.mapContext fun c => { c with context := true } with joinable := true })

/-- Close the session of one listed client. -/
def closeListed (entry : Bytes × κ × SocketConnection) : Server κ :=
  match s.serverContext.userDataMap entry.2.1 with
  | none => s
  | some n =>
    let u := (s.serverContext.sessions n).close lwsCloseStatusGoingAway serverGoingAway
    (s.setSession n u).triggerClient n

def closeAllConnection (s : Server κ) : Server κ :=
  match p.visit s.serverContext.webSocketConnection with
  | [] => s.mapContext fun c => c.setThreadStop true
  | entries => entries.foldl closeListed s

def destroyContext : Server κ :=
  s.mapContext fun c => { c with context := false }

/-- What `Close` and `Send` do with a session: it is changed if it is open, and a writable callback
is requested. -/
def editSession (wsi : κ) (edit : UserData κ → UserData κ) : Int × Server κ :=
  match s.wsiUser wsi with
  | none => (-1, s)
  | some n =>
    if (s.serverContext.sessions n).closed ∨ (s.serverContext.sessions n).threadStop then (-1, s)
    else (0, (s.setSession n (edit (s.serverContext.sessions n))).triggerClient n)

def close (s : Server κ) (permission : Bool) (connection : SocketConnection) (code : UInt32)
    (reason : Option Bytes) : Int × Server κ :=
  if !s.serverContext.context then (-1, s)
  else if !permission then (-1, s.mapContext fun c => { c with permissionDenied := true })
  else if connection.clientIP = [] then (-1, s)
  else
    match s.serverContext.getClientWsi connection.clientId, reason with
    | none, _ => (websocketErrorCodeConnectionNotExist, s)
    | some _, none => (-1, s)
    | some wsi, some reason => s.editSession wsi fun u => u.close code reason

/-- Data with a zero byte is sent as binary. -/
def sendProtocol (data : Bytes) : LwsWriteProtocol :=
  if 0 ∈ data then .binary else .text

def send (permission : Bool) (data : Bytes) (connection : SocketConnection) : Int × Server κ :=
  if data = [] then (-1, s)
  else if !s.serverContext.context then (-1, s)
  else if !permission then (-1, s.mapContext fun c => { c with permissionDenied := true })
  else if connection.clientIP = [] then (-1, s)
  else
    match s.serverContext.getClientWsi connection.clientId with
    | none => (websocketErrorCodeConnectionNotExist, s)
    | some wsi => s.editSession wsi fun u => u.push ⟨data, sendProtocol data⟩

end Control

end Server

end Netstack.WebSocketServer
