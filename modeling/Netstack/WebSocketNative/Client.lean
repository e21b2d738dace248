import Netstack.Common.Text
import Netstack.Foundation.NetworkOrder
import Netstack.WebSocketNative.ServerContext

/-!
# The native WebSocket client

`WebSocketClient` with its `ClientContext`, and the callbacks that libwebsockets makes for it.

## Implementation notes

What the system, the network and libwebsockets answer to an attempt to connect is its
`Environment`. `Connect`, `Close` and `Destroy` are cut where they wait for the service thread.
Memory does not run out; the proxy and the statistics are left out.
-/

namespace Netstack.WebSocketClient

open Foundation WebSocket
open WebSocketServer (websocketPerMessageMaxSize)

section Constants

def maxUriLength : Nat := 8196

def maxHeaderLength : Nat := 8192

def maxDataLength : Nat := 4 * 1024 * 1024

def closeResultFromServerCode : UInt32 := 1001

def closeResultFromClientCode : UInt32 := 1000

def linkDown : Bytes := ascii "The link is down"

def closeReasonFormServer : Bytes := ascii "websocket close from server"

def websocketDataLengthExceededStr : Bytes := ascii "websocket data length exceeded"

def websocketNoneErr : Int := 0

def websocketConnectionError : Int := 1003

def websocketConnectionParseurlError : Int := 1004

def websocketConnectionNoMemoery : Int := 1005

def websocketConnectionToServerFail : Int := 1006

def websocketSendDataNull : Int := 1011

def websocketDataLengthExceeds : Int := 1012

def websocketErrorNoHeadrExceeds : Int := 1016

def websocketErrorHaveNoConnectContext : Int := 1018

def websocketErrorFileNotExist : UInt32 := 1019

def websocketErrorPermissionDenied : Int := 1020

def websocketErrorDisallowHost : Int := 1021

def websocketErrorCodeUrlError : Int := 2302001

def websocketErrorCodeFileNotExist : Int := 2302002

def websocketErrorCodeConnectAlreadyExist : Int := 2302003

end Constants

section Data

structure OpenOptions where
  headers : Std.ExtTreeMap Bytes Bytes := ∅
  supportOriginPort : Bool := false

structure Uri where
  scheme : Bytes
  address : Bytes
  port : Int
  path : Bytes
  deriving DecidableEq, Repr

structure ConnectInfo where
  address : Bytes
  port : Int
  path : Bytes
  host : Bytes
  origin : Bytes
  secure : Bool
  deriving DecidableEq, Repr

/-- The answers to an attempt to connect. -/
structure Environment (κ : Type) where
  permission : Bool := true
  allowedHostname : Bool := true
  /-- The directory of user certificates, if they are trusted. -/
  userCa : Option Bytes := none
  realpath : Bytes → Option Bytes := some
  lwsParseUri : Bytes → Option Uri
  context : Option Nat
  wsi : Option κ

/-- The fields of a context that its owner sets. -/
structure Settings where
  isAtomicService : Bool := false
  caPath : Bytes := []
  userCertPath : Bytes := []
  clientCert : Bytes := []
  clientKey : Bytes := []
  deriving DecidableEq, Repr

structure ClientContext (κ : Type) where
  settings : Settings := {}
  header : Std.ExtTreeMap Bytes Bytes := ∅
  supportOriginPort : Bool := false
  permissionDenied : Bool := false
  noAllowedHost : Bool := false
  closeStatus : UInt32 := lwsCloseStatusNoStatus
  closeReason : Bytes := []
  openStatus : UInt32 := 0
  errorCode : UInt32 := 0
  openMessage : Bytes := []
  openProtocol : Bytes := []
  closed : Bool := false
  threadStop : Bool := false
  context : Option Nat := none
  dataQueue : List SendData := []
  wsi : Option κ := none

/-- The calls of the callbacks that an application has registered. -/
inductive Call where
  | onOpen (status : UInt32) (message : Bytes)
  | onOpenInfo (status : UInt32) (message protocol : Bytes)
  | onHeaderReceive (headers : Std.ExtTreeMap Bytes Bytes)
  | onMessage (data : Bytes)
  | onDataEnd
  | onError (code : Int) (message : Bytes)
  | onClose (code : UInt32) (reason : Bytes)
  deriving DecidableEq

/-- Which callbacks are registered. -/
structure Registered where
  onOpen : Bool := true
  onOpenInfo : Bool := true
  onHeaderReceive : Bool := true
  onMessage : Bool := true
  onDataEnd : Bool := true
  onError : Bool := true
  onClose : Bool := true
  deriving DecidableEq, Repr

structure Client (κ : Type) where
  clientContext : ClientContext κ := {}
  data : Bytes := []
  /-- The context that the service thread serves, while that can be joined. -/
  serviceThread : Option Nat := none
  registered : Registered := {}
  connects : List (κ × ConnectInfo) := []
  handshakes : List (κ × Bytes × Bytes) := []
  writables : Writables κ := fun _ => false
  written : List (κ × SendData) := []
  closeReasons : κ → Option (UInt32 × Bytes) := fun _ => none
  calls : List Call := []

end Data

namespace ClientContext

variable {κ : Type}

variable (c : ClientContext κ)

def close (status : UInt32) (reason : Bytes) : ClientContext κ :=
  { c with closeStatus := status, closeReason := reason, closed := true }

def closeIfReasonEmpty (reason : Bytes) : ClientContext κ :=
  if c.closeReason = [] then { c with closeReason := reason, closed := true } else c

def setThreadStop (threadStop : Bool) : ClientContext κ :=
  { c with threadStop }

def setContext (context : Option Nat) : ClientContext κ :=
  { c with context }

def setLws (wsi : Option κ) : ClientContext κ :=
  { c with wsi }

def push (data : SendData) : ClientContext κ :=
  { c with dataQueue := c.dataQueue ++ [data] }

def pop : Option SendData × ClientContext κ :=
  (c.dataQueue.head?, { c with dataQueue := c.dataQueue.tail })

def resetConnectionState : ClientContext κ :=
  { c with
    closed := false
    closeStatus := lwsCloseStatusNoStatus
    closeReason := []
    openStatus := 0
    threadStop := false }

/-- Assign the headers of the options, one after another. -/
def addHeaders (options : OpenOptions) : ClientContext κ :=
  { c with
    header := options.headers.toList.foldl (fun header item => header.insert item.1 item.2) c.header
    supportOriginPort := options.supportOriginPort }

def setErrorCode (errorCode : UInt32) : ClientContext κ :=
  { c with errorCode }

def mapSettings (f : Settings → Settings) : ClientContext κ :=
  { c with settings := f c.settings }

/-- The certificates of the authorities, as `FillCaPath` looks for them. -/
def loadCa (env : Environment κ) (c : ClientContext κ) : Option (ClientContext κ) :=
  if c.settings.caPath = [] then
    match env.userCa with
    | none => some c
    | some path => some (c.mapSettings fun s => { s with userCertPath := path })
  else
    match env.realpath (cString c.settings.caPath) with
    | none => none
    | some path => some (c.mapSettings fun s => { s with caPath := path })

def fillCaPath (env : Environment κ) (c : ClientContext κ) : Bool × ClientContext κ :=
  match c.loadCa env with
  | none => (false, c.setErrorCode websocketErrorFileNotExist)
  | some loaded =>
    if loaded.settings.clientCert = [] then (true, loaded)
    else
      match env.realpath (cString loaded.settings.clientCert) with
      | none => (false, loaded.setErrorCode websocketErrorFileNotExist)
      | some cert =>
        let certified := loaded.mapSettings fun s => { s with clientCert := cert }
        match env.realpath (cString loaded.settings.clientKey) with
        | none => (false, certified.setErrorCode websocketErrorFileNotExist)
        | some key => (true, certified.mapSettings fun s => { s with clientKey := key })

end ClientContext

section Urls

variable {κ : Type}

variable (env : Environment κ)

variable (url : Bytes)

def parseUrl : Option Uri :=
  if (cString url).length < maxUriLength then env.lwsParseUri (cString url) else none

def parseUrlEx : Option Uri :=
  match parseUrl env url with
  | none => none
  | some uri => if uri.scheme = ascii "wss" ∨ uri.scheme = ascii "ws" then some uri else none

def portToString (port : Int) : Bytes :=
  if port < 0 then ascii "-" ++ decimal port.natAbs else decimal port.natAbs

def isDefaultWebSocketPort (scheme : Bytes) (port : Int) : Bool :=
  (scheme = ascii "ws" ∧ port = 80) ∨ (scheme = ascii "wss" ∧ port = 443)

def buildWebSocketHost (uri : Uri) : Bytes :=
  if isDefaultWebSocketPort uri.scheme uri.port then uri.address
  else uri.address ++ ascii ":" ++ portToString uri.port

def buildWebSocketOrigin (uri : Uri) (supportOriginPort : Bool) : Bytes :=
  if supportOriginPort then buildWebSocketHost uri else uri.address

/-- What `CreatConnectInfo` and `CreatConnectInfoEx` do with a URL that was parsed. -/
def connectVia (parsed : Option Uri) (urlError connectError : Int)
    (supportOriginPort : Bool) : Except Int (κ × ConnectInfo) :=
  match parsed with
  | none => .error urlError
  | some uri =>
    let path := ascii "/" ++ uri.path
    if (cString path).length ≠ path.length then .error (-1)
    else
      match env.wsi with
      | none => .error connectError
      | some wsi =>
        .ok (wsi,
          { address := uri.address
            port := uri.port
            path
            host := buildWebSocketHost uri
            origin := buildWebSocketOrigin uri supportOriginPort
            secure := uri.scheme = ascii "https" ∨ uri.scheme = ascii "wss" })

def creatConnectInfo (supportOriginPort : Bool) : Except Int (κ × ConnectInfo) :=
  connectVia env (parseUrl env url) websocketConnectionParseurlError
    websocketConnectionToServerFail supportOriginPort

def creatConnectInfoEx (supportOriginPort : Bool) : Except Int (κ × ConnectInfo) :=
  connectVia env (parseUrlEx env url) websocketErrorCodeUrlError (-1) supportOriginPort

end Urls

variable (data : Option Bytes)

namespace Client

variable {κ : Type}

/-- A client that has just been made, with the fields that its owner has set. -/
def fresh (registered : Registered) (settings : Settings) : Client κ :=
  { registered, clientContext := { settings } }

variable (c : Client κ)

/-- Change the context. -/
def mapContext (f : ClientContext κ → ClientContext κ) : Client κ :=
  { c with clientContext := f c.clientContext }

def call (registered : Bool) (event : Call) : Client κ :=
  if registered then { c with calls := c.calls ++ [event] } else c

variable (env : Environment κ)

section Connecting

def checkConnectPermission (c : Client κ) : Option Int × Client κ :=
  if !env.permission then
    (some websocketErrorPermissionDenied, c.mapContext fun x => { x with permissionDenied := true })
  else if c.clientContext.settings.isAtomicService && !env.allowedHostname then
    (some websocketErrorDisallowHost, c.mapContext fun x => { x with noAllowedHost := true })
  else (none, c)

variable (url : Bytes) (options : OpenOptions)

/-- What `Connect` and `ConnectEx` have in common: the checks and the headers. -/
def prepare (c : Client κ) : Option Int × Client κ :=
  match c.checkConnectPermission env with
  | (some code, checked) => (some code, checked)
  | (none, checked) =>
    if maxHeaderLength < options.headers.size then (some websocketErrorNoHeadrExceeds, checked)
    else (none, checked.mapContext fun x => x.addHeaders options)

/-- `Connect` until it waits for the service thread. -/
def connectStart (c : Client κ) : Option Int × Client κ :=
  match c.prepare env options with
  | (some code, prepared) => (some code, prepared)
  | (none, prepared) =>
    if prepared.clientContext.context.isSome && !prepared.clientContext.threadStop then
      (some websocketErrorCodeConnectAlreadyExist, prepared)
    else (none, prepared)

/-- The service thread has been joined and the context released. -/
def release : Client κ :=
  { c with serviceThread := none }.mapContext fun x => x.setContext none

/-- Create a context and a connection in it. -/
def attempt (info : Except Int (κ × ConnectInfo)) (c : Client κ) : Int × Client κ :=
  match env.context with
  | none => (websocketConnectionNoMemoery, c)
  | some n =>
    match info with
    | .error code => (code, c.mapContext fun x => x.setContext none)
    | .ok connected =>
      (websocketNoneErr,
        { c with connects := c.connects ++ [connected] }.mapContext fun x =>
          x.setContext (some n))

def doConnect (c : Client κ) : Int × Client κ :=
  (c.mapContext fun x => (x.fillCaPath env).2).attempt env
    (creatConnectInfo env url c.clientContext.supportOriginPort)

/-- `Connect` after the service thread. -/
def connectFinish (c : Client κ) : Int × Client κ :=
  match (c.release.mapContext fun x => x.resetConnectionState).doConnect env url with
  | (ret, connected) =>
    if ret = websocketNoneErr then
      (websocketNoneErr, { connected with serviceThread := connected.clientContext.context })
    else (ret, connected)

def connect (c : Client κ) : Int × Client κ :=
  match c.connectStart env options with
  | (some code, prepared) => (code, prepared)
  | (none, prepared) => prepared.connectFinish env url

/-- A certificate path that was set becomes the path of the authorities. -/
def useUserCert : Client κ :=
  if c.clientContext.settings.userCertPath = [] then c
  else c.mapContext fun x => x.mapSettings fun s => { s with caPath := s.userCertPath }

def connectEx (c : Client κ) : Int × Client κ :=
  match c.prepare env options with
  | (some code, prepared) => (code, prepared)
  | (none, prepared) =>
    match prepared.useUserCert.clientContext.fillCaPath env with
    | (false, x) =>
      (websocketErrorCodeFileNotExist, { prepared.useUserCert with clientContext := x })
    | (true, x) =>
      if x.context.isSome then
        (websocketErrorCodeConnectAlreadyExist,
          { prepared.useUserCert with clientContext := x })
      else
        attempt env (creatConnectInfoEx env url x.supportOriginPort)
          { prepared.useUserCert with clientContext := x }

end Connecting

variable [DecidableEq κ]

def triggerWritable : Client κ :=
  match c.clientContext.wsi with
  | none => c
  | some wsi => { c with writables := Function.update c.writables wsi true }

/-- The writable callback of the connection is no longer pending. -/
def takeWritable (wsi : κ) : Client κ :=
  { c with writables := Function.update c.writables wsi false }

section Calls

def sendProtocol (data : Bytes) : LwsWriteProtocol :=
  if 0 ∈ data then .binary else .text

def enqueue (data : Bytes) : Int × Client κ :=
  (websocketNoneErr, (c.mapContext fun x => x.push ⟨data, sendProtocol data⟩).triggerWritable)

def send (c : Client κ) : Int × Client κ :=
  match data with
  | none => (websocketSendDataNull, c)
  | some data =>
    if data = [] then (websocketNoneErr, c)
    else if maxDataLength < data.length then (websocketDataLengthExceeds, c)
    else c.enqueue data

def sendEx (permission : Bool) (data : Option Bytes) (c : Client κ) : Int × Client κ :=
  match data with
  | none => (websocketSendDataNull, c)
  | some data =>
    if !permission then
      (websocketErrorPermissionDenied, c.mapContext fun x => { x with permissionDenied := true })
    else if data = [] then (websocketNoneErr, c)
    else if maxDataLength < data.length then (websocketDataLengthExceeds, c)
    else if c.clientContext.context.isNone then (-1, c)
    else c.enqueue data

/-- Close the session with the given code and reason, or with those for a client that gives
none. -/
def closeWith (code : UInt32) (reason : Option Bytes) (c : Client κ) : Int × Client κ :=
  let closed :=
    match reason with
    | none => c.mapContext fun x => x.close closeResultFromClientCode []
    | some reason =>
      if code = 0 then c.mapContext fun x => x.close closeResultFromClientCode []
      else c.mapContext fun x => x.close code (cString reason)
  (websocketNoneErr, closed.triggerWritable)

/-- `Close` until it waits for the service thread, which it does if no connection was opened. -/
def closeStart (code : UInt32) (reason : Option Bytes) (c : Client κ) : Option Int × Client κ :=
  if c.clientContext.openStatus = 0 then (none, c.mapContext fun x => x.setThreadStop true)
  else
    match c.closeWith code reason with
    | (ret, closed) => (some ret, closed)

def closeEx (permission : Bool) (code : UInt32) (reason : Option Bytes) (c : Client κ) :
    Int × Client κ :=
  if !permission then
    (websocketErrorPermissionDenied, c.mapContext fun x => { x with permissionDenied := true })
  else if c.clientContext.context.isNone then (-1, c)
  else c.closeWith code reason

/-- `Destroy` until it waits for the service thread. -/
def destroyStart : Option Int × Client κ :=
  if c.clientContext.context.isNone then (some websocketErrorHaveNoConnectContext, c)
  else (none, c.mapContext fun x => x.setThreadStop true)

end Calls

section Receiving

def appendData (c : Client κ) : Int × Client κ :=
  match data with
  | none => (websocketSendDataNull, c)
  | some data =>
    if websocketPerMessageMaxSize - c.data.length < data.length then
      (websocketDataLengthExceeds, { c with data := [] })
    else (websocketNoneErr, { c with data := c.data ++ data })

/-- The application gets what was received, which is then cleared. -/
def deliver : Client κ :=
  { (c.call c.registered.onMessage (.onMessage c.data)).call c.registered.onDataEnd .onDataEnd with
    data := [] }

def lwsCallbackClientReceive (isFinal : Bool) (c : Client κ) : Int × Client κ :=
  match c.appendData data with
  | (ret, appended) =>
    if ret ≠ websocketNoneErr then
      (0, appended.call c.registered.onError
        (.onError websocketDataLengthExceeds websocketDataLengthExceededStr))
    else if isFinal then (0, appended.deliver)
    else (0, appended)

end Receiving

section Callbacks

/-- The headers are added until libwebsockets has no room for one. -/
def lwsCallbackClientAppendHandshakeHeader (wsi : κ) (takes : Bytes → Bytes → Bool)
    (c : Client κ) : Int × Client κ :=
  let headers := c.clientContext.header.toList.map fun item =>
    (cString (item.1 ++ ascii ":"), cString item.2)
  let taken := headers.takeWhile fun item => takes item.1 item.2
  (if taken.length = headers.length then 0 else -1,
    { c with handshakes := c.handshakes ++ taken.map fun item => (wsi, item) })

def lwsCallbackWsPeerInitiatedClose (payload : Bytes) (c : Client κ) : Int × Client κ :=
  match payload with
  | hi :: lo :: reason =>
    (0, c.mapContext fun x => x.close (join16 hi lo).toUInt32 reason)
  | _ => (0, c.mapContext fun x => x.close lwsCloseStatusNormal [])

def triggerRest : Client κ :=
  if c.clientContext.dataQueue = [] then c else c.triggerWritable

def lwsCallbackClientWritable (wsi : κ) (c : Client κ) : Int × Client κ :=
  if c.clientContext.closed then
    (-1,
      { c with
        closeReasons := Function.update c.closeReasons wsi
          (some (c.clientContext.closeStatus, cString c.clientContext.closeReason)) })
  else
    match c.clientContext.pop with
    | (none, _) => (0, c)
    | (some sendData, popped) =>
      let sent := { c with clientContext := popped, written := c.written ++ [(wsi, sendData)] }
      (0, sent.triggerRest)

def lwsCallbackClientConnectionError (c : Client κ) : Int × Client κ :=
  let message :=
    match data with
    | none => ascii "Websocket connect failed"
    | some data => cString data
  (0, c.call c.registered.onError (.onError websocketConnectionError message))

/-- `Split` of the status line into `STATUS_LINE_ELEM_NUM` elements, of which the second is the
message. -/
def setOpenMessage (statusLine : Bytes) (c : Client κ) : Client κ :=
  match CommonUtils.cut (ascii " ") statusLine with
  | none => c
  | some (_, []) => c
  | some (_, message) => c.mapContext fun x => { x with openMessage := message }

/-- A status line or a protocol that `lws_hdr_copy` does not copy is `none`. -/
def lwsCallbackClientFilterPreEstablish (response : UInt32) (statusLine : Option Bytes)
    (protocol : Option Bytes) (responseHeader : Std.ExtTreeMap Bytes Bytes) (c : Client κ) :
    Int × Client κ :=
  let opened := c.mapContext fun x => { x with openStatus := response }
  match statusLine with
  | none => (0, opened)
  | some line =>
    if cString line = [] then (0, opened)
    else
      let named :=
        match protocol with
        | none => opened
        | some name => opened.mapContext fun x => { x with openProtocol := cString name }
      (0, (named.setOpenMessage (cString line)).call c.registered.onHeaderReceive
        (.onHeaderReceive responseHeader))

def lwsCallbackClientEstablished (wsi : κ) (c : Client κ) : Int × Client κ :=
  let addressed := c.triggerWritable.mapContext fun x => x.setLws (some wsi)
  let status := c.clientContext.openStatus
  let message := cString c.clientContext.openMessage
  let opened := addressed.call c.registered.onOpen (.onOpen status message)
  (0, opened.call c.registered.onOpenInfo
    (.onOpenInfo status message (cString c.clientContext.openProtocol)))

def lwsCallbackClientClosed : Int × Client κ :=
  let code :=
    if c.clientContext.closeStatus ≠ lwsCloseStatusNoStatus then c.clientContext.closeStatus
    else closeResultFromServerCode
  let reason :=
    if c.clientContext.closeReason ≠ [] then cString c.clientContext.closeReason
    else closeReasonFormServer
  (0, (c.call c.registered.onClose (.onClose code reason)).mapContext fun x =>
    (x.setThreadStop true).closeIfReasonEmpty linkDown)

def lwsCallbackWsiDestroy : Int × Client κ :=
  (0, c.mapContext fun x => x.setLws none)

end Callbacks

end Client

end Netstack.WebSocketClient
