import Netstack.Common.Text
import Netstack.Foundation.FiniteMaps
import Netstack.Foundation.NetworkOrder
import Netstack.WebSocket.UserData

/-!
# The WebSocket client of the JS interface

The libwebsockets callbacks of `WebSocketExec` over what the event manager of a `WebSocket` keeps:
its session, its listeners, the fragments and the messages that wait for the JS thread.

## Implementation notes

`attached` says whether the manager still has the session. What depends on the network is part of
a callback. A listener is a number, at most one for each event.
-/

namespace Netstack.WebSocket.ClientExec

open Foundation

def commonErrorCode : Nat := 200

def linkDown : Bytes := ascii "The link is down"

def int32Max : Nat := 2147483647

def maxProtocolLength : Nat := 1024

structure WebSocketRecvMessage where
  data : Bytes
  isBinary : Bool
  deriving DecidableEq, Repr

inductive EventName where
  | eventOpen
  | eventOpenInfo
  | eventMessage
  | eventClose
  | eventError
  | eventDataEnd
  | eventHeaderReceive
  deriving DecidableEq, Repr

inductive Work where
  | openPara (status : UInt32) (message : Bytes)
  | openExPara (status : UInt32) (message protocol : Bytes)
  | messagePara
  | closePara (status : UInt32) (reason : Bytes)
  | error (code : Nat) (data : UInt32)
  | responseHeader (headers : Std.ExtTreeMap Bytes Bytes)

def Work.eventName : Work → EventName
  | .openPara .. => .eventOpen
  | .openExPara .. => .eventOpenInfo
  | .messagePara => .eventMessage
  | .closePara .. => .eventClose
  | .error .. => .eventError
  | .responseHeader .. => .eventHeaderReceive

structure Manager (κ : Type) where
  userData : UserData κ := {}
  attached : Bool := true
  openStatus : UInt32 := 0
  openMessage : Bytes := []
  httpVersion : Bytes := ascii "HTTP/1.1"
  negotiatedProtocol : Bytes := []
  listeners : EventName → Option Nat := fun _ => none
  webSocketTextData : Bytes := []
  webSocketBinaryData : Bytes := []
  dataQueue : List WebSocketRecvMessage := []
  works : List Work := []
  writables : Writables κ := fun _ => false
  written : List SendData := []
  closeReasons : List (UInt32 × Bytes) := []

namespace Manager

variable {κ : Type}

section Listeners

variable (m : Manager κ)

variable (type : EventName)

def hasEventListener : Bool := (m.listeners type).isSome

def addListener (callback : Nat) : Manager κ :=
  { m with listeners := Function.update m.listeners type (some callback) }

/-- Without a callback every listener of the event is removed. -/
def deleteListener (callback : Option Nat) : Manager κ :=
  if callback.isNone ∨ m.listeners type = callback then
    { m with listeners := Function.update m.listeners type none }
  else m

def emitByUv (work : Work) : Manager κ :=
  if m.hasEventListener work.eventName then { m with works := m.works ++ [work] } else m

def onError (code : Nat) (httpResponse : UInt32) : Manager κ :=
  m.emitByUv (.error code httpResponse)

def onOpen (status : UInt32) (message : Bytes) : Manager κ :=
  m.emitByUv (.openPara status message)

def onOpenInfo (status : UInt32) (message protocol : Bytes) : Manager κ :=
  m.emitByUv (.openExPara status message protocol)

def onClose (closeStatus : UInt32) (closeReason : Bytes) : Manager κ :=
  m.emitByUv (.closePara closeStatus closeReason)

def onHeaderReceive (headers : Std.ExtTreeMap Bytes Bytes) : Manager κ :=
  m.emitByUv (.responseHeader headers)

def raiseError (httpResponse : UInt32) : Int × Manager κ :=
  (-1, m.onError commonErrorCode httpResponse)

def httpDummy (httpResponse : UInt32) (ret : Int) : Int × Manager κ :=
  (0, if ret < 0 then m.onError commonErrorCode httpResponse else m)

end Listeners

section Receiving

variable (m : Manager κ)

variable (isBinary : Bool)

/-- The buffer for the fragments of a kind of message. -/
def webSocketData : Bytes :=
  if isBinary then m.webSocketBinaryData else m.webSocketTextData

variable (data : Bytes)

def setWebSocketData : Manager κ :=
  if isBinary then { m with webSocketBinaryData := data }
  else { m with webSocketTextData := data }

def setQueueData (msg : WebSocketRecvMessage) : Manager κ :=
  { m with dataQueue := m.dataQueue ++ [msg] }

def getQueueData : Option WebSocketRecvMessage × Manager κ :=
  (m.dataQueue.head?, { m with dataQueue := m.dataQueue.tail })

/-- `HandleRcvMessage` up to the message that it puts into the queue. -/
def appendFragment (isBinary isFinal : Bool) : Manager κ :=
  let appended := m.setWebSocketData isBinary (m.webSocketData isBinary ++ data)
  if isFinal then appended.setQueueData ⟨appended.webSocketData isBinary, isBinary⟩ else appended

/-- The rest of `HandleRcvMessage` for the last fragment of a message. -/
def emitMessage : Manager κ :=
  (m.emitByUv .messagePara).setWebSocketData isBinary []

def handleRcvMessage (isBinary isFinal : Bool) : Manager κ :=
  if isFinal then (m.appendFragment data isBinary isFinal).emitMessage isBinary
  else m.appendFragment data isBinary isFinal

def onMessage (isBinary isFinal : Bool) : Manager κ :=
  if m.hasEventListener .eventMessage then
    if int32Max < data.length then m else m.handleRcvMessage data isBinary isFinal
  else m

end Receiving

section Callbacks

variable (m : Manager κ)

def setNegotiatedProtocol (protocol : Bytes) : Manager κ :=
  { m with
    negotiatedProtocol :=
      if maxProtocolLength ≤ protocol.length then protocol.take (maxProtocolLength - 1)
      else protocol }

/-- `Split` of the status line into `STATUS_LINE_ELEM_NUM` elements, as `SetUserDataInfo` reads
them. -/
def setUserDataInfo (statusLine : Bytes) : Manager κ :=
  match CommonUtils.cut (ascii " ") statusLine with
  | none => { m with httpVersion := statusLine }
  | some (version, []) => { m with httpVersion := version }
  | some (version, message) => { m with httpVersion := version, openMessage := message }

def lwsCallbackClientFilterPreEstablish (response : UInt32) (statusLine : Bytes)
    (protocol : Option Bytes) (responseHeader : Std.ExtTreeMap Bytes Bytes) (ret : Int) :
    Int × Manager κ :=
  if m.attached then
    let opened := { m with openStatus := response }
    if statusLine = [] then opened.httpDummy response ret
    else
      let named :=
        match protocol with
        | none => opened
        | some name => opened.setNegotiatedProtocol name
      ((named.setUserDataInfo statusLine).onHeaderReceive responseHeader).httpDummy response ret
  else m.raiseError response

variable [DecidableEq κ] (response : UInt32)

def triggerWritable (m : Manager κ) : Manager κ :=
  { m with writables := m.userData.triggerWritable m.writables }

/-- The writable callback of the connection is no longer pending. -/
def takeWritable (wsi : κ) : Manager κ :=
  { m with writables := Function.update m.writables wsi false }

/-- What the callback for an established connection does after its request for a writable
callback. -/
def addressSession (wsi : κ) (response : UInt32) (ret : Int) : Int × Manager κ :=
  let addressed := { m with userData := m.userData.setLws (some wsi) }
  let opened := addressed.onOpen m.openStatus m.openMessage
  (opened.onOpenInfo m.openStatus m.openMessage m.negotiatedProtocol).httpDummy response ret

def lwsCallbackClientEstablished (wsi : κ) (response : UInt32) (ret : Int) : Int × Manager κ :=
  if m.attached then m.triggerWritable.addressSession wsi response ret
  else m.raiseError response

def lwsCallbackClientReceive (data : Bytes) (isBinary isFinal : Bool) (ret : Int) :
    Int × Manager κ :=
  (m.onMessage data isBinary isFinal).httpDummy response ret

/-- The first message of the session is popped and written. -/
def writeFirst : Option (Manager κ) :=
  match m.userData.pop with
  | (none, _) => none
  | (some sendData, u) => some { m with userData := u, written := m.written ++ [sendData] }

/-- What the writable callback does about the messages that are left. -/
def triggerRest : Manager κ :=
  if m.userData.dataQueue = [] then m else m.triggerWritable

def lwsCloseReason : Manager κ :=
  { m with
    closeReasons :=
      m.closeReasons ++ [(m.userData.closeStatus, cString m.userData.closeReason)] }

variable (ret : Int)

def lwsCallbackClientWritable : Int × Manager κ :=
  if m.attached then
    if m.userData.closed then (-1, m.lwsCloseReason)
    else
      match m.writeFirst with
      | none => m.httpDummy response ret
      | some m => m.triggerRest.httpDummy response ret
  else m.raiseError response

def lwsCallbackWsPeerInitiatedClose (payload : Bytes) (ret : Int) : Int × Manager κ :=
  if m.attached then
    match payload with
    | hi :: lo :: closeReason =>
      let closeStatus := (join16 hi lo).toUInt32
      Manager.httpDummy { m with userData := m.userData.close closeStatus closeReason }
        response ret
    | _ =>
      Manager.httpDummy { m with userData := m.userData.close lwsCloseStatusNormal [] }
        response ret
  else m.raiseError response

def onConnectError (code : Nat) (httpResponse : UInt32) : Manager κ :=
  let stopped :=
    if m.attached then { m with userData := m.userData.setThreadStop true } else m
  stopped.onError code httpResponse

def lwsCallbackClientConnectionError : Int × Manager κ :=
  (m.onConnectError commonErrorCode response).httpDummy response ret

def lwsCallbackClientClosed : Int × Manager κ :=
  if m.attached then
    let u := (m.userData.setThreadStop true).closeIfReasonEmpty linkDown
    let closed := { m with userData := u }
    let reported :=
      if u.closeStatus = lwsCloseStatusNoStatus then closed.onError commonErrorCode response
      else closed
    (reported.onClose u.closeStatus u.closeReason).httpDummy response ret
  else m.raiseError response

def lwsCallbackWsiDestroy : Int × Manager κ :=
  if m.attached then
    Manager.httpDummy { m with userData := m.userData.setLws none } response ret
  else m.raiseError response

def lwsCallbackProtocolDestroy : Int × Manager κ :=
  m.httpDummy response ret

end Callbacks

section Frames

/-- The session and what was written are as before. -/
structure KeepsSession (m m' : Manager κ) : Prop where
  userData : m'.userData = m.userData
  attached : m'.attached = m.attached
  writables : m'.writables = m.writables
  written : m'.written = m.written

variable (m : Manager κ)

/-- The works that will take a message. -/
def messageWorks : Nat :=
  m.works.countP fun work => work.eventName = .eventMessage

/-- The listeners, the fragments, the queue and the works that take from it are as before. -/
structure KeepsMessages (m m' : Manager κ) : Prop where
  listeners : m'.listeners = m.listeners
  webSocketTextData : m'.webSocketTextData = m.webSocketTextData
  webSocketBinaryData : m'.webSocketBinaryData = m.webSocketBinaryData
  dataQueue : m'.dataQueue = m.dataQueue
  messageWorks : m'.messageWorks = m.messageWorks

structure Keeps (m m' : Manager κ) : Prop extends KeepsSession m m', KeepsMessages m m'

theorem KeepsSession.refl : KeepsSession m m := ⟨rfl, rfl, rfl, rfl⟩

theorem KeepsSession.trans {m m' m'' : Manager κ} (h : KeepsSession m m')
    (h' : KeepsSession m' m'') : KeepsSession m m'' where
  userData := h'.userData.trans h.userData
  attached := h'.attached.trans h.attached
  writables := h'.writables.trans h.writables
  written := h'.written.trans h.written

theorem KeepsMessages.refl : KeepsMessages m m := ⟨rfl, rfl, rfl, rfl, rfl⟩

theorem KeepsMessages.trans {m m' m'' : Manager κ} (h : KeepsMessages m m')
    (h' : KeepsMessages m' m'') : KeepsMessages m m'' where
  listeners := h'.listeners.trans h.listeners
  webSocketTextData := h'.webSocketTextData.trans h.webSocketTextData
  webSocketBinaryData := h'.webSocketBinaryData.trans h.webSocketBinaryData
  dataQueue := h'.dataQueue.trans h.dataQueue
  messageWorks := h'.messageWorks.trans h.messageWorks

theorem Keeps.refl (m : Manager κ) : Keeps m m := ⟨.refl m, .refl m⟩

theorem Keeps.trans {m m' m'' : Manager κ} (h : Keeps m m') (h' : Keeps m' m'') : Keeps m m'' :=
  ⟨h.toKeepsSession.trans h'.toKeepsSession, h.toKeepsMessages.trans h'.toKeepsMessages⟩

theorem keepsSession_emitByUv (work : Work) : m.KeepsSession (m.emitByUv work) := by
  unfold emitByUv
  split
  · exact ⟨rfl, rfl, rfl, rfl⟩
  · exact .refl m

theorem keepsMessages_emitByUv {work : Work}
    (hwork : work.eventName ≠ .eventMessage) : m.KeepsMessages (m.emitByUv work) := by
  unfold emitByUv
  split
  · exact ⟨rfl, rfl, rfl, rfl, by simp [messageWorks, hwork]⟩
  · exact .refl m

theorem keeps_emitByUv {work : Work} (hwork : work.eventName ≠ .eventMessage) :
    m.Keeps (m.emitByUv work) :=
  ⟨m.keepsSession_emitByUv work, m.keepsMessages_emitByUv hwork⟩

theorem keeps_onError (code : Nat) (httpResponse : UInt32) :
    m.Keeps (m.onError code httpResponse) :=
  m.keeps_emitByUv EventName.noConfusion

theorem keeps_httpDummy (httpResponse : UInt32) (ret : Int) :
    m.Keeps (m.httpDummy httpResponse ret).2 := by
  unfold httpDummy
  split
  · exact m.keeps_onError commonErrorCode httpResponse
  · exact .refl m

theorem keeps_setNegotiatedProtocol (protocol : Bytes) :
    m.Keeps (m.setNegotiatedProtocol protocol) :=
  ⟨⟨rfl, rfl, rfl, rfl⟩, ⟨rfl, rfl, rfl, rfl, rfl⟩⟩

theorem keeps_setUserDataInfo (statusLine : Bytes) : m.Keeps (m.setUserDataInfo statusLine) := by
  unfold setUserDataInfo
  split <;> exact ⟨⟨rfl, rfl, rfl, rfl⟩, ⟨rfl, rfl, rfl, rfl, rfl⟩⟩

variable (response : UInt32)

theorem keeps_lwsCallbackClientFilterPreEstablish (statusLine : Bytes) (protocol : Option Bytes)
    (responseHeader : Std.ExtTreeMap Bytes Bytes) (ret : Int) :
    m.Keeps (m.lwsCallbackClientFilterPreEstablish response statusLine protocol responseHeader
      ret).2 := by
  have hopened : m.Keeps { m with openStatus := response } :=
    ⟨⟨rfl, rfl, rfl, rfl⟩, ⟨rfl, rfl, rfl, rfl, rfl⟩⟩
  unfold lwsCallbackClientFilterPreEstablish
  split
  · split
    · exact hopened.trans (keeps_httpDummy _ response ret)
    · apply Keeps.trans _ (keeps_httpDummy _ response ret)
      apply Keeps.trans _ (keeps_emitByUv _ EventName.noConfusion)
      apply Keeps.trans _ (keeps_setUserDataInfo _ statusLine)
      cases protocol with
      | none => exact hopened
      | some name => exact hopened.trans (keeps_setNegotiatedProtocol _ name)
  · exact m.keeps_onError commonErrorCode response

theorem keepsSession_setWebSocketData (isBinary : Bool) (data : Bytes) :
    m.KeepsSession (m.setWebSocketData isBinary data) := by
  unfold setWebSocketData
  split <;> exact ⟨rfl, rfl, rfl, rfl⟩

theorem keepsSession_appendFragment (data : Bytes) (isBinary isFinal : Bool) :
    m.KeepsSession (m.appendFragment data isBinary isFinal) := by
  have happended := m.keepsSession_setWebSocketData isBinary (m.webSocketData isBinary ++ data)
  unfold appendFragment
  split
  · exact happended.trans ⟨rfl, rfl, rfl, rfl⟩
  · exact happended

theorem keepsSession_lwsCallbackClientReceive (data : Bytes) (isBinary isFinal : Bool) (ret : Int) :
    m.KeepsSession (m.lwsCallbackClientReceive response data isBinary isFinal ret).2 := by
  apply KeepsSession.trans _ (keeps_httpDummy _ response ret).toKeepsSession
  unfold onMessage handleRcvMessage
  have happended := m.keepsSession_appendFragment data isBinary isFinal
  split_ifs
  · exact .refl m
  · exact (happended.trans (keepsSession_emitByUv _ _)).trans (keepsSession_setWebSocketData _ _ _)
  · exact happended
  · exact .refl m

theorem keepsMessages_setUserData (u : UserData κ) : m.KeepsMessages { m with userData := u } :=
  ⟨rfl, rfl, rfl, rfl, rfl⟩

theorem keepsMessages_lwsCallbackWsPeerInitiatedClose (payload : Bytes) (ret : Int) :
    m.KeepsMessages (m.lwsCallbackWsPeerInitiatedClose response payload ret).2 := by
  have hclose (u : UserData κ) :
      m.KeepsMessages (Manager.httpDummy { m with userData := u } response ret).2 :=
    (m.keepsMessages_setUserData u).trans (keeps_httpDummy _ response ret).toKeepsMessages
  unfold lwsCallbackWsPeerInitiatedClose
  split
  · split <;> exact hclose _
  · exact (m.keeps_onError commonErrorCode response).toKeepsMessages

variable (ret : Int)

theorem keepsMessages_lwsCallbackClientConnectionError :
    m.KeepsMessages (m.lwsCallbackClientConnectionError response ret).2 := by
  apply KeepsMessages.trans _ (keeps_httpDummy _ response ret).toKeepsMessages
  apply KeepsMessages.trans _ (keeps_onError _ _ _).toKeepsMessages
  split
  · exact m.keepsMessages_setUserData _
  · exact .refl m

theorem keepsMessages_lwsCallbackClientClosed :
    m.KeepsMessages (m.lwsCallbackClientClosed response ret).2 := by
  unfold lwsCallbackClientClosed
  split
  · apply KeepsMessages.trans _ (keeps_httpDummy _ response ret).toKeepsMessages
    apply KeepsMessages.trans _ (keepsMessages_emitByUv _ EventName.noConfusion)
    split
    · exact (m.keepsMessages_setUserData _).trans (keeps_onError _ _ _).toKeepsMessages
    · exact m.keepsMessages_setUserData _
  · exact (m.keeps_onError commonErrorCode response).toKeepsMessages

theorem keepsMessages_lwsCallbackWsiDestroy :
    m.KeepsMessages (m.lwsCallbackWsiDestroy response ret).2 := by
  unfold lwsCallbackWsiDestroy
  split
  · exact (m.keepsMessages_setUserData _).trans (keeps_httpDummy _ response ret).toKeepsMessages
  · exact (m.keeps_onError commonErrorCode response).toKeepsMessages

variable [DecidableEq κ]

theorem keepsMessages_lwsCallbackClientEstablished (wsi : κ) (response : UInt32)
    (ret : Int) : m.KeepsMessages (m.lwsCallbackClientEstablished wsi response ret).2 := by
  have htrigger : m.KeepsMessages m.triggerWritable := ⟨rfl, rfl, rfl, rfl, rfl⟩
  unfold lwsCallbackClientEstablished
  split
  · apply KeepsMessages.trans _ (keeps_httpDummy _ response ret).toKeepsMessages
    apply KeepsMessages.trans _ (keepsMessages_emitByUv _ EventName.noConfusion)
    apply KeepsMessages.trans _ (keepsMessages_emitByUv _ EventName.noConfusion)
    exact htrigger.trans (keepsMessages_setUserData _ _)
  · exact (m.keeps_onError commonErrorCode response).toKeepsMessages

theorem keepsMessages_lwsCallbackClientWritable :
    m.KeepsMessages (m.lwsCallbackClientWritable response ret).2 := by
  have hdummy (m : Manager κ) := (m.keeps_httpDummy response ret).toKeepsMessages
  unfold lwsCallbackClientWritable
  split
  · split
    · exact ⟨rfl, rfl, rfl, rfl, rfl⟩
    · cases hwrite : m.writeFirst with
      | none => exact hdummy m
      | some m' =>
        have hfirst : m.KeepsMessages m' := by
          unfold writeFirst at hwrite
          split at hwrite
          · cases hwrite
          · cases hwrite
            exact ⟨rfl, rfl, rfl, rfl, rfl⟩
        have hrest : m'.KeepsMessages m'.triggerRest := by
          unfold triggerRest
          split
          · exact .refl m'
          · exact ⟨rfl, rfl, rfl, rfl, rfl⟩
        exact (hfirst.trans hrest).trans (hdummy _)
  · exact (m.keeps_onError commonErrorCode response).toKeepsMessages

end Frames

section Fragments

theorem KeepsMessages.webSocketData {m m' : Manager κ} (h : KeepsMessages m m')
    (isBinary : Bool) : m'.webSocketData isBinary = m.webSocketData isBinary := by
  cases isBinary with
  | true => exact h.webSocketBinaryData
  | false => exact h.webSocketTextData

variable (m : Manager κ)

theorem webSocketData_setWebSocketData (isBinary b : Bool) (data : Bytes) :
    (m.setWebSocketData isBinary data).webSocketData b =
      if b = isBinary then data else m.webSocketData b := by
  cases isBinary <;> cases b <;> rfl

variable (data : Bytes)

theorem webSocketData_appendFragment (isBinary isFinal b : Bool) :
    (m.appendFragment data isBinary isFinal).webSocketData b =
      if b = isBinary then m.webSocketData isBinary ++ data else m.webSocketData b := by
  rw [← webSocketData_setWebSocketData]
  cases isFinal <;> rfl

theorem dataQueue_appendFragment (isBinary isFinal : Bool) :
    (m.appendFragment data isBinary isFinal).dataQueue =
      m.dataQueue ++
        if isFinal then [⟨m.webSocketData isBinary ++ data, isBinary⟩] else [] := by
  cases isFinal <;> cases isBinary <;> simp [appendFragment, setQueueData, setWebSocketData,
    webSocketData]

theorem messageWorks_appendFragment (isBinary isFinal : Bool) :
    (m.appendFragment data isBinary isFinal).messageWorks = m.messageWorks := by
  cases isFinal <;> cases isBinary <;> rfl

theorem dataQueue_emitMessage (isBinary : Bool) :
    (m.emitMessage isBinary).dataQueue = m.dataQueue := by
  unfold emitMessage emitByUv
  split <;> cases isBinary <;> rfl

theorem webSocketData_emitMessage (isBinary b : Bool) : (m.emitMessage isBinary).webSocketData b =
      if b = isBinary then [] else m.webSocketData b := by
  grind [webSocketData, emitByUv, emitMessage, webSocketData_setWebSocketData]

/-- There is one more work for a message at most. -/
theorem messageWorks_emitMessage_le (isBinary : Bool) :
    (m.emitMessage isBinary).messageWorks ≤ m.messageWorks + 1 := by
  have hset : (m.emitMessage isBinary).messageWorks = (m.emitByUv .messagePara).messageWorks := by
    cases isBinary <;> rfl
  rw [hset]
  unfold emitByUv
  split
  · simp [messageWorks, Work.eventName]
  · exact Nat.le_succ _

end Fragments

end Manager

end Netstack.WebSocket.ClientExec
