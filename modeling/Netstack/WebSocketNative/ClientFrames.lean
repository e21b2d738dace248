import Netstack.WebSocketNative.Client

/-!
# What the native WebSocket client leaves alone

Only the callback for fragments touches the message that is being received, and only `Connect` and
`ConnectEx` touch the headers.
-/

namespace Netstack.WebSocketClient

open Foundation WebSocket

/-- The messages among the calls. -/
def messagesOf (calls : List Call) : List Bytes :=
  calls.filterMap fun event =>
    match event with
    | .onMessage data => some data
    | _ => none

theorem messagesOf_append (calls calls' : List Call) :
    messagesOf (calls ++ calls') = messagesOf calls ++ messagesOf calls' := List.filterMap_append

theorem messagesOf_singleton {event : Call} (h : ∀ data, event ≠ .onMessage data) :
    messagesOf [event] = [] := by
  cases event with
  | onMessage data => exact absurd rfl (h data)
  | _ => rfl

namespace ClientContext

variable {κ : Type}

/-- What a session starts with is not changed, and neither is the kind of the application. -/
structure KeepsSession (x x' : ClientContext κ) : Prop where
  header : x'.header = x.header
  dataQueue : x'.dataQueue = x.dataQueue
  closed : x'.closed = x.closed
  threadStop : x'.threadStop = x.threadStop
  isAtomicService : x'.settings.isAtomicService = x.settings.isAtomicService

variable (x : ClientContext κ)

theorem KeepsSession.refl : KeepsSession x x := ⟨rfl, rfl, rfl, rfl, rfl⟩

theorem KeepsSession.trans {x x' x'' : ClientContext κ} (h : KeepsSession x x')
    (h' : KeepsSession x' x'') : KeepsSession x x'' :=
  ⟨h'.header.trans h.header, h'.dataQueue.trans h.dataQueue, h'.closed.trans h.closed,
    h'.threadStop.trans h.threadStop, h'.isAtomicService.trans h.isAtomicService⟩

theorem keepsSession_setErrorCode (errorCode : UInt32) :
    KeepsSession x (x.setErrorCode errorCode) := ⟨rfl, rfl, rfl, rfl, rfl⟩

theorem keepsSession_mapSettings {f : Settings → Settings}
    (h : (f x.settings).isAtomicService = x.settings.isAtomicService) :
    KeepsSession x (x.mapSettings f) := ⟨rfl, rfl, rfl, rfl, h⟩

theorem keepsSession_loadCa {env : Environment κ} {x loaded : ClientContext κ}
    (h : x.loadCa env = some loaded) : KeepsSession x loaded := by
  unfold loadCa at h
  split_ifs at h
  · cases hca : env.userCa with
    | none =>
      rw [hca] at h
      cases h
      exact .refl x
    | some path =>
      grind [@x.keepsSession_mapSettings]
  grind [@x.keepsSession_mapSettings]

/-- `FillCaPath` changes paths and the error code. -/
theorem keepsSession_fillCaPath (env : Environment κ) (x : ClientContext κ) :
    KeepsSession x (x.fillCaPath env).2 := by
  unfold fillCaPath
  cases hloaded : x.loadCa env with
  | none => exact x.keepsSession_setErrorCode _
  | some loaded =>
    have hload := keepsSession_loadCa hloaded
    dsimp only
    split
    · exact hload
    · split
      · exact hload.trans (loaded.keepsSession_setErrorCode _)
      · split <;> exact hload.trans ⟨rfl, rfl, rfl, rfl, rfl⟩

end ClientContext

variable {options : OpenOptions} (data : Option Bytes) (permission : Bool) (code : UInt32)

namespace Client

variable {κ : Type}

/-- The messages that the application was given. -/
def messages (c : Client κ) : List Bytes := messagesOf c.calls

structure KeepsMessages (c c' : Client κ) : Prop where
  data : c'.data = c.data
  messages : c'.messages = c.messages

structure KeepsHeader (c c' : Client κ) : Prop where
  header : c'.clientContext.header = c.clientContext.header
  isAtomicService :
    c'.clientContext.settings.isAtomicService = c.clientContext.settings.isAtomicService

structure Keeps (c c' : Client κ) : Prop extends KeepsMessages c c', KeepsHeader c c'

theorem KeepsMessages.refl (c : Client κ) : KeepsMessages c c := ⟨rfl, rfl⟩

variable {c c' c'' : Client κ}

theorem KeepsMessages.trans (h : KeepsMessages c c')
    (h' : KeepsMessages c' c'') : KeepsMessages c c'' :=
  ⟨h'.data.trans h.data, h'.messages.trans h.messages⟩

theorem KeepsHeader.trans (h : KeepsHeader c c') (h' : KeepsHeader c' c'') : KeepsHeader c c'' :=
  ⟨h'.header.trans h.header, h'.isAtomicService.trans h.isAtomicService⟩

theorem Keeps.refl (c : Client κ) : Keeps c c := ⟨⟨rfl, rfl⟩, ⟨rfl, rfl⟩⟩

theorem Keeps.trans (h : Keeps c c') (h' : Keeps c' c'') : Keeps c c'' :=
  ⟨h.toKeepsMessages.trans h'.toKeepsMessages, h.toKeepsHeader.trans h'.toKeepsHeader⟩

theorem keeps_mapContext (c : Client κ) {f : ClientContext κ → ClientContext κ}
    (hheader : (f c.clientContext).header = c.clientContext.header)
    (hsettings : (f c.clientContext).settings = c.clientContext.settings) :
    Keeps c (c.mapContext f) :=
  ⟨⟨rfl, rfl⟩, ⟨hheader, congrArg Settings.isAtomicService hsettings⟩⟩

/-- A call of another callback than that for messages. -/
theorem keeps_call (c : Client κ) (registered : Bool) {event : Call}
    (h : ∀ data, event ≠ .onMessage data) : Keeps c (c.call registered event) := by
  unfold call
  split
  · refine ⟨⟨rfl, ?_⟩, ⟨rfl, rfl⟩⟩
    unfold messages
    rw [messagesOf_append, messagesOf_singleton h, List.append_nil]
  · exact .refl c

variable {env : Environment κ}

section Connecting

/-- What a new connection starts with. -/
structure Session where
  header : Std.ExtTreeMap Bytes Bytes
  dataQueue : List SendData
  closed : Bool
  threadStop : Bool
  data : Bytes
  deriving DecidableEq

def session (c : Client κ) : Session where
  header := c.clientContext.header
  dataQueue := c.clientContext.dataQueue
  closed := c.clientContext.closed
  threadStop := c.clientContext.threadStop
  data := c.data

/-- The messages stay, and what a new connection starts with. -/
structure KeepsSession (c c' : Client κ) : Prop extends
  KeepsMessages c c', c.clientContext.KeepsSession c'.clientContext

theorem KeepsSession.refl (c : Client κ) : KeepsSession c c := ⟨.refl c, .refl _⟩

theorem KeepsSession.trans (h : KeepsSession c c') (h' : KeepsSession c' c'') :
    KeepsSession c c'' :=
  ⟨h.toKeepsMessages.trans h'.toKeepsMessages, h.toKeepsSession.trans h'.toKeepsSession⟩

theorem KeepsSession.session_eq (h : KeepsSession c c') : c'.session = c.session := by
  unfold session
  rw [h.header, h.dataQueue, h.closed, h.threadStop, h.data]

theorem keepsSession_fillCaPath (env : Environment κ) (c : Client κ) :
    KeepsSession c { c with clientContext := (c.clientContext.fillCaPath env).2 } :=
  ⟨⟨rfl, rfl⟩, c.clientContext.keepsSession_fillCaPath env⟩

/-- An attempt changes the context and records the connection. -/
theorem keepsSession_attempt (env : Environment κ) (info : Except Int (κ × ConnectInfo))
    (c : Client κ) : KeepsSession c (c.attempt env info).2 := by
  unfold attempt
  split
  · exact .refl c
  · split <;> exact ⟨⟨rfl, rfl⟩, ⟨rfl, rfl, rfl, rfl, rfl⟩⟩

theorem keepsSession_doConnect (env : Environment κ) (url : Bytes) (c : Client κ) :
    KeepsSession c (c.doConnect env url).2 :=
  (c.keepsSession_fillCaPath env).trans (keepsSession_attempt env _ _)

/-- The checks that the application and its headers have passed. -/
structure Permits (env : Environment κ) (isAtomicService : Bool) (options : OpenOptions) :
    Prop where
  permission : env.permission = true
  allowed : isAtomicService = true → env.allowedHostname = true
  size : options.headers.size ≤ maxHeaderLength

theorem prepare_of_permits (h : Permits env c.clientContext.settings.isAtomicService options) :
    c.prepare env options = (none, c.mapContext fun x => x.addHeaders options) := by
  grind [prepare, checkConnectPermission, @h.allowed, @h.permission, @h.size]

theorem prepare_cases (env : Environment κ) (options : OpenOptions) (c : Client κ) :
    Permits env c.clientContext.settings.isAtomicService options ∨
      ∃ code, code ≠ websocketNoneErr ∧ (c.prepare env options).1 = some code ∧
        Keeps c (c.prepare env options).2 := by
  by_cases hpermission : env.permission = true
  · by_cases hatomic :
        (c.clientContext.settings.isAtomicService && !env.allowedHostname) = true
    · refine Or.inr ⟨websocketErrorDisallowHost, by decide, ?_⟩
      have hprepare : c.prepare env options = (some websocketErrorDisallowHost,
          c.mapContext fun x => { x with noAllowedHost := true }) := by
        simp [prepare, checkConnectPermission, hpermission, hatomic]
      refine ⟨congrArg Prod.fst hprepare, ?_⟩
      grind [keeps_mapContext]
    · by_cases hsize : options.headers.size ≤ maxHeaderLength
      · refine Or.inl ⟨hpermission, fun hservice => ?_, hsize⟩
        simpa [hservice] using hatomic
      · refine Or.inr ⟨websocketErrorNoHeadrExceeds, by decide, ?_⟩
        have hprepare : c.prepare env options = (some websocketErrorNoHeadrExceeds, c) := by
          grind [prepare, checkConnectPermission]
        exact ⟨congrArg Prod.fst hprepare, hprepare ▸ .refl c⟩
  · refine Or.inr ⟨websocketErrorPermissionDenied, by decide, ?_⟩
    have hprepare : c.prepare env options = (some websocketErrorPermissionDenied,
        c.mapContext fun x => { x with permissionDenied := true }) := by
      simp [prepare, checkConnectPermission, hpermission]
    refine ⟨congrArg Prod.fst hprepare, ?_⟩
    grind [keeps_mapContext]

/-- `Connect` waits for the service thread after the checks, with the headers assigned. -/
theorem connectStart_of_none (h : (c.connectStart env options).1 = none) :
    Permits env c.clientContext.settings.isAtomicService options ∧
      (c.connectStart env options).2 = c.mapContext fun x => x.addHeaders options := by
  rcases c.prepare_cases env options with hpermits | ⟨code, -, hcode, -⟩
  · refine ⟨hpermits, ?_⟩
    unfold connectStart
    rw [prepare_of_permits hpermits]
    dsimp only
    split <;> rfl
  · unfold connectStart at h
    cases hprepare : c.prepare env options with
    | mk ret prepared =>
      rw [hprepare] at h hcode
      subst hcode
      cases h

theorem keepsSession_connectFinish (env : Environment κ) (url : Bytes) (c : Client κ) :
    KeepsSession (c.release.mapContext fun x => x.resetConnectionState)
      (c.connectFinish env url).2 := by
  have hconnect :=
    keepsSession_doConnect env url (c.release.mapContext fun x => x.resetConnectionState)
  unfold connectFinish
  split
  rename_i ret connected hconnected
  rw [hconnected] at hconnect
  split
  · exact hconnect.trans ⟨⟨rfl, rfl⟩, ⟨rfl, rfl, rfl, rfl, rfl⟩⟩
  · exact hconnect

/-- After the service thread `Connect` clears the flags. -/
theorem session_connectFinish (env : Environment κ) (url : Bytes) (c : Client κ) :
    (c.connectFinish env url).2.session =
      { c.session with closed := false, threadStop := false } :=
  (keepsSession_connectFinish env url c).session_eq

theorem prepare_spec (env : Environment κ) (options : OpenOptions) (c : Client κ) :
    KeepsMessages c (c.prepare env options).2 ∧
      (c.prepare env options).2.clientContext.settings.isAtomicService =
        c.clientContext.settings.isAtomicService := by
  rcases c.prepare_cases env options with hpermits | ⟨code, -, -, hkeeps⟩
  · rw [prepare_of_permits hpermits]
    exact ⟨⟨rfl, rfl⟩, rfl⟩
  · exact ⟨hkeeps.toKeepsMessages, hkeeps.isAtomicService⟩

theorem connectStart_eq_prepare (env : Environment κ) (options : OpenOptions) (c : Client κ) :
    (c.connectStart env options).2 = (c.prepare env options).2 := by
  unfold connectStart
  grind

theorem keepsSession_useUserCert (c : Client κ) : KeepsSession c c.useUserCert := by
  unfold useUserCert
  split
  · exact .refl c
  · exact ⟨⟨rfl, rfl⟩, ⟨rfl, rfl, rfl, rfl, rfl⟩⟩

theorem keepsSession_connectEx (env : Environment κ) (url : Bytes) (options : OpenOptions)
    (c : Client κ) :
    KeepsSession (c.prepare env options).2 (c.connectEx env url options).2 := by
  unfold connectEx
  split
  · rename_i code prepared hprepare
    rw [hprepare]
    exact .refl _
  · rename_i prepared hprepare
    have hfill := prepared.keepsSession_useUserCert.trans
      (prepared.useUserCert.keepsSession_fillCaPath env)
    rw [hprepare]
    split
    · rename_i x hx
      rw [hx] at hfill
      exact hfill
    · rename_i x hx
      rw [hx] at hfill
      split
      · exact hfill
      · exact hfill.trans (keepsSession_attempt env _ _)

/-- `ConnectEx` that returns success has assigned the headers and left the rest of the session. -/
theorem connectEx_of_success {url : Bytes}
    (h : (c.connectEx env url options).1 = websocketNoneErr) :
    Permits env c.clientContext.settings.isAtomicService options ∧
      (c.connectEx env url options).2.session =
        (c.mapContext fun x => x.addHeaders options).session := by
  have hkeeps := (keepsSession_connectEx env url options c).session_eq
  rcases c.prepare_cases env options with hpermits | ⟨code, hfailed, hcode, -⟩
  · refine ⟨hpermits, hkeeps.trans ?_⟩
    rw [prepare_of_permits hpermits]
  grind [connectEx]

end Connecting

variable (c)

theorem keeps_release : Keeps c c.release := ⟨⟨rfl, rfl⟩, ⟨rfl, rfl⟩⟩

section Callbacks

theorem keeps_permissionDenied :
    Keeps c (c.mapContext fun x => { x with permissionDenied := true }) :=
  ⟨⟨rfl, rfl⟩, ⟨rfl, rfl⟩⟩

theorem keeps_setThreadStop : Keeps c (c.mapContext fun x => x.setThreadStop true) :=
  ⟨⟨rfl, rfl⟩, ⟨rfl, rfl⟩⟩

theorem keeps_destroyStart : Keeps c c.destroyStart.2 := by
  unfold destroyStart
  split
  · exact .refl c
  · exact c.keeps_setThreadStop

theorem keeps_lwsCallbackClientAppendHandshakeHeader (wsi : κ) (takes : Bytes → Bytes → Bool) :
    Keeps c (c.lwsCallbackClientAppendHandshakeHeader wsi takes).2 :=
  ⟨⟨rfl, rfl⟩, ⟨rfl, rfl⟩⟩

theorem keeps_lwsCallbackWsPeerInitiatedClose (payload : Bytes) :
    Keeps c (c.lwsCallbackWsPeerInitiatedClose payload).2 := by
  unfold lwsCallbackWsPeerInitiatedClose
  split <;> exact ⟨⟨rfl, rfl⟩, ⟨rfl, rfl⟩⟩

theorem keeps_lwsCallbackClientConnectionError :
    Keeps c (c.lwsCallbackClientConnectionError data).2 :=
  c.keeps_call _ fun _ => Call.noConfusion

theorem keeps_setOpenMessage (statusLine : Bytes) : Keeps c (c.setOpenMessage statusLine) := by
  unfold setOpenMessage
  split <;> exact ⟨⟨rfl, rfl⟩, ⟨rfl, rfl⟩⟩

theorem keeps_lwsCallbackClientFilterPreEstablish (response : UInt32)
    (statusLine protocol : Option Bytes) (responseHeader : Std.ExtTreeMap Bytes Bytes) :
    Keeps c (c.lwsCallbackClientFilterPreEstablish response statusLine protocol
      responseHeader).2 := by
  have hopened : Keeps c (c.mapContext fun x => { x with openStatus := response }) :=
    ⟨⟨rfl, rfl⟩, ⟨rfl, rfl⟩⟩
  unfold lwsCallbackClientFilterPreEstablish
  split
  · exact hopened
  · split
    · exact hopened
    · apply Keeps.trans _ (keeps_call _ _ fun _ => Call.noConfusion)
      apply Keeps.trans _ (keeps_setOpenMessage _ _)
      split
      · exact hopened
      · exact hopened.trans ⟨⟨rfl, rfl⟩, ⟨rfl, rfl⟩⟩

theorem keeps_lwsCallbackClientClosed : Keeps c c.lwsCallbackClientClosed.2 := by
  have hstopped : ∀ x : ClientContext κ,
      ((x.setThreadStop true).closeIfReasonEmpty linkDown).header = x.header ∧
        ((x.setThreadStop true).closeIfReasonEmpty linkDown).settings = x.settings := by
    intro x
    unfold ClientContext.closeIfReasonEmpty
    split <;> exact ⟨rfl, rfl⟩
  unfold lwsCallbackClientClosed
  dsimp only
  refine Keeps.trans (keeps_call c c.registered.onClose ?_)
    (keeps_mapContext _ (hstopped _).1 (hstopped _).2)
  exact fun _ => Call.noConfusion

theorem keeps_lwsCallbackWsiDestroy : Keeps c c.lwsCallbackWsiDestroy.2 :=
  ⟨⟨rfl, rfl⟩, ⟨rfl, rfl⟩⟩

end Callbacks

section Receiving

theorem keepsHeader_call (registered : Bool) (event : Call) :
    KeepsHeader c (c.call registered event) := by
  unfold call
  split <;> exact ⟨rfl, rfl⟩

theorem keepsHeader_appendData : KeepsHeader c (c.appendData data).2 := by
  unfold appendData
  split
  · exact ⟨rfl, rfl⟩
  · split <;> exact ⟨rfl, rfl⟩

theorem keepsHeader_deliver : KeepsHeader c c.deliver := by
  have hmessage := c.keepsHeader_call c.registered.onMessage (.onMessage c.data)
  have hend := (c.call c.registered.onMessage (.onMessage c.data)).keepsHeader_call
    c.registered.onDataEnd .onDataEnd
  exact (hmessage.trans hend).trans ⟨rfl, rfl⟩

theorem keepsHeader_lwsCallbackClientReceive
    (isFinal : Bool) : KeepsHeader c (c.lwsCallbackClientReceive data isFinal).2 := by
  have happend := c.keepsHeader_appendData data
  unfold lwsCallbackClientReceive
  split
  rename_i ret appended hanswer
  rw [hanswer] at happend
  split_ifs
  · exact happend.trans (appended.keepsHeader_call _ _)
  · exact happend.trans appended.keepsHeader_deliver
  · exact happend

end Receiving

section Writing

variable [DecidableEq κ]

theorem keeps_triggerWritable : Keeps c c.triggerWritable := by
  unfold triggerWritable
  split <;> exact ⟨⟨rfl, rfl⟩, ⟨rfl, rfl⟩⟩

theorem keeps_takeWritable (wsi : κ) : Keeps c (c.takeWritable wsi) :=
  ⟨⟨rfl, rfl⟩, ⟨rfl, rfl⟩⟩

theorem keeps_enqueue (data : Bytes) : Keeps c (c.enqueue data).2 :=
  Keeps.trans (c.keeps_mapContext (f := fun x => x.push ⟨data, sendProtocol data⟩) rfl rfl)
    (keeps_triggerWritable _)

theorem keeps_send : Keeps c (c.send data).2 := by
  unfold send
  split
  · exact .refl c
  · split_ifs
    · exact .refl c
    · exact .refl c
    · exact c.keeps_enqueue _

theorem keeps_sendEx (data : Option Bytes) :
    Keeps c (c.sendEx permission data).2 := by
  unfold sendEx
  split
  · exact .refl c
  · split_ifs
    · exact c.keeps_permissionDenied
    · exact .refl c
    · exact .refl c
    · exact .refl c
    · exact c.keeps_enqueue _

theorem keeps_closeWith (reason : Option Bytes) :
    Keeps c (c.closeWith code reason).2 := by
  have hclose : ∀ status text, Keeps c (c.mapContext fun x => x.close status text) :=
    fun _ _ => ⟨⟨rfl, rfl⟩, ⟨rfl, rfl⟩⟩
  apply Keeps.trans _ (keeps_triggerWritable _)
  split
  · exact hclose _ _
  · split <;> exact hclose _ _

theorem keeps_closeStart (reason : Option Bytes) :
    Keeps c (c.closeStart code reason).2 := by
  unfold closeStart
  split
  · exact c.keeps_setThreadStop
  · exact c.keeps_closeWith code reason

theorem keeps_closeEx
    (reason : Option Bytes) : Keeps c (c.closeEx permission code reason).2 := by
  unfold closeEx
  split_ifs
  · exact c.keeps_permissionDenied
  · exact .refl c
  · exact c.keeps_closeWith code reason

theorem keeps_triggerRest : Keeps c c.triggerRest := by
  unfold triggerRest
  split
  · exact .refl c
  · exact c.keeps_triggerWritable

theorem keeps_lwsCallbackClientWritable (wsi : κ) :
    Keeps c (c.lwsCallbackClientWritable wsi).2 := by
  unfold lwsCallbackClientWritable ClientContext.pop
  split
  · exact ⟨⟨rfl, rfl⟩, ⟨rfl, rfl⟩⟩
  · split
    · exact .refl c
    · rename_i sendData popped hpop
      obtain ⟨-, rfl⟩ := Prod.mk.inj hpop
      refine Keeps.trans ?_ (keeps_triggerRest _)
      exact ⟨⟨rfl, rfl⟩, ⟨rfl, rfl⟩⟩

theorem keeps_lwsCallbackClientEstablished (wsi : κ) :
    Keeps c (c.lwsCallbackClientEstablished wsi).2 := by
  have haddressed : Keeps c (c.triggerWritable.mapContext fun x => x.setLws (some wsi)) :=
    c.keeps_triggerWritable.trans ⟨⟨rfl, rfl⟩, ⟨rfl, rfl⟩⟩
  apply Keeps.trans _ (keeps_call _ _ fun _ => Call.noConfusion)
  exact haddressed.trans (keeps_call _ _ fun _ => Call.noConfusion)

end Writing

end Client

end Netstack.WebSocketClient
