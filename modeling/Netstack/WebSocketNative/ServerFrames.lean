import Netstack.WebSocketNative.Server

/-!
# What the functions of the native WebSocket server change

The flags, the list of connections with the sessions, and the fragments with the messages are three
parts of the state. A function that leaves a part as it is keeps it, and for the few that change one
there is a lemma that says how.
-/

namespace Netstack.WebSocketServer

open Foundation WebSocket ServerContext

namespace Server

variable {κ : Type} [DecidableEq κ]

variable {s s' s'' : Server κ}

section Frames

/-- The messages handed to the application. -/
def messages (s : Server κ) : List (Bytes × SocketConnection) :=
  s.calls.filterMap fun
    | .onMessageReceive data connection => some (data, connection)
    | _ => none

/-- The thread and the context are there or not as before, and no flag is cleared. -/
structure Stays (s s' : Server κ) : Prop where
  joinable : s'.joinable = s.joinable
  context : s'.serverContext.context = s.serverContext.context
  closed : s.serverContext.closed = true → s'.serverContext.closed = true
  threadStop : s.serverContext.threadStop = true → s'.serverContext.threadStop = true

structure KeepsList (s s' : Server κ) : Prop where
  userDataMap : s'.serverContext.userDataMap = s.serverContext.userDataMap
  webSocketConnection : s'.serverContext.webSocketConnection = s.serverContext.webSocketConnection

structure KeepsMessages (s s' : Server κ) : Prop where
  wsServerBinaryData :
    s'.serverContext.wsServerBinaryData = s.serverContext.wsServerBinaryData
  wsServerTextData : s'.serverContext.wsServerTextData = s.serverContext.wsServerTextData
  messages : s'.messages = s.messages

/-- No flag is cleared, and the connections are as before. -/
structure KeepsConnections (s s' : Server κ) : Prop extends Stays s s', KeepsList s s'

/-- No flag is cleared, and the connections, the fragments and the messages are as before. -/
structure Keeps (s s' : Server κ) : Prop extends KeepsConnections s s', KeepsMessages s s'

/-- Every session that there was is there. -/
def KeepsSessions (s s' : Server κ) : Prop :=
  ∀ wsi, (s.serverContext.userDataMap wsi).isSome = true →
    (s'.serverContext.userDataMap wsi).isSome = true

omit [DecidableEq κ]

theorem Stays.refl (s : Server κ) : Stays s s := ⟨rfl, rfl, id, id⟩

theorem Stays.trans (h : Stays s s') (h' : Stays s' s'') : Stays s s'' where
  joinable := h'.joinable.trans h.joinable
  context := h'.context.trans h.context
  closed := h'.closed ∘ h.closed
  threadStop := h'.threadStop ∘ h.threadStop

theorem KeepsList.refl (s : Server κ) : KeepsList s s := ⟨rfl, rfl⟩

theorem KeepsList.sessions (h : KeepsList s s') : KeepsSessions s s' :=
  fun wsi hsome => (congrArg (fun f => (f wsi).isSome) h.userDataMap).trans hsome

theorem KeepsMessages.refl (s : Server κ) : KeepsMessages s s := ⟨rfl, rfl, rfl⟩

theorem KeepsMessages.trans (h : KeepsMessages s s')
    (h' : KeepsMessages s' s'') : KeepsMessages s s'' where
  wsServerBinaryData := h'.wsServerBinaryData.trans h.wsServerBinaryData
  wsServerTextData := h'.wsServerTextData.trans h.wsServerTextData
  messages := h'.messages.trans h.messages

theorem KeepsConnections.refl (s : Server κ) : KeepsConnections s s := ⟨.refl s, .refl s⟩

theorem KeepsConnections.trans (h : KeepsConnections s s') (h' : KeepsConnections s' s'') :
    KeepsConnections s s'' where
  toStays := h.toStays.trans h'.toStays
  userDataMap := h'.userDataMap.trans h.userDataMap
  webSocketConnection := h'.webSocketConnection.trans h.webSocketConnection

theorem KeepsMessages.getWsServerData (h : KeepsMessages s s') (isBinary : Bool) (wsi : κ) :
    s'.serverContext.getWsServerData isBinary wsi =
      s.serverContext.getWsServerData isBinary wsi := by
  unfold ServerContext.getWsServerData ServerContext.wsServerData
  rw [h.wsServerBinaryData, h.wsServerTextData]

theorem Keeps.refl (s : Server κ) : Keeps s s := ⟨.refl s, .refl s⟩

theorem Keeps.trans (h : Keeps s s') (h' : Keeps s' s'') : Keeps s s'' :=
  ⟨h.toKeepsConnections.trans h'.toKeepsConnections, h.toKeepsMessages.trans h'.toKeepsMessages⟩

variable (s)

theorem keeps_call (registered : Bool) {c : Call}
    (hc : ∀ data connection, c ≠ .onMessageReceive data connection) :
    s.Keeps (s.call registered c) := by
  unfold call
  split
  · refine ⟨⟨⟨rfl, rfl, id, id⟩, rfl, rfl⟩, rfl, rfl, ?_⟩
    cases c with
    | onMessageReceive data connection => exact absurd rfl (hc data connection)
    | _ => simp [messages]
  · exact .refl s

theorem keeps_onServerError (code : Int) : s.Keeps (s.onServerError code) :=
  s.keeps_call _ (by simp)

theorem keeps_setSession (n : Nat) (u : UserData κ) : s.Keeps (s.setSession n u) :=
  ⟨⟨⟨rfl, rfl, id, id⟩, rfl, rfl⟩, rfl, rfl, rfl⟩

theorem keeps_permissionDenied :
    s.Keeps (s.mapContext fun c => { c with permissionDenied := true }) :=
  ⟨⟨⟨rfl, rfl, id, id⟩, rfl, rfl⟩, rfl, rfl, rfl⟩

theorem keeps_setThreadStop : s.Keeps (s.mapContext fun c => c.setThreadStop true) :=
  ⟨⟨⟨rfl, rfl, id, fun _ => rfl⟩, rfl, rfl⟩, rfl, rfl, rfl⟩

theorem keeps_closeContext (status : UInt32) (reason : Bytes) :
    s.Keeps (s.mapContext fun c => c.close status reason) :=
  ⟨⟨⟨rfl, rfl, fun _ => rfl, id⟩, rfl, rfl⟩, rfl, rfl, rfl⟩

/-- Only the lists that decide about new connections change. -/
theorem keeps_isAllowConnection (now : Nat → UInt64) (ip : Bytes) :
    s.Keeps { s with serverContext := (s.serverContext.isAllowConnection now ip).2 } := by
  have hcount : ∀ (c : ServerContext κ) (t t' : UInt64),
      Keeps { s with serverContext := c }
        { s with serverContext := (c.countConnection t t' ip).2 } := by
    intro c t t'
    unfold countConnection
    repeat' split
    all_goals exact ⟨⟨⟨rfl, rfl, id, id⟩, rfl, rfl⟩, rfl, rfl, rfl⟩
  have hshorten : ∀ (c : ServerContext κ) (t : UInt64),
      Keeps { s with serverContext := c }
        { s with serverContext := c.shortenClientList t } := by
    intro c t
    unfold shortenClientList
    split <;> exact ⟨⟨⟨rfl, rfl, id, id⟩, rfl, rfl⟩, rfl, rfl, rfl⟩
  have hban : s.Keeps { s with serverContext := (s.serverContext.isIpInBanList (now 0) ip).2 } := by
    unfold isIpInBanList
    repeat' split
    all_goals exact ⟨⟨⟨rfl, rfl, id, id⟩, rfl, rfl⟩, rfl, rfl, rfl⟩
  unfold isAllowConnection
  split
  · rename_i c hbanned
    rw [hbanned] at hban
    exact hban
  · rename_i c hbanned
    rw [hbanned] at hban
    exact (hban.trans (hshorten c _)).trans (hcount _ _ _)

variable {s}

theorem keeps_lwsCallbackFilterProtocolConnection (p : Platform κ) (s : Server κ)
    (peer : Option SocketConnection) (now : Nat → UInt64) :
    s.Keeps (s.lwsCallbackFilterProtocolConnection p peer now).2 := by
  unfold lwsCallbackFilterProtocolConnection
  split
  · exact .refl s
  · cases peer with
    | none => exact s.keeps_onServerError commonErrorCode
    | some connection =>
      have hallow := s.keeps_isAllowConnection now connection.clientIP
      dsimp only
      split
      · exact s.keeps_onServerError commonErrorCode
      · split
        · rename_i c hc
          rw [hc] at hallow
          exact hallow.trans (keeps_onServerError _ commonErrorCode)
        grind

variable [DecidableEq κ]

variable (s)

theorem keeps_triggerClient (n : Nat) : s.Keeps (s.triggerClient n) :=
  ⟨⟨⟨rfl, rfl, id, id⟩, rfl, rfl⟩, rfl, rfl, rfl⟩

theorem keeps_takeWritable (wsi : κ) : s.Keeps (s.takeWritable wsi) :=
  ⟨⟨⟨rfl, rfl, id, id⟩, rfl, rfl⟩, rfl, rfl, rfl⟩

theorem keeps_closeListed (entry : Bytes × κ × SocketConnection) :
    s.Keeps (s.closeListed entry) := by
  unfold closeListed
  split
  · exact .refl s
  · exact (keeps_setSession s _ _).trans (keeps_triggerClient _ _)

theorem keeps_foldl_closeListed (entries : List (Bytes × κ × SocketConnection)) (s : Server κ) :
    s.Keeps (entries.foldl closeListed s) := by
  induction entries generalizing s with
  | nil => exact .refl s
  | cons entry entries ih => exact (s.keeps_closeListed entry).trans (ih (s.closeListed entry))

theorem keeps_editSession (wsi : κ) (edit : UserData κ → UserData κ) :
    s.Keeps (s.editSession wsi edit).2 := by
  unfold editSession
  split
  · exact .refl s
  · split
    · exact .refl s
    · exact (keeps_setSession s _ _).trans (keeps_triggerClient _ _)

theorem keeps_close (permission : Bool) (connection : SocketConnection) (code : UInt32)
    (reason : Option Bytes) : s.Keeps (s.close permission connection code reason).2 := by
  unfold close
  split_ifs
  · exact .refl s
  · exact s.keeps_permissionDenied
  · exact .refl s
  · split
    · exact .refl s
    · exact .refl s
    · exact s.keeps_editSession _ _

theorem keeps_send (permission : Bool) (data : Bytes)
    (connection : SocketConnection) : s.Keeps (s.send permission data connection).2 := by
  unfold send
  split_ifs
  · exact .refl s
  · exact .refl s
  · exact s.keeps_permissionDenied
  · exact .refl s
  · split
    · exact .refl s
    · exact s.keeps_editSession _ _

theorem keeps_lwsCallbackServerWriteable (wsi : κ) :
    s.Keeps (s.lwsCallbackServerWriteable wsi).2 := by
  have hrest : ∀ (t : Server κ) (n : Nat), t.Keeps (t.triggerRest n) := by
    intro t n
    unfold triggerRest
    split
    · exact .refl t
    · exact t.keeps_triggerClient n
  have hfirst : ∀ (t : Server κ) (n : Nat), s.writeFirst n = some t → s.Keeps t := by
    intro t n ht
    unfold writeFirst at ht
    split at ht
    · cases ht
    · obtain ⟨-, hwrite⟩ := Option.ite_none_left_eq_some.mp ht
      cases hwrite
      exact ⟨⟨⟨rfl, rfl, id, id⟩, rfl, rfl⟩, rfl, rfl, rfl⟩
  unfold lwsCallbackServerWriteable
  split
  · exact .refl s
  · cases s.wsiUser wsi with
    | none => exact s.keeps_onServerError commonErrorCode
    | some n =>
      dsimp only
      split
      · exact ⟨⟨⟨rfl, rfl, id, id⟩, rfl, rfl⟩, rfl, rfl, rfl⟩
      · cases hwrite : s.writeFirst n with
        | none => exact s.keeps_setSession n _
        | some t => exact (hfirst t n hwrite).trans (hrest t n)

variable {s}

end Frames

section Established

theorem bindSession_spec (s : Server κ) (wsi : κ) :
    s.Stays (s.bindSession wsi) ∧ s.KeepsMessages (s.bindSession wsi) ∧
      s.KeepsSessions (s.bindSession wsi) := by
  refine ⟨⟨rfl, rfl, id, id⟩, ⟨rfl, rfl, rfl⟩, fun wsi' hsome => ?_⟩
  by_cases hwsi : wsi' = wsi <;> simp [bindSession, addClientUserData, hwsi, hsome]

/-- A connection that is admitted is listed, and its session is that of the callback. -/
theorem acceptConnection_spec (h : s.serverContext.Active) (wsi : κ)
    (connection : SocketConnection) :
    (s.bindSession wsi).Stays (s.acceptConnection wsi connection) ∧
      (s.bindSession wsi).KeepsMessages (s.acceptConnection wsi connection) ∧
      (s.acceptConnection wsi connection).serverContext.webSocketConnection =
        s.serverContext.webSocketConnection.insert connection.clientId (wsi, connection) ∧
      (s.acceptConnection wsi connection).serverContext.userDataMap =
        (s.bindSession wsi).serverContext.userDataMap := by
  have hlisted : (s.bindSession wsi).listConnection wsi connection =
      (s.bindSession wsi).mapContext fun c => { c with
        webSocketConnection := c.webSocketConnection.insert connection.clientId
          (wsi, connection) } :=
    congrArg (fun c => { s.bindSession wsi with serverContext := c })
      (if_neg fun hclosed => not_active_iff.mpr hclosed h)
  unfold acceptConnection
  rw [hlisted]
  exact ⟨⟨rfl, rfl, id, id⟩, ⟨rfl, rfl, rfl⟩, rfl, rfl⟩

/-- A connection is refused and not listed, or it is admitted with a session and its entry. -/
inductive Establishes (s : Server κ) (wsi : κ) (answer : Int × Server κ) :
    Option SocketConnection → Prop
  | refused {peer : Option SocketConnection} (hret : answer.1 = -1)
      (hmap : answer.2.serverContext.webSocketConnection = s.serverContext.webSocketConnection) :
      Establishes s wsi answer peer
  | admitted {connection : SocketConnection} (hret : answer.1 = 0)
      (hactive : s.serverContext.Active)
      (hmap : answer.2.serverContext.webSocketConnection =
        s.serverContext.webSocketConnection.insert connection.clientId (wsi, connection))
      (hsession : (answer.2.serverContext.userDataMap wsi).isSome = true) :
      Establishes s wsi answer (some connection)

theorem lwsCallbackEstablished_spec (s : Server κ) (wsi : κ) (peer : Option SocketConnection) :
    s.Stays (s.lwsCallbackEstablished wsi peer).2 ∧
      s.KeepsMessages (s.lwsCallbackEstablished wsi peer).2 ∧
      s.KeepsSessions (s.lwsCallbackEstablished wsi peer).2 ∧
      s.Establishes wsi (s.lwsCallbackEstablished wsi peer) peer := by
  obtain ⟨hstays, hmessages, hsessions⟩ := s.bindSession_spec wsi
  unfold lwsCallbackEstablished
  split
  · have hkeeps := s.keeps_onServerError commonErrorCode
    exact ⟨hkeeps.toStays, hkeeps.toKeepsMessages, hkeeps.sessions,
      .refused rfl hkeeps.webSocketConnection⟩
  next hclosed =>
    cases peer with
    | none =>
      have hkeeps := (s.bindSession wsi).keeps_onServerError commonErrorCode
      exact ⟨hstays.trans hkeeps.toStays, hmessages.trans hkeeps.toKeepsMessages,
        fun wsi' hsome => hkeeps.sessions wsi' (hsessions wsi' hsome),
        .refused rfl hkeeps.webSocketConnection⟩
    | some connection =>
      have hactive : s.serverContext.Active := not_not.mp (mt not_active_iff.mp hclosed)
      obtain ⟨haccept, hinbox, hmap, hdata⟩ := acceptConnection_spec hactive wsi connection
      have hkeeps := (s.acceptConnection wsi connection).keeps_call s.registered.onConnect
        (c := .onConnect connection) (by simp)
      have hbound := hkeeps.userDataMap.trans hdata
      have hnew : ((s.bindSession wsi).serverContext.userDataMap wsi).isSome = true := by
        simp [bindSession, addClientUserData]
      refine ⟨(hstays.trans haccept).trans hkeeps.toStays,
        (hmessages.trans hinbox).trans hkeeps.toKeepsMessages, fun wsi' hsome => ?_,
        .admitted rfl hactive (hkeeps.webSocketConnection.trans hmap) ?_⟩
      · exact (congrArg (fun f => (f wsi').isSome) hbound).trans (hsessions wsi' hsome)
      · exact (congrArg (fun f => (f wsi).isSome) hbound).trans hnew

end Established

section Closed

variable (p : Platform κ)

theorem keeps_closeClient (s : Server κ) (wsi : κ) (n : Nat) : s.Keeps (s.closeClient p wsi n) := by
  grind [closeClient, Keeps.trans, keeps_setSession, keeps_onServerError, keeps_call]

omit [DecidableEq κ] in
theorem keeps_stopIfClosed (s : Server κ) : s.Keeps s.stopIfClosed := by
  unfold stopIfClosed
  split
  · exact s.keeps_setThreadStop
  · exact .refl s

/-- The entry that the callback finds by the address is removed with the session. -/
theorem lwsCallbackClosed_spec (s : Server κ) (wsi : κ) :
    s.Stays (s.lwsCallbackClosed p wsi).2 ∧ s.KeepsMessages (s.lwsCallbackClosed p wsi).2 ∧
      ((s.serverContext.Active → s.serverContext.userDataMap wsi = none) ∧
          s.KeepsList (s.lwsCallbackClosed p wsi).2 ∨
        s.serverContext.Active ∧
          (s.lwsCallbackClosed p wsi).2.serverContext.webSocketConnection =
            s.serverContext.webSocketConnection.erase
              (s.serverContext.getClientIdFromConnectionByWsi p wsi) ∧
          (s.lwsCallbackClosed p wsi).2.serverContext.userDataMap =
            Function.update s.serverContext.userDataMap wsi none) := by
  unfold lwsCallbackClosed
  split
  next hclosed =>
    exact ⟨.refl s, .refl s, .inl ⟨fun h => absurd h (not_active_iff.mpr hclosed), .refl s⟩⟩
  next hactive =>
    split
    next hsession =>
      have hkeeps := s.keeps_onServerError commonErrorCode
      exact ⟨hkeeps.toStays, hkeeps.toKeepsMessages, .inl ⟨fun _ => hsession, hkeeps.toKeepsList⟩⟩
    next n hsession =>
      let clientId := s.serverContext.getClientIdFromConnectionByWsi p wsi
      let removed := (s.closeClient p wsi n).mapContext fun c =>
        (c.removeConnections clientId).removeClientUserData wsi
      let freed := { removed with wsiUser := Function.update removed.wsiUser wsi none }
      have hkeeps := s.keeps_closeClient p wsi n
      have hfreed : (s.closeClient p wsi n).Stays freed ∧
          (s.closeClient p wsi n).KeepsMessages freed := ⟨⟨rfl, rfl, id, id⟩, rfl, rfl, rfl⟩
      have hstop := freed.keeps_stopIfClosed
      refine ⟨(hkeeps.toStays.trans hfreed.1).trans hstop.toStays,
        (hkeeps.toKeepsMessages.trans hfreed.2).trans hstop.toKeepsMessages,
        .inr ⟨not_not.mp (mt not_active_iff.mp hactive), hstop.webSocketConnection.trans ?_,
          hstop.userDataMap.trans ?_⟩⟩
      · exact congrArg (fun m => m.erase clientId) hkeeps.webSocketConnection
      · exact congrArg (Function.update · wsi none) hkeeps.userDataMap

end Closed

section Receiving

section

variable (s)

variable (isBinary : Bool)

omit [DecidableEq κ] in
theorem keepsConnections_setWsServerData (data : κ → Option Bytes) :
    s.KeepsConnections (s.mapContext fun c => c.setWsServerData isBinary data) := by
  cases isBinary <;> exact ⟨⟨rfl, rfl, id, id⟩, rfl, rfl⟩

theorem keepsConnections_clearWsServerData (wsi : κ) :
    s.KeepsConnections (s.mapContext fun c => c.clearWsServerData isBinary wsi) :=
  s.keepsConnections_setWsServerData isBinary _

/-- Only the buffers change. -/
theorem keepsConnections_appendWsServerData (wsi : κ) (data : Bytes) :
    s.KeepsConnections (s.mapContext fun c => (c.appendWsServerData isBinary wsi data).2) := by
  unfold mapContext appendWsServerData
  dsimp only
  split
  · exact .refl s
  · split
    · split <;> exact s.keepsConnections_setWsServerData isBinary _
    · split
      · exact .refl s
      · exact s.keepsConnections_setWsServerData isBinary _

omit [DecidableEq κ] in
theorem keepsConnections_call (registered : Bool) (c : Call) :
    s.KeepsConnections (s.call registered c) := by
  unfold call
  split
  · exact ⟨⟨rfl, rfl, id, id⟩, rfl, rfl⟩
  · exact .refl s

end

theorem keepsConnections_deliver (p : Platform κ) (s : Server κ) (wsi : κ) (isBinary : Bool) :
    s.KeepsConnections (s.deliver p wsi isBinary) := by
  let received := s.call s.registered.onMessageReceive
    (.onMessageReceive (s.serverContext.getWsServerData isBinary wsi)
      (s.serverContext.getConnectionFromWsi p wsi))
  have hcall : s.KeepsConnections received := s.keepsConnections_call _ _
  have hbinary := received.keepsConnections_clearWsServerData true wsi
  have htext := (received.mapContext fun c =>
    c.clearWsServerData true wsi).keepsConnections_clearWsServerData false wsi
  exact (hcall.trans hbinary).trans htext

theorem keepsConnections_lwsCallbackReceive (p : Platform κ) (s : Server κ) (wsi : κ) (data : Bytes)
    (isBinary isFinal : Bool) :
    s.KeepsConnections (s.lwsCallbackReceive p wsi data isBinary isFinal).2 := by
  unfold lwsCallbackReceive
  split
  · exact .refl s
  · have happend := s.keepsConnections_appendWsServerData isBinary wsi data
    unfold mapContext at happend
    dsimp only at happend
    cases happended : s.serverContext.appendWsServerData isBinary wsi data with
    | mk exceeds c =>
      rw [happended] at happend
      cases exceeds with
      | true =>
        have herror := keepsConnections_call { s with serverContext := c } s.registered.onError
          (.onError websocketDataLengthExceeds)
        exact happend.trans herror
      | false =>
        cases isFinal with
        | false => exact happend
        | true =>
          have hdeliver := keepsConnections_deliver p { s with serverContext := c } wsi isBinary
          exact happend.trans hdeliver

end Receiving

section Control

variable (p : Platform κ)

section

variable (s)

omit [DecidableEq κ]

/-- A start touches neither the list nor the flags. One that succeeds has a service thread, and one
that fails starts none. -/
theorem start_spec (permission : Bool) (config : ServerConfig) (created : Bool) :
    s.KeepsList (s.start p permission config created).2 ∧
      s.KeepsMessages (s.start p permission config created).2 ∧
      (s.start p permission config created).2.serverContext.closed = s.serverContext.closed ∧
      (s.start p permission config created).2.serverContext.threadStop =
        s.serverContext.threadStop ∧
      ((s.start p permission config created).1 = 0 ∧
          (s.start p permission config created).2.joinable = true ∨
        (s.start p permission config created).2.joinable = s.joinable ∧
          (s.start p permission config created).2.serverContext.context =
            s.serverContext.context) := by
  unfold start
  split
  · exact ⟨.refl s, .refl s, rfl, rfl, .inr ⟨rfl, rfl⟩⟩
  · split
    · exact ⟨⟨rfl, rfl⟩, ⟨rfl, rfl, rfl⟩, rfl, rfl, .inr ⟨rfl, rfl⟩⟩
    · split
      · exact ⟨.refl s, .refl s, rfl, rfl, .inr ⟨rfl, rfl⟩⟩
      · split_ifs
        · exact ⟨⟨rfl, rfl⟩, ⟨rfl, rfl, rfl⟩, rfl, rfl, .inr ⟨rfl, rfl⟩⟩
        · exact ⟨⟨rfl, rfl⟩, ⟨rfl, rfl, rfl⟩, rfl, rfl, .inr ⟨rfl, rfl⟩⟩
        · exact ⟨⟨rfl, rfl⟩, ⟨rfl, rfl, rfl⟩, rfl, rfl, .inl ⟨rfl, rfl⟩⟩

theorem keeps_lwsCallbackWsPeerInitiatedCloseServer (wsi : κ) (payload : Bytes) :
    s.Keeps (s.lwsCallbackWsPeerInitiatedCloseServer wsi payload).2 := by
  unfold lwsCallbackWsPeerInitiatedCloseServer
  split
  · split
    · exact .refl s
    · exact s.keeps_setSession _ _
  · exact s.keeps_closeContext _ _

variable [DecidableEq κ]

theorem keeps_closeAllConnection : s.Keeps (s.closeAllConnection p) := by
  unfold closeAllConnection
  split
  · exact s.keeps_setThreadStop
  · exact keeps_foldl_closeListed (p.visit s.serverContext.webSocketConnection) s

end

end Control

end Server

end Netstack.WebSocketServer
