import Netstack.Foundation.Execution
import Netstack.WebSocket.ServerExec

/-!
# Clients that stop the server

A server that nobody stops is to stay open whatever its clients do. The callback for a
peer-initiated close closes the session of the server instead of that of the client if the close
frame has no status, or if the connection has no session. The next connection that ends then stops
the service thread, and no client is admitted any more.
-/

namespace Netstack.WebSocket.ServerExec

open Foundation Foundation.Execution UserData

variable {κ : Type} [DecidableEq κ]

/-- One callback, with the result that `lws_callback_http_dummy` has in it. -/
def serve (m : Manager κ) (call : Callback κ × Int) : Option (Manager κ) :=
  some (lwsServerCallback m call.2 call.1).2

variable {m m' : Manager κ}

namespace Manager

/-- A client is admitted if it is within the limits and not banned. -/
def Admits (m : Manager κ) : Prop :=
  ∀ connection now ret, m.isOverMaxClientConns connection.clientIP = false →
    (m.isAllowConnection now connection.clientIP).1 = true →
      (m.lwsCallbackFilterProtocolConnection (some connection) now ret).1 = 0

structure Serving (m : Manager κ) : Prop where
  notClosed : m.userData.closed = false
  notStopped : m.userData.threadStop = false
  admits : m.Admits

/-- A peer-initiated close has a status, and its connection has a session. -/
def ClosesClient (m : Manager κ) (call : Callback κ × Int) : Prop :=
  match call.1 with
  | .wsPeerInitiatedClose wsi payload => 2 ≤ payload.length ∧ (m.userDataMap wsi).isSome
  | _ => True

instance (m : Manager κ) (call : Callback κ × Int) : Decidable (m.ClosesClient call) := by
  unfold ClosesClient
  split <;> infer_instance

omit [DecidableEq κ]

theorem admits_of_open (hclosed : m.userData.closed = false)
    (hstop : m.userData.threadStop = false) : m.Admits := by
  intro connection now ret hlimit hallow
  unfold lwsCallbackFilterProtocolConnection
  rw [if_neg (by simp [hclosed, hstop])]
  dsimp only
  rw [if_neg (by simp [hlimit])]
  cases h : m.isAllowConnection now connection.clientIP with
  | mk allowed m' =>
    rw [h] at hallow
    obtain rfl : allowed = true := hallow
    rfl

theorem serving_iff : m.Serving ↔ m.userData.closed = false ∧ m.userData.threadStop = false := by
  constructor
  · intro h
    exact ⟨h.notClosed, h.notStopped⟩
  · rintro ⟨hclosed, hstop⟩
    exact ⟨hclosed, hstop, admits_of_open hclosed hstop⟩

theorem serving_congr (hclosed : m'.userData.closed = m.userData.closed)
    (hstop : m'.userData.threadStop = m.userData.threadStop) (hm : m.Serving) : m'.Serving := by
  rw [serving_iff] at hm ⊢
  exact ⟨hclosed.trans hm.1, hstop.trans hm.2⟩

theorem Keeps.serving (h : Keeps m m') (hm : m.Serving) : m'.Serving :=
  serving_congr (congrArg closed h.userData) (congrArg threadStop h.userData) hm

theorem closed_lwsCallbackWsPeerInitiatedCloseServer
    (hm : m.userData.closed = false) (wsi : κ) (payload : Bytes) (ret : Int) :
    (m.lwsCallbackWsPeerInitiatedCloseServer wsi payload ret).2.userData.closed = false ↔
      2 ≤ payload.length ∧ (m.userDataMap wsi).isSome := by
  unfold lwsCallbackWsPeerInitiatedCloseServer
  match payload with
  | [] => simp [(keeps_httpDummy _ _).userData, close]
  | [_] => simp [(keeps_httpDummy _ _).userData, close]
  | _ :: _ :: _ =>
    cases h : m.userDataMap wsi with
    | none => simp [(keeps_httpDummy _ _).userData, close]
    | some c => simp [(keeps_httpDummy _ _).userData, setSession, hm]

theorem threadStop_lwsCallbackWsPeerInitiatedCloseServer (m : Manager κ) (wsi : κ)
    (payload : Bytes) (ret : Int) :
    (m.lwsCallbackWsPeerInitiatedCloseServer wsi payload ret).2.userData.threadStop =
      m.userData.threadStop := by
  unfold lwsCallbackWsPeerInitiatedCloseServer
  split
  · split <;> rw [(keeps_httpDummy _ _).userData] <;> rfl
  · rw [(keeps_httpDummy _ _).userData]
    rfl

variable [DecidableEq κ]

theorem userData_lwsCallbackEstablished (m : Manager κ) (wsi : κ)
    (peer : Option WebSocketConnection) (ret : Int) :
    (m.lwsCallbackEstablished wsi peer ret).2.userData = m.userData := by
  unfold lwsCallbackEstablished
  cases peer with
  | none => exact (keeps_onServerError _ _).userData
  | some connection =>
    rw [(keeps_httpDummy _ _).userData, (keeps_onConnect _ _).userData]
    unfold addConnections
    split <;> rfl

theorem userData_lwsCallbackServerWriteable (m : Manager κ) (wsi : κ) (ret : Int) :
    (m.lwsCallbackServerWriteable wsi ret).2.userData = m.userData := by
  unfold lwsCallbackServerWriteable
  split
  · rfl
  cases m.userDataMap wsi with
  | none => exact (keeps_onServerError _ _).userData
  | some c =>
    dsimp only
    split
    · rfl
    unfold writeFirst
    cases hpop : (m.sessions c).pop with
    | mk sendData u =>
      cases sendData with
      | none => exact (keeps_httpDummy _ _).userData
      | some sendData =>
        rw [(keeps_httpDummy _ _).userData]
        unfold triggerRest
        split <;> rfl

theorem userData_closeClient (m : Manager κ) (wsi : κ) (c : Nat) :
    (m.closeClient wsi c).userData = m.userData := by
  unfold closeClient
  rw [(keeps_onServerClose _ _ _ _).userData]
  split
  · exact (keeps_onServerError _ _).userData
  · rfl

theorem userData_lwsCallbackClosed (hm : m.userData.closed = false) (wsi : κ)
    (ret : Int) : (m.lwsCallbackClosed wsi ret).2.userData = m.userData := by
  unfold lwsCallbackClosed
  cases m.userDataMap wsi with
  | none => exact (keeps_onServerError _ _).userData
  | some c =>
    have hclient := userData_closeClient m wsi c
    rw [(keeps_httpDummy _ _).userData]
    unfold stopIfClosed removeClientUserData removeConnections
    rw [if_neg (by simp [hclient, hm])]
    exact hclient

/-- A callback leaves the server open exactly if it is not a close that names no client. -/
theorem serving_serve {call : Callback κ × Int} (hm : m.Serving)
    (hserve : serve m call = some m') : m'.Serving ↔ m.ClosesClient call := by
  obtain ⟨cb, ret⟩ := call
  cases hserve
  cases cb with
  | filterProtocolConnection peer now =>
    exact iff_of_true ((keeps_lwsCallbackFilterProtocolConnection m peer now ret).serving hm)
      trivial
  | established wsi peer =>
    have hdata := userData_lwsCallbackEstablished m wsi peer ret
    exact iff_of_true (serving_congr (congrArg _ hdata) (congrArg _ hdata) hm) trivial
  | receive wsi data isBinary isFinal =>
    exact iff_of_true ((keeps_lwsCallbackReceive m wsi data isBinary isFinal ret).serving hm)
      trivial
  | serverWriteable wsi =>
    have hdata := userData_lwsCallbackServerWriteable (m.takeWritable wsi) wsi ret
    exact iff_of_true (serving_congr (m := m) (congrArg _ hdata) (congrArg _ hdata) hm) trivial
  | wsPeerInitiatedClose wsi payload =>
    have hclosed := closed_lwsCallbackWsPeerInitiatedCloseServer hm.notClosed wsi payload ret
    have hstop := threadStop_lwsCallbackWsPeerInitiatedCloseServer m wsi payload ret
    rw [serving_iff]
    constructor
    · rintro ⟨hopen, -⟩
      exact hclosed.mp hopen
    · intro hnames
      exact ⟨hclosed.mpr hnames, hstop.trans hm.notStopped⟩
  | closed wsi =>
    have hdata := userData_lwsCallbackClosed hm.notClosed wsi ret
    exact iff_of_true (serving_congr (congrArg _ hdata) (congrArg _ hdata) hm) trivial
  | wsiDestroy =>
    have hdestroyed : Serving { m with userData := m.userData.setLws none } :=
      serving_congr (m := m) rfl rfl hm
    exact iff_of_true ((keeps_httpDummy _ ret).serving hdestroyed) trivial
  | protocolDestroy => exact iff_of_true ((keeps_httpDummy m ret).serving hm) trivial

end Manager

/-- Whatever callbacks clients cause, the server goes on serving exactly as long as every
peer-initiated close has a status and comes from a connection with a session. -/
theorem serving_throughout_iff {m : Manager κ} (hclosed : m.userData.closed = false)
    (hstop : m.userData.threadStop = false) (calls : List (Callback κ × Int)) :
    Throughout serve Manager.Serving calls m ↔ Meets serve Manager.ClosesClient calls m := by
  apply throughout_iff_meets (J := fun _ => True)
  · exact fun _ _ _ _ _ => trivial
  · intro m call m' _ hm hserve
    exact Manager.serving_serve hm hserve
  · trivial
  · exact Manager.serving_iff.mpr ⟨hclosed, hstop⟩

/-- The manager as `StartService` leaves it. -/
def startService (maxConnClientCnt maxConnForOneClient : UInt32) : Manager κ :=
  { maxConnClientCnt, maxConnForOneClient }

def samplePeer : WebSocketConnection := ⟨ascii "10.0.0.1", 4000⟩

/-- A client connects, closes with status 1000 and is gone. -/
def orderlyClient : List (Callback Nat × Int) :=
  [(.filterProtocolConnection (some samplePeer) (fun _ => 0), 0),
    (.established 7 (some samplePeer), 0),
    (.serverWriteable 7, 0), (.wsPeerInitiatedClose 7 [3, 232], 0), (.closed 7, 0),
    (.wsiDestroy, 0)]

theorem orderlyClient_leaves_serving :
    Meets serve Manager.ClosesClient orderlyClient (startService 10 10) ∧
      Throughout serve Manager.Serving orderlyClient (startService 10 10) :=
  have hmeets : Meets serve Manager.ClosesClient orderlyClient (startService 10 10) := by
    decide +kernel
  ⟨hmeets, (serving_throughout_iff rfl rfl orderlyClient).mpr hmeets⟩

/-- A client connects, closes without a status and is gone. -/
def silentClient : List (Callback Nat × Int) :=
  [(.filterProtocolConnection (some samplePeer) (fun _ => 0), 0),
    (.established 7 (some samplePeer), 0),
    (.wsPeerInitiatedClose 7 [], 0), (.closed 7, 0)]

/-- One empty close frame stops the service thread and shuts out every later client. -/
theorem silentClient_stops_server :
    ¬ Throughout serve Manager.Serving silentClient (startService 10 10) ∧
      ∃ m, silentClient.foldlM serve (startService 10 10) = some m ∧
        m.userData.threadStop = true ∧
        ∀ peer now ret, (m.lwsCallbackFilterProtocolConnection peer now ret).1 = -1 := by
  have hstop : ((silentClient.foldlM serve (startService 10 10)).map
      fun m => m.userData.threadStop) = some true := by
    decide +kernel
  obtain ⟨m, hm, hthread⟩ := Option.map_eq_some_iff.mp hstop
  constructor
  · intro hserving
    have hopen := (hserving.finish hm).notStopped
    rw [hthread] at hopen
    cases hopen
  · refine ⟨m, hm, hthread, ?_⟩
    intro peer now ret
    unfold Manager.lwsCallbackFilterProtocolConnection
    rw [if_pos (Or.inr hthread)]
    rfl

end Netstack.WebSocket.ServerExec
