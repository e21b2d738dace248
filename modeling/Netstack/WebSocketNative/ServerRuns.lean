import Netstack.Foundation.Execution
import Netstack.Foundation.Rosters
import Netstack.WebSocketNative.ServerFrames

/-!
# Runs of the native WebSocket server

Calls of the application and callbacks of libwebsockets, in any order that libwebsockets can make
them, and what the list of connections says about the connections that are established.

## Implementation notes

After a callback has answered -1 only the one for closed connections is made. `Stop` is cut after
every change that the callbacks see. The links and the record for each fragment are a history.
-/

namespace Netstack.WebSocketServer

open Function Foundation WebSocket Option Server ServerContext Roster

/-- An established connection, and the fragments of the message it is receiving. -/
structure Link where
  connection : SocketConnection
  /-- A callback has answered -1. -/
  doomed : Bool := false
  isBinary : Bool := false
  fragments : List Bytes := []
  deriving DecidableEq, Repr

/-- What a fragment was, with those before it, and the messages handed over for it. -/
structure Receipt where
  connection : SocketConnection
  fragments : List Bytes
  isFinal : Bool
  messages : List (Bytes × SocketConnection)
  deriving DecidableEq, Repr

/-- How far a call of `Stop` or `Destroy` has come. The last is the join, of which of the two. -/
inductive Stopping where
  | idle
  | closedAll
  | marked
  | halted (stop : Bool)
  deriving DecidableEq, Repr

/-- The flags that a call which has come so far has set. -/
def Stopping.Signals {κ : Type} (c : ServerContext κ) : Stopping → Prop
  | .marked => c.closed = true
  | .halted stop => c.threadStop = true ∧ (stop = true → c.closed = true)
  | _ => True

structure System (κ : Type) where
  server : Server κ := {}
  links : κ → Option Link := fun _ => none
  stopping : Stopping := .idle
  /-- `Start` has just returned success. -/
  justStarted : Bool := false
  receipts : List Receipt := []

inductive Event (κ : Type) where
  | start (permission : Bool) (config : ServerConfig) (created : Bool)
  | stop (permission : Bool)
  | destroy
  | proceed
  | close (permission : Bool) (connection : SocketConnection) (code : UInt32)
      (reason : Option Bytes)
  | send (permission : Bool) (data : Bytes) (connection : SocketConnection)
  | filterProtocolConnection (peer : Option SocketConnection) (now : Nat → UInt64)
  | established (wsi : κ) (peer : Option SocketConnection)
  | receive (wsi : κ) (data : Bytes) (isBinary isFinal : Bool)
  | serverWriteable (wsi : κ)
  | wsPeerInitiatedClose (wsi : κ) (payload : Bytes)
  | closed (wsi : κ)

variable {l : Link}

namespace System

variable {κ : Type} [DecidableEq κ] (p : Platform κ)

variable (s : System κ)

def setServer (server : Server κ) : System κ :=
  { s with server, justStarted := false }

def moveTo (server : Server κ) (stopping : Stopping) : System κ :=
  { s with server, stopping, justStarted := false }

def start (permission : Bool) (config : ServerConfig) (created : Bool) : System κ :=
  { s with
    server := (s.server.start p permission config created).2
    justStarted := (s.server.start p permission config created).1 = 0 }

def stop (permission : Bool) : System κ :=
  if !s.server.serverContext.context then s.setServer s.server
  else if !permission then
    s.setServer (s.server.mapContext fun c => { c with permissionDenied := true })
  else if s.server.serverContext.closed ∨ s.server.serverContext.threadStop then
    s.setServer s.server
  else s.moveTo (s.server.closeAllConnection p) .closedAll

/-- The service thread is joined and the context of libwebsockets destroyed. -/
def halt : System κ :=
  { s.setServer { s.server.destroyContext with joinable := false } with
    links := fun _ => none
    stopping := .idle }

def destroy : System κ :=
  if !s.server.serverContext.context && !s.server.joinable then s.setServer s.server
  else if s.server.joinable then
    s.moveTo (s.server.mapContext fun c => c.setThreadStop true) (.halted false)
  else s.halt

def proceed : Option (System κ) :=
  match s.stopping with
  | .idle => none
  | .closedAll =>
    some (s.moveTo (s.server.mapContext fun c => c.close lwsCloseStatusGoingAway []) .marked)
  | .marked =>
    some (s.moveTo (s.server.mapContext fun c => c.setThreadStop true) (.halted true))
  | .halted _ => some s.halt

def established (wsi : κ) (peer : Option SocketConnection) : System κ :=
  let answer := s.server.lwsCallbackEstablished wsi peer
  { s.setServer answer.2 with
    links :=
      if answer.1 = 0 then
        update s.links wsi (peer.map fun connection => { connection })
      else s.links }

/-- The link after a fragment. -/
def advance (l : Link) (ret : Int) (data : Bytes) (isBinary isFinal : Bool) : Link :=
  if ret < 0 then { l with doomed := true }
  else if isFinal then { l with fragments := [] }
  else { l with isBinary, fragments := l.fragments ++ [data] }

def receive (l : Link) (wsi : κ) (data : Bytes) (isBinary isFinal : Bool) : System κ :=
  let answer := s.server.lwsCallbackReceive p wsi data isBinary isFinal
  { s.setServer answer.2 with
    links := update s.links wsi (some (advance l answer.1 data isBinary isFinal))
    receipts := s.receipts ++
      [⟨l.connection, l.fragments ++ [data], isFinal,
        answer.2.messages.drop s.server.messages.length⟩] }

def serverWriteable (l : Link) (wsi : κ) : System κ :=
  let answer := (s.server.takeWritable wsi).lwsCallbackServerWriteable wsi
  { s.setServer answer.2 with
    links :=
      if answer.1 < 0 then update s.links wsi (some { l with doomed := true })
      else s.links }

def closed (wsi : κ) : System κ :=
  { s.setServer (s.server.lwsCallbackClosed p wsi).2 with
    links := update s.links wsi none }

/-- A callback for an established connection. -/
def withLink (wsi : κ) (next : Link → Option (System κ)) : Option (System κ) :=
  match s.links wsi with
  | none => none
  | some l => if s.server.serverContext.context ∧ l.doomed = false then next l else none

def step : Event κ → Option (System κ)
  | .start permission config created =>
    if s.stopping = .idle then some (s.start p permission config created) else none
  | .stop permission => if s.stopping = .idle then some (s.stop p permission) else none
  | .destroy => if s.stopping = .idle then some s.destroy else none
  | .proceed => s.proceed
  | .close permission connection code reason =>
    some (s.setServer (s.server.close permission connection code reason).2)
  | .send permission data connection =>
    some (s.setServer (s.server.send permission data connection).2)
  | .filterProtocolConnection peer now =>
    if s.server.serverContext.context then
      some (s.setServer (s.server.lwsCallbackFilterProtocolConnection p peer now).2)
    else none
  | .established wsi peer =>
    if s.server.serverContext.context ∧ s.links wsi = none then some (s.established wsi peer)
    else none
  | .receive wsi data isBinary isFinal =>
    s.withLink wsi fun l =>
      if l.fragments = [] ∨ l.isBinary = isBinary then
        some (s.receive p l wsi data isBinary isFinal)
      else none
  | .serverWriteable wsi =>
    s.withLink wsi fun l =>
      if s.server.writables wsi then some (s.serverWriteable l wsi) else none
  | .wsPeerInitiatedClose wsi payload =>
    s.withLink wsi fun _ =>
      some (s.setServer (s.server.lwsCallbackWsPeerInitiatedCloseServer wsi payload).2)
  | .closed wsi => if s.server.serverContext.context then some (s.closed p wsi) else none

variable {s t : System κ} {wsi : κ} {e : Event κ}

section Steps

/-- What a step can do. The calls and callbacks that leave the list, the fragments and the thread
alone are one case. -/
inductive Steps (s : System κ) : Event κ → System κ → Prop
  | started (permission : Bool) (config : ServerConfig) (created : Bool) :
      Steps s (.start permission config created) (s.start p permission config created)
  | served {e : Event κ} {server : Server κ}
      (hserver : s.server.Keeps server) : Steps s e (s.setServer server)
  | stopping {e : Event κ} {server : Server κ} {stopping : Stopping}
      (hserver : s.server.Keeps server) (hstopping : stopping ≠ .idle)
      (hsignals : s.stopping.Signals s.server.serverContext →
        stopping.Signals server.serverContext) :
      Steps s e (s.moveTo server stopping)
  | halted {e : Event κ}
      (hbefore : (∃ stop, s.stopping = .halted stop) ∨
        s.server.serverContext.context = true ∧ s.server.joinable = false) : Steps s e s.halt
  | established {wsi : κ} (habsent : s.links wsi = none) (peer : Option SocketConnection) :
      Steps s (.established wsi peer) (s.established wsi peer)
  | received {wsi : κ} {l : Link} {isBinary : Bool} (hl : s.links wsi = some l)
      (hdoomed : l.doomed = false) (hkind : l.fragments = [] ∨ l.isBinary = isBinary)
      (data : Bytes) (isFinal : Bool) :
      Steps s (.receive wsi data isBinary isFinal) (s.receive p l wsi data isBinary isFinal)
  | wrote {wsi : κ} {l : Link} (hl : s.links wsi = some l) :
      Steps s (.serverWriteable wsi) (s.serverWriteable l wsi)
  | closed (wsi : κ) : Steps s (.closed wsi) (s.closed p wsi)

omit [DecidableEq κ] in
theorem withLink_eq_some {next : Link → Option (System κ)} (h : s.withLink wsi next = some t) :
    ∃ l, s.links wsi = some l ∧ l.doomed = false ∧ next l = some t := by
  unfold withLink at h
  grind

/-- The service thread is told to stop. -/
theorem Steps.threadStop (s : System κ) (e : Event κ) {stop : Bool}
    (hstop : stop = true → s.stopping = .marked) :
    Steps p s e (s.moveTo (s.server.mapContext fun c => c.setThreadStop true) (.halted stop)) := by
  refine .stopping s.server.keeps_setThreadStop Stopping.noConfusion fun hsignals => ⟨rfl, ?_⟩
  intro h
  rw [hstop h] at hsignals
  exact hsignals

theorem steps_stop (s : System κ) (permission : Bool) (e : Event κ) :
    Steps p s e (s.stop p permission) := by
  unfold stop
  split_ifs
  · exact .served (.refl s.server)
  · exact .served s.server.keeps_permissionDenied
  · exact .served (.refl s.server)
  · exact .stopping (s.server.keeps_closeAllConnection p) Stopping.noConfusion fun _ => trivial

theorem steps_destroy (s : System κ) (e : Event κ) : Steps p s e s.destroy := by
  unfold destroy
  split_ifs with hthere hthread
  · exact .served (.refl s.server)
  · exact .threadStop p s e Bool.noConfusion
  · refine .halted (Or.inr ⟨?_, Bool.eq_false_iff.mpr hthread⟩)
    grind

theorem steps_proceed (h : s.proceed = some t) (e : Event κ) : Steps p s e t := by
  unfold proceed at h
  cases hstopping : s.stopping with
  | idle => simp [hstopping] at h
  | closedAll =>
    rw [hstopping] at h
    cases h
    exact .stopping (s.server.keeps_closeContext _ _) Stopping.noConfusion fun _ => rfl
  | marked =>
    rw [hstopping] at h
    cases h
    exact .threadStop p s e fun _ => hstopping
  | halted stop =>
    rw [hstopping] at h
    cases h
    exact .halted (Or.inl ⟨stop, hstopping⟩)

theorem steps_of_step (h : s.step p e = some t) : Steps p s e t := by
  cases e with
  | start permission config created =>
    obtain ⟨-, hstart⟩ := ite_none_right_eq_some.mp h
    cases hstart
    exact .started permission config created
  | stop permission =>
    obtain ⟨-, hstop⟩ := ite_none_right_eq_some.mp h
    cases hstop
    exact steps_stop p s permission _
  | destroy =>
    obtain ⟨-, hdestroy⟩ := ite_none_right_eq_some.mp h
    cases hdestroy
    exact steps_destroy p s _
  | proceed => exact steps_proceed p h _
  | close permission connection code reason =>
    cases h
    exact .served (s.server.keeps_close permission connection code reason)
  | send permission data connection =>
    cases h
    exact .served (s.server.keeps_send permission data connection)
  | filterProtocolConnection peer now =>
    obtain ⟨-, hfilter⟩ := ite_none_right_eq_some.mp h
    cases hfilter
    exact .served (s.server.keeps_lwsCallbackFilterProtocolConnection p peer now)
  | established wsi peer =>
    obtain ⟨⟨-, habsent⟩, hestablished⟩ := ite_none_right_eq_some.mp h
    cases hestablished
    exact .established habsent peer
  | receive wsi data isBinary isFinal =>
    obtain ⟨l, hl, hdoomed, hnext⟩ := withLink_eq_some h
    obtain ⟨hkind, hreceive⟩ := ite_none_right_eq_some.mp hnext
    cases hreceive
    exact .received hl hdoomed hkind data isFinal
  | serverWriteable wsi =>
    obtain ⟨l, hl, -, hnext⟩ := withLink_eq_some h
    obtain ⟨-, hwriteable⟩ := ite_none_right_eq_some.mp hnext
    cases hwriteable
    exact .wrote hl
  | wsPeerInitiatedClose wsi payload =>
    obtain ⟨l, hl, -, hnext⟩ := withLink_eq_some h
    cases hnext
    exact .served (s.server.keeps_lwsCallbackWsPeerInitiatedCloseServer wsi payload)
  | closed wsi =>
    obtain ⟨-, hclosed⟩ := ite_none_right_eq_some.mp h
    cases hclosed
    exact .closed wsi

end Steps

section Roster

omit [DecidableEq κ]

/-- The list of connections and the connections that are established. -/
def roster (s : System κ) : Roster Bytes κ SocketConnection where
  entries id := s.server.serverContext.webSocketConnection[id]?
  members wsi := (s.links wsi).map Link.connection

def Active (s : System κ) : Prop := s.server.serverContext.Active

instance (s : System κ) : Decidable s.Active := inferInstanceAs (Decidable (ServerContext.Active _))

theorem roster_eq (hmap : t.server.serverContext.webSocketConnection =
      s.server.serverContext.webSocketConnection)
    (hlinks : ∀ wsi, (t.links wsi).map Link.connection = (s.links wsi).map Link.connection) :
    t.roster = s.roster := by
  ext1
  · exact congrArg (fun m (id : Bytes) => m[id]?) hmap
  · exact funext hlinks

variable [DecidableEq κ]

/-- What a step does to the list and the established connections. -/
inductive Moves (s t : System κ) : Event κ → Prop
  | same {e : Event κ} (hroster : t.roster = s.roster)
      (hsessions : s.server.KeepsSessions t.server) : Moves s t e
  | entered {wsi : κ} {connection : SocketConnection} (hactive : s.Active)
      (habsent : s.links wsi = none)
      (hroster : t.roster = s.roster.enter connection.clientId wsi connection)
      (hsessions : s.server.KeepsSessions t.server)
      (hsession : (t.server.serverContext.userDataMap wsi).isSome = true) :
      Moves s t (.established wsi (some connection))
  | left {wsi : κ} (hactive : s.Active)
      (hroster : t.roster =
        s.roster.leave (s.server.serverContext.getClientIdFromConnectionByWsi p wsi) wsi)
      (hsessions : t.server.serverContext.userDataMap =
        update s.server.serverContext.userDataMap wsi none) :
      Moves s t (.closed wsi)
  | forgotten {wsi : κ} (hpassive : s.Active → s.server.serverContext.userDataMap wsi = none)
      (hroster : t.roster = s.roster.forget wsi) (hsessions : s.server.KeepsSessions t.server) :
      Moves s t (.closed wsi)
  | halted {e : Event κ} (hlinks : ∀ wsi, t.links wsi = none) (hthread : t.server.joinable = false)
      (hbefore : (∃ stop, s.stopping = .halted stop) ∨
        s.server.serverContext.context = true ∧ s.server.joinable = false) : Moves s t e

/-- The link of a connection is replaced by one that names the same peer. -/
theorem roster_eq_of_update (hlist : s.server.KeepsList t.server)
    {l' : Link} (hl : s.links wsi = some l) (hl' : l'.connection = l.connection)
    (hlinks : t.links = update s.links wsi (some l')) : t.roster = s.roster := by
  apply roster_eq hlist.webSocketConnection
  intro wsi'
  rw [hlinks]
  grind

/-- The link of a connection is set or removed. -/
theorem members_of_update {l : Option Link} (hlinks : t.links = update s.links wsi l) :
    t.roster.members = update s.roster.members wsi (l.map Link.connection) := by
  change Option.map Link.connection ∘ t.links = _
  rw [hlinks]
  exact comp_update _ _ _ _

theorem roster_forget (hlist : s.server.KeepsList t.server)
    (hlinks : t.links = update s.links wsi none) : t.roster = s.roster.forget wsi := by
  refine Roster.ext ?_ (members_of_update hlinks)
  exact congrArg (fun m (id : Bytes) => m[id]?) hlist.webSocketConnection

theorem roster_leave {id : Bytes} (hmap : t.server.serverContext.webSocketConnection =
      s.server.serverContext.webSocketConnection.erase id)
    (hlinks : t.links = update s.links wsi none) : t.roster = s.roster.leave id wsi := by
  refine Roster.ext (funext fun id' => ?_) (members_of_update hlinks)
  by_cases hid : id' = id <;> simp [roster, leave, hmap, FiniteMaps.getElem?_erase, hid]

theorem roster_enter (hmap : t.server.serverContext.webSocketConnection =
      s.server.serverContext.webSocketConnection.insert l.connection.clientId (wsi, l.connection))
    (hlinks : t.links = update s.links wsi (some l)) :
    t.roster = s.roster.enter l.connection.clientId wsi l.connection := by
  refine Roster.ext (funext fun id' => ?_) (members_of_update hlinks)
  by_cases hid : id' = l.connection.clientId <;>
    simp [roster, enter, hmap, FiniteMaps.getElem?_insert, hid]

theorem connection_advance (l : Link) (ret : Int) (data : Bytes) (isBinary isFinal : Bool) :
    (advance l ret data isBinary isFinal).connection = l.connection := by
  unfold advance
  split_ifs <;> rfl

theorem moves_established (habsent : s.links wsi = none) (peer : Option SocketConnection) :
    Moves p s (s.established wsi peer) (.established wsi peer) := by
  obtain ⟨-, -, hsessions, hpeer⟩ := s.server.lwsCallbackEstablished_spec wsi peer
  cases hpeer with
  | refused hret hmap =>
    refine .same (roster_eq hmap fun wsi' => ?_) hsessions
    simp [established, hret]
  | admitted hret hactive hmap hsession =>
    refine .entered hactive habsent (roster_enter (l := { connection := _ }) hmap ?_) hsessions
      hsession
    simp [established, hret]

theorem moves_closed (s : System κ) (wsi : κ) : Moves p s (s.closed p wsi) (.closed wsi) := by
  obtain ⟨-, -, ⟨hpassive, hlist⟩ | ⟨hactive, hmap, hsessions⟩⟩ :=
    s.server.lwsCallbackClosed_spec p wsi
  · exact .forgotten hpassive (roster_forget hlist rfl) hlist.sessions
  · exact .left hactive (roster_leave hmap rfl) hsessions

theorem moves_serverWriteable (hl : s.links wsi = some l)
    (e : Event κ) : Moves p s (s.serverWriteable l wsi) e := by
  have hlist : s.server.KeepsList (s.serverWriteable l wsi).server :=
    ((s.server.keeps_takeWritable wsi).trans
      (keeps_lwsCallbackServerWriteable _ wsi)).toKeepsList
  apply Moves.same _ hlist.sessions
  by_cases hret : ((s.server.takeWritable wsi).lwsCallbackServerWriteable wsi).1 < 0
  · have hlinks : (s.serverWriteable l wsi).links =
        update s.links wsi (some { l with doomed := true }) := if_pos hret
    refine roster_eq_of_update hlist hl ?_ hlinks
    rfl
  · apply roster_eq hlist.webSocketConnection
    intro wsi'
    have hlinks : (s.serverWriteable l wsi).links = s.links := if_neg hret
    rw [hlinks]

theorem moves_of_step (h : s.step p e = some t) : Moves p s t e := by
  cases steps_of_step p h with
  | started permission config created =>
    have hlist := (s.server.start_spec p permission config created).1
    exact .same (roster_eq hlist.webSocketConnection fun _ => rfl) hlist.sessions
  | served hserver =>
    exact .same (roster_eq hserver.webSocketConnection fun _ => rfl) hserver.sessions
  | stopping hserver hstopping hsignals =>
    exact .same (roster_eq hserver.webSocketConnection fun _ => rfl) hserver.sessions
  | halted hbefore => exact .halted (fun _ => rfl) rfl hbefore
  | established habsent peer => exact moves_established p habsent peer
  | @received wsi l isBinary hl hdoomed hkind data isFinal =>
    have hkeeps := s.server.keepsConnections_lwsCallbackReceive p wsi data isBinary isFinal
    exact .same (roster_eq_of_update hkeeps.toKeepsList hl
      (connection_advance l _ data isBinary isFinal) rfl) hkeeps.sessions
  | wrote hl => exact moves_serverWriteable p hl _
  | closed wsi => exact moves_closed p s wsi

end Roster

section Flags

/-- The service thread is there, and nobody is stopping the server. -/
def Running (s : System κ) : Prop := s.server.joinable = true ∧ s.stopping = .idle

omit [DecidableEq κ] in
instance (s : System κ) : Decidable s.Running := by
  unfold Running
  infer_instance

/-- There is a thread for a context. `Stop` has set both flags before it joins the thread, and
`Destroy` the one that the thread looks at. -/
structure Orderly (s : System κ) : Prop where
  threaded : s.server.serverContext.context = true → s.server.joinable = true
  signals : s.stopping.Signals s.server.serverContext

/-- What a step does to the flags and the thread: no flag is cleared. -/
structure Turns (s t : System κ) : Prop where
  closed : s.server.serverContext.closed = true → t.server.serverContext.closed = true
  threadStop : s.server.serverContext.threadStop = true → t.server.serverContext.threadStop = true
  orderly : s.Orderly → t.Orderly
  running : t.Running → s.Running ∨ t.justStarted = true

omit [DecidableEq κ]

theorem Turns.active (h : Turns s t) (hactive : t.Active) : s.Active := by
  have hclosed := h.closed
  have hstop := h.threadStop
  grind [Active, ServerContext.Active]

theorem signals_mono {c d : ServerContext κ} (hclosed : c.closed = true → d.closed = true)
    (hstop : c.threadStop = true → d.threadStop = true) {stopping : Stopping}
    (h : stopping.Signals c) : stopping.Signals d := by
  cases stopping with
  | idle => trivial
  | closedAll => trivial
  | marked => exact hclosed h
  | halted stop => exact ⟨hstop h.1, fun hcall => hclosed (h.2 hcall)⟩

theorem Turns.of_stays (hstays : s.server.Stays t.server)
    (hstopping : t.stopping = s.stopping) : Turns s t where
  closed := hstays.closed
  threadStop := hstays.threadStop
  orderly h := by
    refine ⟨?_, ?_⟩
    · rw [hstays.context, hstays.joinable]
      exact h.threaded
    · rw [hstopping]
      exact signals_mono hstays.closed hstays.threadStop h.signals
  running h := by
    rw [Running, hstays.joinable, hstopping] at h
    exact Or.inl h

/-- A stop moves on. -/
theorem Turns.of_stopping (hstays : s.server.Stays t.server)
    (hstopping : t.stopping ≠ .idle)
    (hsignals : s.stopping.Signals s.server.serverContext →
      t.stopping.Signals t.server.serverContext) : Turns s t where
  closed := hstays.closed
  threadStop := hstays.threadStop
  orderly h := by
    refine ⟨?_, hsignals h.signals⟩
    rw [hstays.context, hstays.joinable]
    exact h.threaded
  running h := absurd h.2 hstopping

theorem turns_halt (s : System κ) : Turns s s.halt where
  closed := id
  threadStop := id
  orderly _ := ⟨fun h => Bool.noConfusion h, trivial⟩
  running h := Bool.noConfusion h.1

theorem turns_start (s : System κ) (permission : Bool) (config : ServerConfig)
    (created : Bool) : Turns s (s.start p permission config created) := by
  obtain ⟨-, -, hclosed, hstop, ⟨hret, hthread⟩ | ⟨hthread, hcontext⟩⟩ :=
    s.server.start_spec p permission config created
  · refine ⟨hclosed.trans, hstop.trans, fun h => ⟨fun _ => hthread, ?_⟩, fun _ => Or.inr ?_⟩
    · exact signals_mono hclosed.trans hstop.trans h.signals
    · exact decide_eq_true hret
  · exact .of_stays ⟨hthread, hcontext, hclosed.trans, hstop.trans⟩ rfl

variable [DecidableEq κ]

theorem turns_of_step (h : s.step p e = some t) : Turns s t := by
  cases steps_of_step p h with
  | started permission config created => exact turns_start p s permission config created
  | served hserver => exact .of_stays hserver.toStays rfl
  | stopping hserver hstopping hsignals => exact .of_stopping hserver.toStays hstopping hsignals
  | halted hbefore => exact turns_halt s
  | @established wsi habsent peer =>
    exact .of_stays (s.server.lwsCallbackEstablished_spec wsi peer).1 rfl
  | @received wsi l isBinary hl hdoomed hkind data isFinal =>
    exact .of_stays
      (s.server.keepsConnections_lwsCallbackReceive p wsi data isBinary isFinal).toStays rfl
  | @wrote wsi l hl =>
    exact .of_stays ((s.server.keeps_takeWritable wsi).trans
      (keeps_lwsCallbackServerWriteable _ wsi)).toStays rfl
  | closed wsi => exact .of_stays (s.server.lwsCallbackClosed_spec p wsi).1 rfl

end Flags

section Tracking

/-- A connection that is admitted has a name that is not listed. -/
def Unlisted (s : System κ) : Event κ → Prop
  | .established _ (some connection) =>
    s.Active → s.server.serverContext.webSocketConnection[connection.clientId]? = none
  | _ => True

instance (s : System κ) (e : Event κ) : Decidable (s.Unlisted e) := by
  unfold Unlisted
  split <;> infer_instance

/-- Every established connection is listed under its name and has a session. -/
structure Tracks (s : System κ) : Prop where
  orderly : s.Orderly
  lists : s.roster.Lists SocketConnection.clientId
  sessions : ∀ wsi, (s.roster.members wsi).isSome = true →
    (s.server.serverContext.userDataMap wsi).isSome = true

omit [DecidableEq κ] in
theorem Orderly.not_active_of_halted (h : s.Orderly)
    (hbefore : (∃ stop, s.stopping = .halted stop) ∨
      s.server.serverContext.context = true ∧ s.server.joinable = false) : ¬ s.Active := by
  obtain ⟨stop, hstopping⟩ | hunthreaded := hbefore
  · have hsignals := h.signals
    rw [hstopping] at hsignals
    exact fun hactive => Bool.noConfusion (hactive.2.symm.trans hsignals.1)
  · grind [@h.threaded]

/-- The name that the callback for closed connections finds belongs to no other connection. -/
theorem Tracks.own_clientId (h : s.Tracks) (wsi wsi' : κ)
    {connection : SocketConnection} (hmember : s.roster.members wsi' = some connection)
    (hid : s.server.serverContext.getClientIdFromConnectionByWsi p wsi = connection.clientId) :
    wsi' = wsi := by
  unfold getClientIdFromConnectionByWsi at hid
  cases hfind : s.server.serverContext.findWsi p wsi with
  | none =>
    rw [hfind] at hid
    exact absurd hid.symm connection.clientId_ne_nil
  | some entry =>
    rw [hfind] at hid
    have hentry := findWsi_eq_some hfind
    have hlisted : s.server.serverContext.webSocketConnection[connection.clientId]? =
        some (wsi', connection) := h.lists.listed wsi' connection hmember
    grind

theorem Tracks.step (h : s.Tracks) (hfresh : s.Active → s.roster.Fresh) (hunlisted : s.Unlisted e)
    (hstep : s.step p e = some t) : t.Tracks := by
  have horderly := (turns_of_step p hstep).orderly h.orderly
  cases moves_of_step p hstep with
  | same hroster hsessions =>
    refine ⟨horderly, ?_, ?_⟩
    · rw [hroster]
      exact h.lists
    · rw [hroster]
      exact fun wsi hmember => hsessions wsi (h.sessions wsi hmember)
  | @entered wsi connection hactive habsent hroster hsessions hsession =>
    refine ⟨horderly, ?_, fun wsi' hmember => ?_⟩
    · rw [hroster]
      apply h.lists.enter (hfresh hactive)
      · simp [roster, habsent]
      · exact hunlisted hactive
    · by_cases hwsi : wsi' = wsi
      · rw [hwsi]
        exact hsession
      · rw [hroster] at hmember
        apply hsessions wsi' (h.sessions wsi' _)
        simpa [enter, hwsi] using hmember
  | left hactive hroster hsessions =>
    refine ⟨horderly, ?_, fun wsi' hmember => ?_⟩
    · rw [hroster]
      exact h.lists.leave fun wsi' connection => h.own_clientId p _ wsi'
    · rw [hroster] at hmember
      obtain ⟨connection, hsome⟩ := isSome_iff_exists.mp hmember
      obtain ⟨hwsi, hold⟩ := member_of_update hsome
      rw [hsessions, update_of_ne hwsi]
      exact h.sessions wsi' (isSome_of_eq_some hold)
  | forgotten hpassive hroster hsessions =>
    refine ⟨horderly, ?_, fun wsi' hmember => ?_⟩
    · rw [hroster]
      exact h.lists.forget _
    · rw [hroster] at hmember
      obtain ⟨connection, hsome⟩ := isSome_iff_exists.mp hmember
      exact hsessions wsi' (h.sessions wsi' (isSome_of_eq_some (member_of_update hsome).2))
  | halted hlinks hthread hbefore =>
    have hnone : ∀ wsi, t.roster.members wsi = none := fun wsi => by simp [roster, hlinks]
    refine ⟨horderly, ⟨?_, ?_⟩, ?_⟩
    · intro wsi connection hmember
      cases (hnone wsi).symm.trans hmember
    · intro _ wsi connection _ _ hmember
      cases (hnone wsi).symm.trans hmember
    · intro wsi hmember
      rw [hnone] at hmember
      cases hmember

/-- Nothing is left of the connections that are gone, if the server is active when they close. -/
theorem Tracks.fresh_step (h : s.Tracks) (hfresh : s.roster.Fresh)
    (hstep : s.step p e = some t) (hthere : t.Active ∨ t.server.joinable = true)
    (hclosed : ∀ wsi, e = .closed wsi → s.Active ∨ s.links wsi = none) : t.roster.Fresh := by
  cases moves_of_step p hstep with
  | same hroster hsessions =>
    rw [hroster]
    exact hfresh
  | entered hactive habsent hroster hsessions hsession =>
    rw [hroster]
    exact hfresh.enter _ _ _
  | @left wsi hactive hroster hsessions =>
    rw [hroster]
    apply hfresh.leave
    intro id connection hentry
    obtain ⟨connection', hmember⟩ := isSome_iff_exists.mp (hfresh id wsi connection hentry)
    unfold getClientIdFromConnectionByWsi
    cases hfind : s.server.serverContext.findWsi p wsi with
    | none => exact absurd hentry (findWsi_eq_none hfind id connection)
    | some entry =>
      have hfound := findWsi_eq_some hfind
      have hid := (h.lists.named id wsi connection' connection hentry hmember).2
      exact hid.trans (h.lists.named entry.1 wsi connection' entry.2.2 hfound hmember).2.symm
  | @forgotten wsi hpassive hroster hsessions =>
    have habsent : s.roster.members wsi = none := by
      rcases hclosed wsi rfl with hactive | hnone
      · by_contra hsome
        have hsession := h.sessions wsi (isSome_iff_ne_none.mpr hsome)
        grind
      · simp [roster, hnone]
    have hsame : s.roster.forget wsi = s.roster :=
      Roster.ext rfl (update_eq_self_iff.mpr habsent.symm)
    rw [hroster, hsame]
    exact hfresh
  | halted hlinks hthread hbefore =>
    rcases hthere with hactive | hjoinable
    · exact absurd ((turns_of_step p hstep).active hactive)
        (h.orderly.not_active_of_halted hbefore)
    grind

omit [DecidableEq κ] in
/-- A server that was never started. -/
theorem tracks_initial (registered : Registered) :
    Tracks ({ server := { registered } } : System κ) ∧
      Roster.Fresh (roster { server := { registered } } : Roster Bytes κ SocketConnection) := by
  refine ⟨⟨⟨fun h => Bool.noConfusion h, trivial⟩, ⟨?_, ?_⟩, ?_⟩, ?_⟩
  · exact fun wsi connection hmember => absurd hmember (by simp [roster])
  · exact fun id wsi connection _ hentry => absurd hentry (by simp [roster])
  · exact fun wsi hmember => absurd hmember (by simp [roster])
  · exact fun id wsi connection hentry => absurd hentry (by simp [roster])

end Tracking

end System

section Samples

/-- A platform that visits the connections in the order of their names. -/
def samplePlatform : Platform Nat where
  visit connections := connections.toList
  visit_perm _ := .refl _
  isValidIPV4 ip := ip = ascii "127.0.0.1"
  isValidIPV6 _ := false
  realpath path := some path

def sampleStart : Event Nat := .start true { serverIP := ascii "127.0.0.1", serverPort := 80 } true

def sampleAlice : SocketConnection := ⟨ascii "10.0.0.1", 5000⟩

def sampleBob : SocketConnection := ⟨ascii "10.0.0.2", 5000⟩

end Samples

end Netstack.WebSocketServer
