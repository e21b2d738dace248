import Netstack.WebSocketNative.ServerRuns

/-!
# Messages received by the native WebSocket server

A message is assembled in a buffer for its connection and its kind, and handed to the application
with its last fragment. The buffer holds the fragments of the message and nothing else as long as a
new connection finds no fragments of one with the same address, and no message becomes too long
before its last fragment.
-/

namespace Netstack.WebSocketServer

open Function Foundation Foundation.Execution ServerContext Server Link List

variable {isBinary : Bool}

namespace Server

variable {κ : Type} [DecidableEq κ] (p : Platform κ)

variable (s : Server κ) (registered : Bool)

omit [DecidableEq κ] in
theorem messages_call_onMessageReceive (data : Bytes)
    (connection : SocketConnection) :
    (s.call registered (.onMessageReceive data connection)).messages =
      s.messages ++ if registered then [(data, connection)] else [] := by
  unfold call
  cases registered <;> simp [messages]

omit [DecidableEq κ] in
theorem serverContext_call (c : Call) :
    (s.call registered c).serverContext = s.serverContext := by
  unfold call
  split <;> rfl

/-- The application gets what the buffer holds, and both buffers of the connection are cleared. -/
theorem deliver_spec (wsi : κ) (isBinary : Bool) :
    (s.deliver p wsi isBinary).messages = s.messages ++
        (if s.registered.onMessageReceive then
          [(s.serverContext.getWsServerData isBinary wsi,
            s.serverContext.getConnectionFromWsi p wsi)]
        else []) ∧
      ∀ isBinary' wsi', (s.deliver p wsi isBinary).serverContext.getWsServerData isBinary' wsi' =
        if wsi' = wsi then [] else s.serverContext.getWsServerData isBinary' wsi' := by
  refine ⟨s.messages_call_onMessageReceive _ _ _, ?_⟩
  intro isBinary' wsi'
  unfold deliver mapContext
  grind [getWsServerData_clearWsServerData, serverContext_call]

/-- What the callback for a fragment does, if the buffer of the connection holds `held`. -/
inductive Received (s : Server κ) (wsi : κ) (held data : Bytes) (isBinary isFinal : Bool)
    (answer : Int × Server κ) : Prop
  | tooLong (hret : answer.1 = -1) (hmessages : answer.2.messages = s.messages)
  | exceeding (hret : answer.1 = 0) (hlength : data.length ≤ int32Max)
      (hexceeds : websocketPerMessageMaxSize < held.length + data.length)
      (hmessages : answer.2.messages = s.messages)
      (hdata : ∀ isBinary', answer.2.serverContext.getWsServerData isBinary' wsi = [])
  | continued (hret : answer.1 = 0) (hfinal : isFinal = false)
      (hfits : held.length + data.length ≤ websocketPerMessageMaxSize)
      (hmessages : answer.2.messages = s.messages)
      (hdata : ∀ isBinary', answer.2.serverContext.getWsServerData isBinary' wsi =
        if isBinary' = isBinary then held ++ data else [])
  | completed (hret : answer.1 = 0) (hfinal : isFinal = true)
      (hfits : held.length + data.length ≤ websocketPerMessageMaxSize)
      (hmessages : answer.2.messages = s.messages ++
        (if s.registered.onMessageReceive then
          [(held ++ data, s.serverContext.getConnectionFromWsi p wsi)]
        else []))
      (hdata : ∀ isBinary', answer.2.serverContext.getWsServerData isBinary' wsi = [])

/-- The buffers of the other connections stay as they are. -/
theorem received {s : Server κ} {wsi : κ} {held : Bytes}
    (hheld : ∀ isBinary', s.serverContext.getWsServerData isBinary' wsi =
      if isBinary' = isBinary then held else [])
    (hbound : held.length ≤ websocketPerMessageMaxSize) (data : Bytes) (isFinal : Bool) :
    Received p s wsi held data isBinary isFinal
        (s.lwsCallbackReceive p wsi data isBinary isFinal) ∧
      ∀ isBinary', ∀ wsi' ≠ wsi,
        (s.lwsCallbackReceive p wsi data isBinary isFinal).2.serverContext.getWsServerData
            isBinary' wsi' = s.serverContext.getWsServerData isBinary' wsi' := by
  by_cases hlength : int32Max < data.length
  · have hanswer : s.lwsCallbackReceive p wsi data isBinary isFinal = (-1, s) := if_pos hlength
    rw [hanswer]
    exact ⟨.tooLong rfl rfl, fun _ _ _ => rfl⟩
  have hbuffer : s.serverContext.getWsServerData isBinary wsi = held :=
    (hheld isBinary).trans (if_pos rfl)
  have hexceeds := appendWsServerData_exceeds (hbuffer.symm ▸ hbound) data
  have hdata := fun isBinary' wsi' =>
    s.serverContext.getWsServerData_appendWsServerData isBinary isBinary' wsi wsi' data
  have hlist := (s.keepsConnections_appendWsServerData isBinary wsi data).webSocketConnection
  unfold mapContext at hlist
  dsimp only at hlist
  unfold lwsCallbackReceive
  rw [if_neg hlength]
  rw [hbuffer] at hexceeds hdata
  cases happended : s.serverContext.appendWsServerData isBinary wsi data with
  | mk exceeds c =>
    rw [happended] at hexceeds hdata hlist
    cases exceeds with
    | true =>
      have hkeeps := keeps_onServerError { s with serverContext := c }
        websocketDataLengthExceeds
      have hcontext := serverContext_call { s with serverContext := c } s.registered.onError
        (.onError websocketDataLengthExceeds)
      refine ⟨.exceeding rfl (Nat.not_lt.mp hlength) (hexceeds.mp rfl) hkeeps.messages ?_, ?_⟩
      · grind [onServerError]
      · grind [onServerError]
    | false =>
      have hfits := Nat.not_lt.mp fun hover => Bool.noConfusion (hexceeds.mpr hover)
      cases isFinal with
      | false =>
        refine ⟨.continued rfl rfl hfits rfl ?_, ?_⟩
        · grind
        · grind
      | true =>
        obtain ⟨hmessages, hcleared⟩ :=
          deliver_spec p { s with serverContext := c } wsi isBinary
        have hconnection : c.getConnectionFromWsi p wsi =
            s.serverContext.getConnectionFromWsi p wsi := by
          unfold ServerContext.getConnectionFromWsi findWsi
          rw [hlist]
        have hnew : c.getWsServerData isBinary wsi = held ++ data :=
          (hdata isBinary wsi).trans (if_pos ⟨rfl, rfl⟩)
        refine ⟨.completed rfl rfl hfits ?_ ?_, ?_⟩
        · rw [← hnew, ← hconnection]
          exact hmessages
        · grind
        · grind

end Server

/-- What the application was told with a fragment is the message that ends there, or nothing. -/
def Receipt.Faithful (r : Receipt) : Prop :=
  r.messages = [] ∨
    r.isFinal = true ∧ r.fragments.flatten.length ≤ websocketPerMessageMaxSize ∧
      r.messages = [(r.fragments.flatten, r.connection)]

instance (r : Receipt) : Decidable r.Faithful := by
  unfold Receipt.Faithful
  infer_instance

/-- What the buffer for a kind of message holds. -/
def Link.held (l : Link) (isBinary : Bool) : Bytes :=
  if isBinary = l.isBinary then l.fragments.flatten else []

variable {l : Link}

namespace System

variable {κ : Type} [DecidableEq κ] (p : Platform κ)

/-- Every message handed to the application was received with one fragment, and is the message of
which that fragment was the last. -/
structure Isolated (s : System κ) : Prop where
  accounted : s.server.messages = s.receipts.flatMap Receipt.messages
  faithful : ∀ r ∈ s.receipts, r.Faithful

/-- A connection that is admitted has a name that is not listed and an address without fragments,
and only the last fragment of a message makes it too long. -/
def Unmixed (s : System κ) : Event κ → Prop
  | .established wsi (some connection) =>
    s.Active → s.server.serverContext.webSocketConnection[connection.clientId]? = none ∧
      ∀ isBinary, s.server.serverContext.getWsServerData isBinary wsi = []
  | .receive wsi data isBinary isFinal =>
    isFinal = true ∨ int32Max < data.length ∨
      (s.server.serverContext.getWsServerData isBinary wsi).length + data.length ≤
        websocketPerMessageMaxSize
  | _ => True

instance (s : System κ) (e : Event κ) : Decidable (s.Unmixed e) := by
  induction e using Event.casesOn <;> (try cases ‹Option SocketConnection›) <;>
    dsimp only [Unmixed] <;> infer_instance

/-- The buffers of a connection hold the fragments of the message it is receiving. -/
structure Assembles (s : System κ) (wsi : κ) (l : Link) : Prop where
  held : ∀ isBinary, s.server.serverContext.getWsServerData isBinary wsi = l.held isBinary
  bounded : l.fragments.flatten.length ≤ websocketPerMessageMaxSize

structure Invariant (s : System κ) : Prop where
  tracks : s.Tracks
  fresh : s.Active → s.roster.Fresh
  assembles : ∀ wsi l, s.links wsi = some l → l.doomed = false → s.Assembles wsi l
  isolated : s.Isolated

variable {s : System κ} {wsi : κ}

theorem Link.held_of_kind (hkind : l.fragments = [] ∨ l.isBinary = isBinary) (isBinary' : Bool) :
    l.held isBinary' = if isBinary' = isBinary then l.fragments.flatten else [] := by
  grind [held]

/-- What a step does to the messages. -/
inductive Hears (s t : System κ) : Event κ → Prop
  | quiet {e : Event κ} (hmessages : s.server.KeepsMessages t.server)
      (hreceipts : t.receipts = s.receipts)
      (hlinks : ∀ wsi l, t.links wsi = some l → l.doomed = false → s.links wsi = some l ∨
        s.Active ∧ ∃ connection, e = .established wsi (some connection) ∧ l = { connection }) :
      Hears s t e
  | received {wsi : κ} {l : Link} {data : Bytes} {isBinary isFinal : Bool}
      (hl : s.links wsi = some l) (hdoomed : l.doomed = false)
      (hkind : l.fragments = [] ∨ l.isBinary = isBinary)
      (ht : t = s.receive p l wsi data isBinary isFinal) :
      Hears s t (.receive wsi data isBinary isFinal)

theorem hears_established (s : System κ) (wsi : κ) (peer : Option SocketConnection) :
    Hears p s (s.established wsi peer) (.established wsi peer) := by
  obtain ⟨-, hmessages, -, hpeer⟩ := s.server.lwsCallbackEstablished_spec wsi peer
  refine .quiet hmessages rfl fun wsi' l hl _ => ?_
  cases hpeer with
  | refused hret hmap =>
    simp only [established, hret] at hl
    exact .inl hl
  | @admitted connection hret hactive hmap hsession =>
    simp only [established, hret, if_true, Option.map_some] at hl
    by_cases hwsi : wsi' = wsi
    · subst hwsi
      exact .inr ⟨hactive, connection, rfl, Option.some.inj (hl.symm.trans (update_self _ _ _))⟩
    · exact .inl ((update_of_ne hwsi _ _).symm.trans hl)

theorem hears_serverWriteable (s : System κ) (l : Link) (wsi : κ) (e : Event κ) :
    Hears p s (s.serverWriteable l wsi) e := by
  refine Hears.quiet ((s.server.keeps_takeWritable wsi).trans
    (keeps_lwsCallbackServerWriteable _ wsi)).toKeepsMessages rfl ?_
  intro wsi' l' hl' hdoomed
  unfold serverWriteable at hl'
  grind

theorem hears_of_step {t : System κ} {e : Event κ} (h : s.step p e = some t) : Hears p s t e := by
  cases steps_of_step p h with
  | started permission config created =>
    exact .quiet (s.server.start_spec p permission config created).2.1 rfl fun _ _ hl _ => .inl hl
  | served hserver => exact .quiet hserver.toKeepsMessages rfl fun _ _ hl _ => .inl hl
  | stopping hserver hstopping hsignals =>
    exact .quiet hserver.toKeepsMessages rfl fun _ _ hl _ => .inl hl
  | halted hbefore =>
    exact .quiet ⟨rfl, rfl, rfl⟩ rfl fun _ _ hl => absurd hl.symm (Option.some_ne_none _)
  | established habsent peer => exact hears_established p s _ peer
  | received hl hdoomed hkind data isFinal => exact .received hl hdoomed hkind rfl
  | @wrote wsi l hl => exact hears_serverWriteable p s l wsi _
  | closed wsi =>
    exact .quiet (s.server.lwsCallbackClosed_spec p wsi).2.1 rfl
      fun _ _ hl _ => .inl (Roster.member_of_update hl).2

namespace Invariant

variable (h : s.Invariant)
include h

/-- The connection that an established one is named with is its own. -/
theorem getConnectionFromWsi (hl : s.links wsi = some l) :
    s.server.serverContext.getConnectionFromWsi p wsi = l.connection := by
  have hmember : s.roster.members wsi = some l.connection := by simp [roster, hl]
  unfold ServerContext.getConnectionFromWsi
  cases hfind : s.server.serverContext.findWsi p wsi with
  | none =>
    have hlisted := h.tracks.lists.listed wsi l.connection hmember
    exact absurd hlisted (findWsi_eq_none hfind _ _)
  | some entry =>
    have hentry := findWsi_eq_some hfind
    exact (h.tracks.lists.named entry.1 wsi l.connection entry.2.2 hentry hmember).1

/-- What the callback for a fragment does to the message of an established connection. -/
theorem received (hl : s.links wsi = some l) (hdoomed : l.doomed = false)
    (hkind : l.fragments = [] ∨ l.isBinary = isBinary) (data : Bytes) (isFinal : Bool) :
    Server.Received p s.server wsi l.fragments.flatten data isBinary isFinal
        (s.server.lwsCallbackReceive p wsi data isBinary isFinal) ∧
      ∀ isBinary', ∀ wsi' ≠ wsi,
        (s.receive p l wsi data isBinary isFinal).server.serverContext.getWsServerData
            isBinary' wsi' = s.server.serverContext.getWsServerData isBinary' wsi' := by
  have hassembles := h.assembles wsi l hl hdoomed
  exact Server.received p (fun isBinary' => (hassembles.held isBinary').trans
    (Link.held_of_kind hkind isBinary')) hassembles.bounded data isFinal

/-- A fragment leaves the buffers of its connection with the fragments of the message. -/
theorem receive_assembles {data : Bytes} {isFinal : Bool} (hl : s.links wsi = some l)
    (hdoomed : l.doomed = false) (hkind : l.fragments = [] ∨ l.isBinary = isBinary)
    (hunmixed : s.Unmixed (.receive wsi data isBinary isFinal)) (wsi' : κ) (l' : Link)
    (hl' : (s.receive p l wsi data isBinary isFinal).links wsi' = some l')
    (hdoomed' : l'.doomed = false) :
    (s.receive p l wsi data isBinary isFinal).Assembles wsi' l' := by
  obtain ⟨hreceived, hothers⟩ := h.received p hl hdoomed hkind data isFinal
  by_cases hwsi : wsi' = wsi
  · subst hwsi
    obtain rfl : advance l (s.server.lwsCallbackReceive p wsi' data isBinary isFinal).1 data
        isBinary isFinal = l' :=
      Option.some.inj ((update_self wsi' _ _).symm.trans hl')
    cases hreceived with
    | tooLong hret hmessages =>
      rw [hret] at hdoomed'
      cases hdoomed'
    | exceeding hret hlength hexceeds hmessages hdata =>
      have hbuffer := (h.assembles wsi' l hl hdoomed).held isBinary
      rw [Link.held_of_kind hkind, if_pos rfl] at hbuffer
      obtain rfl : isFinal = true := by
        rcases hunmixed with hfinal | hlong | hfits
        · exact hfinal
        · exact absurd hlong (Nat.not_lt.mpr hlength)
        · rw [hbuffer] at hfits
          exact absurd hexceeds (Nat.not_lt.mpr hfits)
      rw [hret]
      refine ⟨fun isBinary' => (hdata isBinary').trans ?_, Nat.zero_le _⟩
      simp [held, advance]
    | continued hret hfinal hfits hmessages hdata =>
      subst hfinal
      rw [hret]
      refine ⟨fun isBinary' => (hdata isBinary').trans ?_, ?_⟩
      · simp [held, advance]
      · simpa [advance] using hfits
    | completed hret hfinal hfits hmessages hdata =>
      subst hfinal
      rw [hret]
      refine ⟨fun isBinary' => (hdata isBinary').trans ?_, Nat.zero_le _⟩
      simp [held, advance]
  · have hold : s.links wsi' = some l' := (update_of_ne hwsi _ _).symm.trans hl'
    have hother := h.assembles wsi' l' hold hdoomed'
    exact ⟨fun isBinary' => (hothers isBinary' wsi' hwsi).trans (hother.held isBinary'),
      hother.bounded⟩

/-- A fragment gives the application the message that ends with it, or nothing. -/
theorem receive_isolated (hl : s.links wsi = some l) (hdoomed : l.doomed = false)
    (hkind : l.fragments = [] ∨ l.isBinary = isBinary) (data : Bytes) (isFinal : Bool) :
    (s.receive p l wsi data isBinary isFinal).Isolated := by
  obtain ⟨told, hmessages, hfaithful⟩ : ∃ told,
      (s.server.lwsCallbackReceive p wsi data isBinary isFinal).2.messages =
        s.server.messages ++ told ∧
      Receipt.Faithful ⟨l.connection, l.fragments ++ [data], isFinal, told⟩ := by
    cases (h.received p hl hdoomed hkind data isFinal).1 with
    | tooLong hret hmessages =>
      exact ⟨[], hmessages.trans (append_nil _).symm, Or.inl rfl⟩
    | exceeding hret hlength hexceeds hmessages hdata =>
      exact ⟨[], hmessages.trans (append_nil _).symm, Or.inl rfl⟩
    | continued hret hfinal hfits hmessages hdata =>
      exact ⟨[], hmessages.trans (append_nil _).symm, Or.inl rfl⟩
    | completed hret hfinal hfits hmessages hdata =>
      refine ⟨_, hmessages, ?_⟩
      rw [h.getConnectionFromWsi p hl]
      cases s.server.registered.onMessageReceive with
      | false => exact Or.inl rfl
      | true =>
        refine Or.inr ⟨hfinal, ?_, ?_⟩
        · simpa using hfits
        · simp
  have hreceipts : (s.receive p l wsi data isBinary isFinal).receipts =
      s.receipts ++ [⟨l.connection, l.fragments ++ [data], isFinal, told⟩] := by
    simp [receive, hmessages]
  refine ⟨?_, ?_⟩
  · rw [hreceipts, flatMap_append, ← h.isolated.accounted, flatMap_singleton]
    exact hmessages
  · intro r hr
    rw [hreceipts] at hr
    rcases mem_append.mp hr with hold | hnew
    · exact h.isolated.faithful r hold
    grind

theorem step {t : System κ} {e : Event κ} (hunmixed : s.Unmixed e)
    (hstep : s.step p e = some t) : t.Invariant := by
  have hunlisted : s.Unlisted e := by
    cases e with
    | established wsi peer =>
      cases peer with
      | none => trivial
      | some connection => exact fun hactive => (hunmixed hactive).1
    | _ => trivial
  refine ⟨h.tracks.step p h.fresh hunlisted hstep, ?_, ?_, ?_⟩
  · intro hactive
    have hbefore := (turns_of_step p hstep).active hactive
    exact h.tracks.fresh_step p (h.fresh hbefore) hstep (Or.inl hactive) fun _ _ => Or.inl hbefore
  · intro wsi l hl hdoomed
    cases hears_of_step p hstep with
    | quiet hmessages hreceipts hlinks =>
      rcases hlinks wsi l hl hdoomed with hold | ⟨hactive, connection, rfl, rfl⟩
      · have hassembles := h.assembles wsi l hold hdoomed
        exact ⟨fun isBinary => (hmessages.getWsServerData isBinary wsi).trans
          (hassembles.held isBinary), hassembles.bounded⟩
      · refine ⟨fun isBinary => ?_, Nat.zero_le _⟩
        rw [hmessages.getWsServerData, (hunmixed hactive).2]
        simp [held]
    | received hl' hdoomed' hkind ht =>
      subst ht
      grind [@h.receive_assembles]
  · cases hears_of_step p hstep with
    | quiet hmessages hreceipts hlinks =>
      refine ⟨?_, ?_⟩
      · rw [hmessages.messages, hreceipts]
        exact h.isolated.accounted
      · rw [hreceipts]
        exact h.isolated.faithful
    | received hl hdoomed hkind ht =>
      subst ht
      exact h.receive_isolated p hl hdoomed hkind _ _

end Invariant

/-- In any run in which addresses are reused only after their last message is complete, and in which
no message becomes too long before its last fragment, the application is told complete messages of
the connections they came from, and no others. -/
theorem messages_isolated (registered : Registered) (events : List (Event κ))
    (hmeets : Meets (step p) Unmixed events { server := { registered } }) :
    Throughout (step p) Isolated events { server := { registered } } := by
  apply throughout_of_meets (J := Invariant)
  · exact fun s e t hs hunmixed hstep => hs.step p hunmixed hstep
  · exact fun s hs => hs.isolated
  · exact ⟨(tracks_initial registered).1, fun _ => (tracks_initial registered).2,
      fun _ _ hl => absurd hl.symm (Option.some_ne_none _), rfl, by simp⟩
  · exact hmeets

/-- Two clients send fragments in turn, and the second gets the address of the first. -/
def separateMessages : List (Event Nat) :=
  [sampleStart, .established 7 (some sampleAlice), .established 8 (some sampleBob),
    .receive 7 (ascii "good ") false false, .receive 8 (ascii "hello") true true,
    .receive 7 (ascii "day") false true, .closed 7, .closed 8, .established 7 (some sampleBob),
    .receive 7 (ascii "again") false true]

theorem separateMessages_isolated :
    Meets (step samplePlatform) Unmixed separateMessages { server := { registered := {} } } ∧
      Throughout (step samplePlatform) Isolated separateMessages
        { server := { registered := {} } } :=
  have hmeets : Meets (step samplePlatform) Unmixed separateMessages
      { server := { registered := {} } } := by
    decide +kernel
  ⟨hmeets, messages_isolated samplePlatform {} separateMessages hmeets⟩

/-- A client goes away in the middle of a message and another one gets its address. -/
def inheritedFragment : List (Event Nat) :=
  [sampleStart, .established 7 (some sampleAlice), .receive 7 (ascii "secret") false false,
    .closed 7, .established 7 (some sampleBob), .receive 7 (ascii "hi") false true]

/-- The message of the second client begins with the fragment of the first. -/
theorem inheritedFragment_mixed :
    ¬ Throughout (step samplePlatform) Isolated inheritedFragment
        { server := { registered := {} } } ∧
      ∃ s, inheritedFragment.foldlM (step samplePlatform)
          ({ server := { registered := {} } } : System Nat) = some s ∧
        s.server.messages = [(ascii "secrethi", sampleBob)] ∧
        s.receipts = [⟨sampleAlice, [ascii "secret"], false, []⟩,
          ⟨sampleBob, [ascii "hi"], true, [(ascii "secrethi", sampleBob)]⟩] := by
  refine (and_iff_right_of_imp ?_).mpr (by decide +kernel)
  rintro ⟨s, hs, -, hreceipts⟩ hisolated
  have hfaithful : Receipt.Faithful
      ⟨sampleBob, [ascii "hi"], true, [(ascii "secrethi", sampleBob)]⟩ := by
    apply (hisolated.finish hs).faithful
    rw [hreceipts]
    simp
  exact absurd hfaithful (by decide +kernel)

end System

end Netstack.WebSocketServer
