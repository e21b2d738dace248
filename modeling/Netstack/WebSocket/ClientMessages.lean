import Netstack.WebSocket.ClientSends

/-!
# Messages received by the client

The service thread appends fragments to the buffer for their kind, queues the message and hands a
work to the JS thread, which takes the first message of the queue. A fragment that comes without a
listener is not appended, and the buffers are not cleared when the connection is lost.

## Implementation notes

The JS thread changes listeners and runs the works in any order. The callback for the last fragment
is cut between the queue and the work. Sending and closing are left out.
-/

namespace Netstack.WebSocket.ClientMessages

open Foundation Foundation.Execution Option List
open WebSocket.ClientExec (Manager EventName Work WebSocketRecvMessage Callback int32Max)

/-- The message that the connection is receiving. -/
structure Incoming where
  isBinary : Bool := false
  fragments : List Bytes := []
  /-- A fragment came when there was no listener, or was too long. -/
  dropped : Bool := false
  deriving DecidableEq, Repr

/-- A fragment with those before it in its message, and what it put into the queue. -/
structure Receipt where
  isBinary : Bool
  fragments : List Bytes
  isFinal : Bool
  dropped : Bool
  queued : List WebSocketRecvMessage
  deriving DecidableEq, Repr

structure System (κ : Type) where
  manager : Manager κ := { attached := false }
  connected : Bool := false
  incoming : Incoming := {}
  /-- The kind of a message that is in the queue and has no work yet. -/
  emitting : Option Bool := none
  receipts : List Receipt := []
  /-- The messages that works have taken from the queue. -/
  taken : List WebSocketRecvMessage := []
  /-- The events for messages, with the listener that was called. -/
  delivered : List (Nat × Option WebSocketRecvMessage) := []

inductive Event (κ : Type) where
  | on (type : EventName) (callback : Nat)
  | off (type : EventName) (callback : Option Nat)
  | run (i : Nat)
  | connect
  | established (wsi : κ) (response : UInt32) (ret : Int)
  | receive (data : Bytes) (isBinary isFinal : Bool) (response : UInt32) (ret : Int)
  | resume (response : UInt32) (ret : Int)
  | lose
  | callback (cb : Callback κ) (response : UInt32) (ret : Int)
  | endService

namespace System

variable {κ : Type} [DecidableEq κ]

variable (s : System κ)

def setManager (manager : Manager κ) : System κ := { s with manager }

section Service

variable (data : Bytes)

/-- The fragment is appended. -/
def hears : Bool :=
  s.manager.hasEventListener .eventMessage && data.length ≤ int32Max

variable (isBinary isFinal : Bool)

variable (response : UInt32)

/-- `OnMessage` up to the queue, and the end of the callback if that is all. -/
def received (ret : Int) : Manager κ :=
  if s.hears data then
    let appended := s.manager.appendFragment data isBinary isFinal
    if isFinal then appended else (appended.httpDummy response ret).2
  else (s.manager.httpDummy response ret).2

def receipt (queued : List WebSocketRecvMessage) : Receipt where
  isBinary
  fragments := s.incoming.fragments ++ [data]
  isFinal
  dropped := s.incoming.dropped || !s.hears data
  queued

/-- The message after a fragment. -/
def advance : Incoming :=
  if isFinal then {}
  else
    { isBinary
      fragments := s.incoming.fragments ++ [data]
      dropped := s.incoming.dropped || !s.hears data }

def receive (ret : Int) : System κ :=
  let manager := s.received data isBinary isFinal response ret
  let queued := manager.dataQueue.drop s.manager.dataQueue.length
  { s with
    manager
    incoming := s.advance data isBinary isFinal
    emitting := if s.hears data && isFinal then some isBinary else none
    receipts := s.receipts ++ [s.receipt data isBinary isFinal queued] }

/-- The rest of the callback for the last fragment of a message. -/
def resume (ret : Int) : Option (System κ) :=
  match s.emitting with
  | none => none
  | some isBinary =>
    some { s with
      manager := ((s.manager.emitMessage isBinary).httpDummy response ret).2
      emitting := none }

def established (wsi : κ) (response : UInt32) (ret : Int) : System κ :=
  let answer := s.manager.lwsCallbackClientEstablished wsi response ret
  { s with manager := answer.2, connected := answer.1 = 0 }

/-- A callback that touches no message. -/
def callback (m : Manager κ) (cb : Callback κ) (response : UInt32) (ret : Int) :
    Option (Manager κ) :=
  match cb with
  | .filterPreEstablish statusLine protocol responseHeader =>
    some (m.lwsCallbackClientFilterPreEstablish response statusLine protocol responseHeader
      ret).2
  | .established _ => none
  | .receive .. => none
  | .writable _ => some (m.lwsCallbackClientWritable response ret).2
  | .wsPeerInitiatedClose payload =>
    some (m.lwsCallbackWsPeerInitiatedClose response payload ret).2
  | .connectionError => some (m.lwsCallbackClientConnectionError response ret).2
  | .closed => some (m.lwsCallbackClientClosed response ret).2
  | .wsiDestroy => some (m.lwsCallbackWsiDestroy response ret).2
  | .protocolDestroy => some (m.lwsCallbackProtocolDestroy response ret).2

/-- `ExecConnect` makes a new session. -/
def attach (m : Manager κ) : Manager κ :=
  { m with
    userData := {}
    attached := true
    openStatus := 0
    openMessage := []
    httpVersion := ascii "HTTP/1.1"
    negotiatedProtocol := [] }

/-- Nothing more of the message comes. -/
def lose : System κ := { s with connected := false, incoming := {} }

end Service

section JsThread

/-- A work for a message takes the first one from the queue and gives it to the listener. -/
def takeMessage : System κ :=
  let (msg, manager) := s.manager.getQueueData
  { s with
    manager
    taken := s.taken ++ msg.toList
    delivered :=
      match manager.listeners .eventMessage with
      | none => s.delivered
      | some listener => s.delivered ++ [(listener, msg)] }

def run (i : Nat) : Option (System κ) :=
  match s.manager.works[i]? with
  | none => none
  | some work =>
    let rest := s.setManager { s.manager with works := s.manager.works.eraseIdx i }
    some (if work.eventName = .eventMessage then rest.takeMessage else rest)

end JsThread

def step : Event κ → Option (System κ)
  | .on type listener => some (s.setManager (s.manager.addListener type listener))
  | .off type listener => some (s.setManager (s.manager.deleteListener type listener))
  | .run i => s.run i
  | .connect =>
    if s.manager.attached = false then some (s.setManager (attach s.manager)) else none
  | .established wsi response ret =>
    if s.connected = false ∧ s.emitting = none then some (s.established wsi response ret)
    else none
  | .receive data isBinary isFinal response ret =>
    if (s.connected ∧ s.emitting = none) ∧
        (s.incoming.fragments = [] ∨ s.incoming.isBinary = isBinary) then
      some (s.receive data isBinary isFinal response ret)
    else none
  | .resume response ret => s.resume response ret
  | .lose => if s.connected ∧ s.emitting = none then some s.lose else none
  | .callback cb response ret => (callback s.manager cb response ret).map s.setManager
  | .endService =>
    if s.emitting = none then
      some (s.lose.setManager { s.manager with attached := false })
    else none

section Frames

theorem keepsMessages_callback {m m' : Manager κ} {cb : Callback κ} {response : UInt32}
    {ret : Int} (h : callback m cb response ret = some m') : m.KeepsMessages m' := by
  cases cb with
  | established wsi => cases h
  | receive data isBinary isFinal => cases h
  | filterPreEstablish statusLine protocol responseHeader =>
    cases h
    exact (m.keeps_lwsCallbackClientFilterPreEstablish response statusLine protocol
      responseHeader ret).toKeepsMessages
  | writable wsi =>
    cases h
    exact m.keepsMessages_lwsCallbackClientWritable response ret
  | wsPeerInitiatedClose payload =>
    cases h
    exact m.keepsMessages_lwsCallbackWsPeerInitiatedClose response payload ret
  | connectionError =>
    cases h
    exact m.keepsMessages_lwsCallbackClientConnectionError response ret
  | closed =>
    cases h
    exact m.keepsMessages_lwsCallbackClientClosed response ret
  | wsiDestroy =>
    cases h
    exact m.keepsMessages_lwsCallbackWsiDestroy response ret
  | protocolDestroy =>
    cases h
    exact (m.keeps_httpDummy response ret).toKeepsMessages

end Frames

end System

section Property

/-- The last fragment of a message puts the message into the queue if all of its fragments were
appended. Nothing else is put there. -/
def Receipt.Whole (r : Receipt) : Prop :=
  r.queued =
    if r.isFinal = true ∧ r.dropped = false then [⟨r.fragments.flatten, r.isBinary⟩] else []

instance (r : Receipt) : Decidable r.Whole := by
  unfold Receipt.Whole
  infer_instance

/-- What the buffer for a kind has if it has all of the message and nothing else. -/
def Incoming.held (i : Incoming) (isBinary : Bool) : Bytes :=
  if i.dropped = false ∧ isBinary = i.isBinary then i.fragments.flatten else []

theorem Incoming.held_empty (b : Bool) : ({} : Incoming).held b = [] := by
  cases b <;> rfl

theorem Incoming.held_of_kind {i : Incoming} {isBinary : Bool}
    (hkind : i.fragments = [] ∨ i.isBinary = isBinary) (b : Bool) :
    i.held b = if i.dropped = false ∧ b = isBinary then i.fragments.flatten else [] := by
  grind [held]

end Property

namespace System

variable {κ : Type}

/-- Every message in the queue is whole, works take them in the order in which they arrived, and
every event is for a message that a work has taken. -/
structure Delivers (s : System κ) : Prop where
  whole : ∀ r ∈ s.receipts, r.Whole
  inOrder : s.taken ++ s.manager.dataQueue = s.receipts.flatMap Receipt.queued
  delivered : (s.delivered.map Prod.snd).Sublist (s.taken.map some)

/-- A fragment that is appended is of a message with no fragment that was not, a fragment that is
not appended finds an empty buffer, and so does the loss of a connection. -/
def Unbroken (s : System κ) : Event κ → Prop
  | .receive data isBinary _ _ _ =>
    if s.hears data then s.incoming.dropped = false else s.manager.webSocketData isBinary = []
  | .lose | .endService => ∀ isBinary, s.manager.webSocketData isBinary = []
  | _ => True

instance (s : System κ) (e : Event κ) : Decidable (s.Unbroken e) := by
  unfold Unbroken
  split <;> infer_instance

/-- The messages in the queue that have no work yet. -/
def unannounced (s : System κ) : Nat := if s.emitting.isSome then 1 else 0

structure Invariant (s : System κ) : Prop where
  held : s.emitting = none → ∀ b, s.manager.webSocketData b = s.incoming.held b
  cleared : ∀ k, s.emitting = some k → s.manager.webSocketData (!k) = [] ∧ s.incoming = {}
  backed : s.manager.messageWorks + s.unannounced ≤ s.manager.dataQueue.length
  delivers : s.Delivers

section Steps

variable {s t : System κ} {m : Manager κ} (connected : Bool)

section

variable (h : s.Invariant)
include h

theorem Invariant.keeps
    (hdata : ∀ b, m.webSocketData b = s.manager.webSocketData b)
    (hqueue : m.dataQueue = s.manager.dataQueue)
    (hworks : m.messageWorks ≤ s.manager.messageWorks) :
    Invariant { s with manager := m, connected } where
  held hemitting b := (hdata b).trans (h.held hemitting b)
  cleared k hemitting := by
    obtain ⟨hother, hincoming⟩ := h.cleared k hemitting
    exact ⟨(hdata _).trans hother, hincoming⟩
  backed := by
    have hbacked := h.backed
    rw [← hqueue] at hbacked
    exact (Nat.add_le_add_right hworks _).trans hbacked
  delivers := by
    obtain ⟨hwhole, hinOrder, hdelivered⟩ := h.delivers
    rw [← hqueue] at hinOrder
    exact ⟨hwhole, hinOrder, hdelivered⟩

theorem Invariant.of_keepsMessages
    (hm : s.manager.KeepsMessages m) : Invariant { s with manager := m, connected } :=
  h.keeps connected hm.webSocketData hm.dataQueue hm.messageWorks.le

theorem Invariant.lose (hemitting : s.emitting = none)
    (hempty : ∀ b, s.manager.webSocketData b = []) : s.lose.Invariant where
  held _ b := (hempty b).trans (Incoming.held_empty b).symm
  cleared _ hk := absurd (hemitting.symm.trans hk) nofun
  backed := h.backed
  delivers := ⟨h.delivers.whole, h.delivers.inOrder, h.delivers.delivered⟩

/-- The work that is about to take a message has one in the queue. -/
theorem Invariant.takeMessage
    (hbacked : s.manager.messageWorks + s.unannounced < s.manager.dataQueue.length) :
    s.takeMessage.Invariant := by
  obtain ⟨msg, rest, hqueue⟩ : ∃ msg rest, s.manager.dataQueue = msg :: rest :=
    exists_cons_of_length_pos (Nat.zero_lt_of_lt hbacked)
  have htaken : s.takeMessage.taken = s.taken ++ [msg] := by
    simp [System.takeMessage, Manager.getQueueData, hqueue]
  have hrest : s.takeMessage.manager.dataQueue = rest := by
    simp [System.takeMessage, Manager.getQueueData, hqueue]
  constructor
  · exact h.held
  · exact h.cleared
  · rw [hrest]
    rw [hqueue] at hbacked
    exact Nat.le_of_lt_succ hbacked
  · constructor
    · exact h.delivers.whole
    · rw [htaken, hrest, append_assoc, singleton_append, ← hqueue]
      exact h.delivers.inOrder
    · rw [htaken, map_append]
      have hdelivered := h.delivers.delivered
      unfold System.takeMessage
      dsimp only [Manager.getQueueData]
      split
      · exact hdelivered.trans (sublist_append_left _ _)
      grind

theorem Invariant.run {i : Nat} (hrun : s.run i = some t) : t.Invariant := by
  unfold System.run at hrun
  cases hwork : s.manager.works[i]? with
  | none =>
    rw [hwork] at hrun
    cases hrun
  | some work =>
    rw [hwork] at hrun
    cases hrun
    obtain ⟨hi, hget⟩ := List.getElem?_eq_some_iff.mp hwork
    have hcount := (getElem_cons_eraseIdx_perm hi).countP_eq
      fun work => decide (work.eventName = .eventMessage)
    rw [hget, countP_cons] at hcount
    have hrest : Invariant
        (s.setManager { s.manager with works := s.manager.works.eraseIdx i }) :=
      h.keeps s.connected (fun _ => rfl) rfl ((Nat.le_add_right _ _).trans hcount.le)
    by_cases hevent : work.eventName = .eventMessage
    · rw [if_pos hevent]
      rw [if_pos (decide_eq_true hevent)] at hcount
      apply hrest.takeMessage
      calc (s.manager.works.eraseIdx i).countP _ + s.unannounced + 1
          = s.manager.messageWorks + s.unannounced := by
            rw [Nat.add_right_comm, hcount, Manager.messageWorks]
        _ ≤ s.manager.dataQueue.length := h.backed
    · rw [if_neg hevent]
      exact hrest

theorem Invariant.resume {response : UInt32} {ret : Int}
    (hresume : s.resume response ret = some t) : t.Invariant := by
  unfold System.resume at hresume
  cases hemitting : s.emitting with
  | none =>
    rw [hemitting] at hresume
    cases hresume
  | some k =>
    rw [hemitting] at hresume
    cases hresume
    obtain ⟨hother, hincoming⟩ := h.cleared k hemitting
    have hkeeps := ((s.manager.emitMessage k).keeps_httpDummy response ret).toKeepsMessages
    have hqueue := hkeeps.dataQueue.trans (s.manager.dataQueue_emitMessage k)
    constructor
    · intro _ b
      rw [hincoming, Incoming.held_empty, hkeeps.webSocketData,
        Manager.webSocketData_emitMessage]
      by_cases hb : b = k
      · exact if_pos hb
      · rw [if_neg hb, Bool.eq_not.mpr hb, hother]
    · exact nofun
    · have hbacked := h.backed
      rw [unannounced, hemitting] at hbacked
      rw [hqueue]
      exact (hkeeps.messageWorks.le.trans (s.manager.messageWorks_emitMessage_le k)).trans
        hbacked
    · obtain ⟨hwhole, hinOrder, hdelivered⟩ := h.delivers
      rw [← hqueue] at hinOrder
      exact ⟨hwhole, hinOrder, hdelivered⟩

end

section Receive

variable {data : Bytes} {isBinary : Bool} (isFinal : Bool) (response : UInt32) (ret : Int)

theorem keepsMessages_received (hears : s.hears data = true) (isBinary : Bool) :
    (s.manager.appendFragment data isBinary isFinal).KeepsMessages
      (s.received data isBinary isFinal response ret) := by
  unfold received
  rw [if_pos hears]
  cases isFinal with
  | true => exact .refl _
  | false => exact (Manager.keeps_httpDummy _ response ret).toKeepsMessages

theorem Delivers.receive (h : s.Delivers) {queued : List WebSocketRecvMessage}
    (hqueue : (s.received data isBinary isFinal response ret).dataQueue =
      s.manager.dataQueue ++ queued) (hwhole : (s.receipt data isBinary isFinal queued).Whole) :
    (s.receive data isBinary isFinal response ret).Delivers := by
  have hreceipts : (s.receive data isBinary isFinal response ret).receipts =
      s.receipts ++ [s.receipt data isBinary isFinal queued] := by
    unfold System.receive
    dsimp only
    rw [hqueue, drop_left]
  constructor
  · rw [hreceipts]
    exact forall_mem_append.mpr ⟨h.whole, forall_mem_singleton.mpr hwhole⟩
  · rw [hreceipts, flatMap_append, flatMap_singleton, ← h.inOrder, append_assoc]
    exact congrArg (s.taken ++ ·) hqueue
  · exact h.delivered

/-- A fragment that is appended to those of its message. -/
theorem Invariant.receive_of_hears (h : s.Invariant) (hemitting : s.emitting = none)
    (hkind : s.incoming.fragments = [] ∨ s.incoming.isBinary = isBinary)
    (hears : s.hears data = true) (hdropped : s.incoming.dropped = false) :
    (s.receive data isBinary isFinal response ret).Invariant := by
  have hkeeps := keepsMessages_received isFinal response ret hears isBinary
  have hbuffer (b : Bool) : s.manager.webSocketData b =
      if b = isBinary then s.incoming.fragments.flatten else [] := by
    rw [h.held hemitting b, Incoming.held_of_kind hkind]
    simp only [hdropped, true_and]
  have hdata (b : Bool) : (s.received data isBinary isFinal response ret).webSocketData b =
      if b = isBinary then (s.incoming.fragments ++ [data]).flatten else [] := by
    rw [hkeeps.webSocketData, Manager.webSocketData_appendFragment, hbuffer isBinary, if_pos rfl,
      hbuffer b, flatten_append, flatten_singleton]
    split <;> rfl
  have hqueue : (s.received data isBinary isFinal response ret).dataQueue =
      s.manager.dataQueue ++
        if isFinal then [⟨(s.incoming.fragments ++ [data]).flatten, isBinary⟩] else [] := by
    rw [hkeeps.dataQueue, Manager.dataQueue_appendFragment, hbuffer isBinary, if_pos rfl,
      flatten_append, flatten_singleton]
  have hdelivers : (s.receive data isBinary isFinal response ret).Delivers := by
    apply h.delivers.receive isFinal response ret hqueue
    simp [Receipt.Whole, receipt, hdropped, hears]
  have hworks : (s.received data isBinary isFinal response ret).messageWorks =
      s.manager.messageWorks :=
    hkeeps.messageWorks.trans (s.manager.messageWorks_appendFragment data isBinary isFinal)
  have hbacked := h.backed
  rw [unannounced, hemitting] at hbacked
  cases isFinal with
  | true =>
    have hemit : (s.receive data isBinary true response ret).emitting = some isBinary := by
      simp [System.receive, hears]
    constructor
    · intro hnone
      cases hemit.symm.trans hnone
    · intro k hk
      obtain rfl := Option.some.inj (hemit.symm.trans hk)
      exact ⟨(hdata _).trans (if_neg (Bool.not_ne_self _)), rfl⟩
    · rw [unannounced, hemit]
      calc (s.received data isBinary true response ret).messageWorks + 1
          ≤ s.manager.dataQueue.length + 1 := Nat.succ_le_succ (hworks.le.trans hbacked)
        _ = (s.received data isBinary true response ret).dataQueue.length := by
            grind
    · exact hdelivers
  | false =>
    have hemit : (s.receive data isBinary false response ret).emitting = none := by
      simp [System.receive]
    constructor
    · grind [System.receive, advance, Incoming.held]
    · exact fun k hk => absurd (hemit.symm.trans hk) nofun
    · rw [unannounced, hemit]
      calc (s.received data isBinary false response ret).messageWorks
          ≤ s.manager.dataQueue.length := hworks.le.trans hbacked
        _ = (s.received data isBinary false response ret).dataQueue.length := by
            grind
    · exact hdelivers

/-- A fragment that is not appended leaves empty buffers behind if it finds its own empty. -/
theorem Invariant.receive_of_not_hears (h : s.Invariant) (hemitting : s.emitting = none)
    (hkind : s.incoming.fragments = [] ∨ s.incoming.isBinary = isBinary)
    (hears : s.hears data = false) (hempty : s.manager.webSocketData isBinary = []) :
    (s.receive data isBinary isFinal response ret).Invariant := by
  have hkeeps : s.manager.KeepsMessages (s.received data isBinary isFinal response ret) := by
    unfold received
    rw [if_neg (Bool.eq_false_iff.mp hears)]
    exact (s.manager.keeps_httpDummy response ret).toKeepsMessages
  have hbuffer (b : Bool) : s.manager.webSocketData b = [] := by
    by_cases hb : b = isBinary
    · rw [hb, hempty]
    · rw [h.held hemitting b, Incoming.held_of_kind hkind, if_neg fun hboth => hb hboth.2]
  have hemit : (s.receive data isBinary isFinal response ret).emitting = none := by
    simp [System.receive, hears]
  constructor
  · intro _ b
    apply (hkeeps.webSocketData b).trans
    grind [System.receive, advance, Incoming.held]
  · exact fun k hk => absurd (hemit.symm.trans hk) nofun
  · have hbacked := h.backed
    rw [unannounced, hemitting, ← hkeeps.dataQueue, ← hkeeps.messageWorks] at hbacked
    rw [unannounced, hemit]
    exact hbacked
  · apply h.delivers.receive _ _ _ (hkeeps.dataQueue.trans (append_nil _).symm)
    simp [Receipt.Whole, receipt, hears]

end Receive

variable [DecidableEq κ]

theorem Invariant.step (h : s.Invariant) {e : Event κ} (hunbroken : s.Unbroken e)
    (hstep : s.step e = some t) : t.Invariant := by
  cases e with
  | on type listener =>
    cases hstep
    exact h.keeps s.connected (fun _ => rfl) rfl le_rfl
  | off type listener =>
    cases hstep
    unfold Manager.deleteListener
    split
    · exact h.keeps s.connected (fun _ => rfl) rfl le_rfl
    · exact h
  | run i => exact h.run hstep
  | connect =>
    obtain ⟨-, hstep⟩ := ite_none_right_eq_some.mp hstep
    cases hstep
    exact h.keeps s.connected (fun _ => rfl) rfl le_rfl
  | established wsi response ret =>
    obtain ⟨-, hstep⟩ := ite_none_right_eq_some.mp hstep
    cases hstep
    exact h.of_keepsMessages _
      (s.manager.keepsMessages_lwsCallbackClientEstablished wsi response ret)
  | receive data isBinary isFinal response ret =>
    obtain ⟨⟨⟨-, hemitting⟩, hkind⟩, hstep⟩ := ite_none_right_eq_some.mp hstep
    grind [Unbroken, @h.receive_of_hears, @h.receive_of_not_hears]
  | resume response ret => exact h.resume hstep
  | lose =>
    obtain ⟨⟨-, hemitting⟩, hstep⟩ := ite_none_right_eq_some.mp hstep
    cases hstep
    exact h.lose hemitting hunbroken
  | callback cb response ret =>
    obtain ⟨m, hcallback, rfl⟩ := map_eq_some_iff.mp hstep
    exact h.of_keepsMessages s.connected (keepsMessages_callback hcallback)
  | endService =>
    obtain ⟨hemitting, hstep⟩ := ite_none_right_eq_some.mp hstep
    cases hstep
    exact (h.lose hemitting hunbroken).keeps false (fun _ => rfl) rfl le_rfl

end Steps

theorem Invariant.start : Invariant ({} : System κ) where
  held _ b := by cases b <;> rfl
  cleared := nofun
  backed := le_rfl
  delivers := ⟨nofun, rfl, List.Sublist.refl _⟩

variable [DecidableEq κ]

/-- If no fragment of a message is left behind in a buffer, every event is for one whole message,
and the events are in the order in which the messages arrived. -/
theorem messageEvents_whole (run : List (Event κ)) (hmeets : Meets step Unbroken run {}) :
    Throughout step Delivers run ({} : System κ) := by
  apply throughout_of_meets (J := Invariant)
  · exact fun s e t hs hunbroken hstep => hs.step hunbroken hstep
  · exact fun s hs => hs.delivers
  · exact Invariant.start
  · exact hmeets

def sampleConnect (wsi : Nat) : List (Event Nat) := [.connect, .established wsi 101 0]

def sampleLoss : List (Event Nat) := [.lose, .callback .closed 0 0, .endService]

/-- The last fragment of a message, which is then delivered. -/
def sampleMessage (data : Bytes) (isBinary : Bool) : List (Event Nat) :=
  [.receive data isBinary true 101 0, .resume 101 0, .run 0]

/-- A message in two fragments, a binary one, a message without a listener, and a message on a
second connection with another listener. -/
def unbrokenMessages : List (Event Nat) :=
  [.on .eventMessage 1] ++ sampleConnect 7 ++ [.receive (ascii "good ") false false 101 0] ++
    sampleMessage (ascii "day") false ++ sampleMessage [0, 255] true ++
    [.off .eventMessage none, .receive (ascii "unheard") false true 101 0,
      .on .eventMessage 2] ++
    sampleLoss ++ sampleConnect 8 ++ sampleMessage (ascii "again") false

theorem unbrokenMessages_delivered :
    Meets step Unbroken unbrokenMessages {} ∧ Throughout step Delivers unbrokenMessages {} ∧
      (unbrokenMessages.foldlM step ({} : System Nat)).map delivered =
        some [(1, some ⟨ascii "good day", false⟩), (1, some ⟨[0, 255], true⟩),
          (2, some ⟨ascii "again", false⟩)] :=
  have hmeets : Meets step Unbroken unbrokenMessages {} := by decide +kernel
  ⟨hmeets, messageEvents_whole unbrokenMessages hmeets, by decide +kernel⟩

/-- The listener is added in the middle of a message, and the connection is lost in the middle of
the next one. -/
def brokenMessages : List (Event Nat) :=
  sampleConnect 7 ++ [.receive (ascii "good ") false false 101 0, .on .eventMessage 1] ++
    sampleMessage (ascii "day") false ++ [.receive (ascii "secret") false false 101 0] ++
    sampleLoss ++ sampleConnect 8 ++ sampleMessage (ascii "hi") false

/-- The first event has the end of a message only, and the second begins with the fragment of the
connection that was lost. -/
theorem brokenMessages_mixed :
    ¬ Throughout step Delivers brokenMessages {} ∧
      ∃ s, brokenMessages.foldlM step ({} : System Nat) = some s ∧
        s.delivered =
          [(1, some ⟨ascii "day", false⟩), (1, some ⟨ascii "secrethi", false⟩)] ∧
        (s.receipts.map fun r => (r.fragments, r.isFinal)) =
          [([ascii "good "], false), ([ascii "good ", ascii "day"], true),
            ([ascii "secret"], false), ([ascii "hi"], true)] := by
  refine ⟨fun hthrough => ?_, by decide +kernel⟩
  have hend : ∃ s, brokenMessages.foldlM step ({} : System Nat) = some s ∧
      ∃ r ∈ s.receipts, ¬ r.Whole := by
    decide +kernel
  obtain ⟨s, hs, r, hr, hpart⟩ := hend
  exact hpart ((hthrough.finish hs).whole r hr)

end System

end Netstack.WebSocket.ClientMessages
