import Netstack.WebSocketNative.ClientSteps

/-!
# Messages received by the native WebSocket client

The client has one buffer for the message that it is receiving. It holds the fragments of that
message and nothing else as long as a connection is established only when the buffer is empty and
no other connection is, no message becomes too long before its last fragment, and the last fragment
of a message is not a null pointer.
-/

namespace Netstack.WebSocketClient

open Foundation Foundation.Execution List
open WebSocketServer (websocketPerMessageMaxSize)

/-- The report of a fragment that was not appended. -/
def exceededCall : Call := .onError websocketDataLengthExceeds websocketDataLengthExceededStr

variable {isFinal : Bool} {data : Option Bytes} {calls : List Call}

namespace Client

variable {κ : Type}

/-- What the callback for a fragment does, with the calls it makes. -/
inductive Received (c : Client κ) (isFinal : Bool) : Option Bytes → List Call → Client κ → Prop
  | null {c' : Client κ} {calls : List Call} (hmessages : messagesOf calls = [])
      (hdata : c'.data = c.data) : Received c isFinal none calls c'
  | exceeding {c' : Client κ} {calls : List Call} {data : Bytes}
      (hexceeds : websocketPerMessageMaxSize < c.data.length + data.length)
      (hmessages : messagesOf calls = [])
      (hreported : c.registered.onError = true → exceededCall ∈ calls) (hdata : c'.data = []) :
      Received c isFinal (some data) calls c'
  | continued {c' : Client κ} {data : Bytes} (hfinal : isFinal = false)
      (hfits : c.data.length + data.length ≤ websocketPerMessageMaxSize)
      (hdata : c'.data = c.data ++ data) : Received c isFinal (some data) [] c'
  | completed {c' : Client κ} {calls : List Call} {data : Bytes} (hfinal : isFinal = true)
      (hfits : c.data.length + data.length ≤ websocketPerMessageMaxSize)
      (hmessages : messagesOf calls = if c.registered.onMessage then [c.data ++ data] else [])
      (hdata : c'.data = []) : Received c isFinal (some data) calls c'

variable (c : Client κ)

variable (registered : Bool) (event : Call)

theorem calls_call :
    (c.call registered event).calls = c.calls ++ if registered then [event] else [] := by
  unfold call
  split
  · rfl
  · exact (append_nil _).symm

theorem data_call : (c.call registered event).data = c.data := by
  unfold call
  split <;> rfl

theorem messagesOf_reported : messagesOf (if registered then [exceededCall] else []) = [] := by
  cases registered <;> rfl

theorem calls_deliver :
    c.deliver.calls = c.calls ++ ((if c.registered.onMessage then [.onMessage c.data] else []) ++
      if c.registered.onDataEnd then [.onDataEnd] else []) := by
  unfold deliver
  rw [calls_call, calls_call, append_assoc]

theorem received {c : Client κ} (hbound : c.data.length ≤ websocketPerMessageMaxSize)
    (data : Option Bytes) (isFinal : Bool) :
    ∃ calls, (c.lwsCallbackClientReceive data isFinal).2.calls = c.calls ++ calls ∧
      Received c isFinal data calls (c.lwsCallbackClientReceive data isFinal).2 := by
  unfold lwsCallbackClientReceive appendData
  cases data with
  | none =>
    have hcode : websocketSendDataNull ≠ websocketNoneErr := by decide
    simp only [if_pos hcode]
    exact ⟨_, c.calls_call _ _, .null (messagesOf_reported _) (c.data_call _ _)⟩
  | some data =>
    dsimp only
    split
    · have hcode : websocketDataLengthExceeds ≠ websocketNoneErr := by decide
      simp only [if_pos hcode]
      refine ⟨_, calls_call { c with data := [] } _ _,
        .exceeding (by omega) (messagesOf_reported _) ?_ (data_call _ _ _)⟩
      intro hreports
      rw [if_pos hreports]
      exact mem_singleton_self _
    · rename_i hfits
      simp only [ne_eq, not_true_eq_false, if_false]
      cases isFinal with
      | false => exact ⟨[], (append_nil _).symm, .continued rfl (by omega) rfl⟩
      | true =>
        refine ⟨_, calls_deliver { c with data := c.data ++ data },
          .completed rfl (by omega) ?_ rfl⟩
        cases c.registered.onMessage <;> cases c.registered.onDataEnd <;> rfl

theorem Received.bounded {c c' : Client κ} (h : Received c isFinal data calls c')
    (hbound : c.data.length ≤ websocketPerMessageMaxSize) :
    c'.data.length ≤ websocketPerMessageMaxSize := by
  cases h with
  | null hmessages hdata =>
    rw [hdata]
    exact hbound
  | exceeding hexceeds hmessages hreported hdata =>
    rw [hdata]
    exact Nat.zero_le _
  | continued hfinal hfits hdata =>
    rw [hdata, length_append]
    exact hfits
  | completed hfinal hfits hmessages hdata =>
    rw [hdata]
    exact Nat.zero_le _

end Client

/-- What the application was told with a fragment is the message that ends there, or nothing; and a
message that is too long was reported and not given to it. -/
def Receipt.Faithful (r : Receipt) : Prop :=
  (messagesOf r.calls = [] ∨
    r.isFinal = true ∧ r.fragments.flatten.length ≤ websocketPerMessageMaxSize ∧
      messagesOf r.calls = [r.fragments.flatten]) ∧
    (websocketPerMessageMaxSize < r.fragments.flatten.length →
      messagesOf r.told = [] ∧
        (r.isFinal = true → r.reports = true → exceededCall ∈ r.told))

instance (r : Receipt) : Decidable r.Faithful := by
  unfold Receipt.Faithful
  infer_instance

namespace System

variable {κ : Type}

/-- Every message given to the application was given with one fragment, and is the message of which
that fragment was the last. -/
structure Assembled (s : System κ) : Prop where
  accounted : s.client.messages = s.receipts.flatMap fun r => messagesOf r.calls
  faithful : ∀ r ∈ s.receipts, r.Faithful

/-- A connection is established when nothing is left of a message and no other connection is
established, only the last fragment of a message makes it too long, and a null pointer for the last
fragment finds an empty buffer. -/
def Unmixed (s : System κ) : Event κ → Prop
  | .established _ => s.client.data = [] ∧ ∀ l ∈ s.links, l.phase ≠ .established
  | .receive _ none isFinal => isFinal = true → s.client.data = []
  | .receive _ (some data) isFinal =>
    isFinal = true ∨ s.client.data.length + data.length ≤ websocketPerMessageMaxSize
  | _ => True

instance (s : System κ) (e : Event κ) : Decidable (s.Unmixed e) := by
  unfold Unmixed
  split <;> infer_instance

/-- The buffer holds the fragments of the one connection that is established. -/
structure Invariant (s : System κ) : Prop where
  held : ∃ x, ∀ l ∈ s.links, l.phase = .established →
    x = some l ∧ s.client.data = l.fragments.flatten ∧ messagesOf l.told = []
  bounded : s.client.data.length ≤ websocketPerMessageMaxSize
  assembled : s.Assembled

variable {s t : System κ}

variable {l : Link κ}

theorem phase_of_mem_newLinks {env : Environment κ} (h : l ∈ newLinks env) :
    l.phase = .connecting := by
  grind [newLinks]

theorem Answers.keepsMessages {a : Attempt κ} {answer : Int × Client κ}
    (h : s.Answers a answer) : s.client.KeepsMessages answer.2 := by
  cases h with
  | @connect env url options hwaiting =>
    have hconnect := s.client.keepsSession_connectFinish env url
    exact ⟨hconnect.data, hconnect.messages⟩
  | connectEx env url options =>
    exact (s.client.prepare_spec env options).1.trans
      (s.client.keepsSession_connectEx env url options).toKeepsMessages

namespace Invariant

variable (h : s.Invariant)
include h

/-- Nothing is received. -/
theorem of_keeps (hmessages : s.client.KeepsMessages t.client) (hreceipts : t.receipts = s.receipts)
    (hheld : ∃ x, ∀ l ∈ t.links, l.phase = .established →
      x = some l ∧ s.client.data = l.fragments.flatten ∧ messagesOf l.told = []) : t.Invariant := by
  refine ⟨?_, ?_, ⟨?_, ?_⟩⟩
  · rwa [hmessages.data]
  · rw [hmessages.data]
    exact h.bounded
  · rw [hmessages.messages, hreceipts]
    exact h.assembled.accounted
  · rw [hreceipts]
    exact h.assembled.faithful

theorem quiet (hmessages : s.client.KeepsMessages t.client) (hreceipts : t.receipts = s.receipts)
    (hlinks : s.KeepsLinks t) : t.Invariant := by
  obtain ⟨f, hf, hold⟩ := hlinks
  obtain ⟨x, hx⟩ := h.held
  refine h.of_keeps hmessages hreceipts ⟨x.map f, fun l hl hphase => ?_⟩
  obtain ⟨y, hy, hyphase, rfl⟩ := hold l hl hphase
  obtain ⟨rfl, hheld⟩ := hx y hy hyphase
  rw [(hf y).1, (hf y).2]
  exact ⟨rfl, hheld⟩

theorem entered (hdata : s.client.data = []) (hnone : ∀ l ∈ s.links, l.phase ≠ .established)
    (hmessages : s.client.KeepsMessages t.client) (hreceipts : t.receipts = s.receipts)
    (hlinks : ∀ l' ∈ t.links, l' = opened l ∨ l' ∈ s.links) : t.Invariant := by
  refine h.of_keeps hmessages hreceipts ⟨some (opened l), fun x hx hphase => ?_⟩
  obtain rfl := (hlinks x hx).resolve_right fun hold => hnone x hold hphase
  exact ⟨rfl, hdata, rfl⟩

theorem ended {a : Attempt κ} {answer : Int × Client κ} (hanswer : s.Answers a answer) :
    (s.connected a answer).Invariant := by
  have hmessages := hanswer.keepsMessages
  unfold connected
  split
  · refine h.quiet ⟨hmessages.data, hmessages.messages⟩ rfl
      (keepsLinks_of_subset fun l hl hphase => ?_)
    grind [phase_of_mem_newLinks]
  · exact h.quiet ⟨hmessages.data, hmessages.messages⟩ rfl
      (keepsLinks_of_subset fun _ hl _ => hl)

/-- After a fragment the buffer holds what its connection has received of the message. -/
theorem receive_held (hl : l ∈ s.links) (hphase : l.phase = .established) {wsi : κ}
    (hunmixed : s.Unmixed (.receive wsi data isFinal)) {c : Client κ}
    (hreceived : s.client.Received isFinal data calls c) :
    c.data = (advance l data isFinal calls).fragments.flatten ∧
      messagesOf (advance l data isFinal calls).told = [] := by
  obtain ⟨x, hx⟩ := h.held
  obtain ⟨-, hheld, htold⟩ := hx l hl hphase
  cases hreceived with
  | null hmessages hdata =>
    cases isFinal with
    | true => exact ⟨hdata.trans (hunmixed rfl), rfl⟩
    | false =>
      grind [advance, messagesOf_append]
  | exceeding hexceeds hmessages hreported hdata =>
    obtain rfl : isFinal = true := hunmixed.resolve_right (Nat.not_le.mpr hexceeds)
    exact ⟨hdata, rfl⟩
  | continued hfinal hfits hdata =>
    grind [advance]
  | completed hfinal hfits hmessages hdata =>
    subst hfinal
    exact ⟨hdata, rfl⟩

/-- A fragment gives the application the message that ends with it, or nothing. -/
theorem receive_faithful (hl : l ∈ s.links) (hphase : l.phase = .established) {c : Client κ}
    (hreceived : s.client.Received isFinal data calls c) :
    Receipt.Faithful ⟨l.fragments ++ [data.getD []], isFinal, s.client.registered.onError, calls,
      l.told ++ calls⟩ := by
  obtain ⟨x, hx⟩ := h.held
  obtain ⟨-, hheld, htold⟩ := hx l hl hphase
  have hbounded := h.bounded
  have hlength : (l.fragments ++ [data.getD []]).flatten.length =
      s.client.data.length + (data.getD []).length := by
    rw [hheld]
    simp
  cases hreceived with
  | null hmessages hdata =>
    refine ⟨Or.inl hmessages, fun hexceeds => ?_⟩
    grind
  | exceeding hexceeds hmessages hreported hdata =>
    refine ⟨Or.inl hmessages, fun _ => ⟨?_, fun _ hreports => ?_⟩⟩
    · simp [messagesOf_append, htold, hmessages]
    · exact mem_append_right _ (hreported hreports)
  | continued hfinal hfits hdata =>
    refine ⟨Or.inl rfl, fun hexceeds => ?_⟩
    rw [hlength] at hexceeds
    exact absurd hexceeds (Nat.not_lt.mpr hfits)
  | completed hfinal hfits hmessages hdata =>
    refine ⟨?_, fun hexceeds => ?_⟩
    · cases honMessage : s.client.registered.onMessage with
      | false =>
        rw [honMessage] at hmessages
        exact Or.inl hmessages
      | true =>
        rw [honMessage, hheld] at hmessages
        refine Or.inr ⟨hfinal, hlength.trans_le hfits, ?_⟩
        simpa using hmessages
    · rw [hlength] at hexceeds
      exact absurd hexceeds (Nat.not_lt.mpr hfits)

end Invariant

variable [DecidableEq κ]

theorem Invariant.receive (h : s.Invariant) (hl : l ∈ s.links)
    (hphase : l.phase = .established) {wsi : κ} (hunmixed : s.Unmixed (.receive wsi data isFinal)) :
    (s.receive l data isFinal).Invariant := by
  obtain ⟨calls, hcalls, hreceived⟩ := Client.received h.bounded data isFinal
  have hheld := h.receive_held hl hphase hunmixed hreceived
  have hfaithful := h.receive_faithful hl hphase hreceived
  have hdrop : (s.client.lwsCallbackClientReceive data isFinal).2.calls.drop
      s.client.calls.length = calls := by
    rw [hcalls, drop_left]
  have hadvanced : ∀ x ∈ (s.receive l data isFinal).links, x.phase = .established →
      x = advance l data isFinal calls := by
    intro x hx hxphase
    unfold System.receive at hx
    dsimp only at hx
    rw [hdrop] at hx
    rcases mem_replaceLink hx with hnew | ⟨hold, hne⟩
    · exact hnew
    · obtain ⟨y, hy⟩ := h.held
      exact absurd (Option.some.inj ((hy x hold hxphase).1.symm.trans (hy l hl hphase).1)) hne
  have hreceipts : (s.receive l data isFinal).receipts = s.receipts ++
      [⟨l.fragments ++ [data.getD []], isFinal, s.client.registered.onError, calls,
        l.told ++ calls⟩] := by
    simp only [System.receive, hdrop]
  refine ⟨⟨_, fun x hx hxphase => ⟨congrArg some (hadvanced x hx hxphase).symm, ?_⟩⟩, ?_, ⟨?_, ?_⟩⟩
  · rw [hadvanced x hx hxphase]
    exact hheld
  · exact hreceived.bounded h.bounded
  · rw [hreceipts, flatMap_append, flatMap_singleton, ← h.assembled.accounted]
    exact (congrArg messagesOf hcalls).trans (messagesOf_append _ _)
  · intro r hr
    rw [hreceipts] at hr
    rcases mem_append.mp hr with hold | hnew
    · exact h.assembled.faithful r hold
    · rw [mem_singleton.mp hnew]
      exact hfaithful

theorem Invariant.step (h : s.Invariant) {e : Event κ} (hunmixed : s.Unmixed e)
    (hstep : s.step e = some t) : t.Invariant := by
  cases steps_of_step hstep with
  | quiet hclient hlinks hreceipts hwaiting hnone =>
    exact h.quiet hclient.toKeepsMessages hreceipts hlinks
  | @begun env url options hidle ht =>
    subst ht
    have hmessages := (s.client.prepare_spec env options).1
    rw [← Client.connectStart_eq_prepare] at hmessages
    unfold waitUnless
    split <;> exact h.quiet ⟨hmessages.data, hmessages.messages⟩ rfl
      (keepsLinks_of_subset fun _ hl _ => hl)
  | ended hanswer ht =>
    subst ht
    exact h.ended hanswer
  | @entered wsi l ht =>
    subst ht
    refine h.entered (l := l) hunmixed.1 hunmixed.2
      (s.client.keeps_lwsCallbackClientEstablished l.wsi).toKeepsMessages rfl ?_
    exact fun l' hl' => (mem_replaceLink hl').imp_right And.left
  | received hl hphase ht =>
    subst ht
    exact h.receive hl hphase hunmixed

/-- In any run in which a connection is established only when nothing is left of another one, in
which no message becomes too long before its last fragment and no last fragment is a null pointer,
the application is given complete messages and no others. -/
theorem messages_assembled (registered : Registered) (settings : Settings) (events : List (Event κ))
    (hmeets : Meets step Unmixed events { client := .fresh registered settings }) :
    Throughout step Assembled events
      ({ client := .fresh registered settings } : System κ) := by
  apply throughout_of_meets (J := Invariant)
  · exact fun s e t hs hunmixed hstep => hs.step hunmixed hstep
  · exact fun s hs => hs.assembled
  · exact ⟨⟨none, by simp⟩, Nat.zero_le _, rfl, by simp⟩
  · exact hmeets

/-- A message in three fragments, one of them empty, and a message on a second connection. -/
def completeMessages : List (Event Nat) :=
  sampleConnect 1 7 {} ++ [.receive 7 (some (ascii "good ")) false, .receive 7 (some []) false,
    .receive 7 (some (ascii "day")) true] ++ sampleLoss 7 ++ sampleConnect 2 8 {} ++
    [.receive 8 (some (ascii "again")) true]

theorem completeMessages_assembled :
    Meets step Unmixed completeMessages { client := .fresh {} {} } ∧
      Throughout step Assembled completeMessages { client := .fresh {} {} } :=
  have hmeets : Meets step Unmixed completeMessages { client := .fresh {} {} } := by
    decide +kernel
  ⟨hmeets, messages_assembled {} {} completeMessages hmeets⟩

/-- A connection is lost in the middle of a message, and the client connects again. -/
def lostConnection : List (Event Nat) :=
  sampleConnect 1 7 {} ++ [.receive 7 (some (ascii "secret")) false] ++ sampleLoss 7 ++
    sampleConnect 2 8 {} ++ [.receive 8 (some (ascii "hi")) true]

/-- The message of the second connection begins with the fragment of the first. -/
theorem lostConnection_mixed :
    ¬ Throughout step Assembled lostConnection { client := .fresh {} {} } ∧
      ∃ s, lostConnection.foldlM step ({ client := .fresh {} {} } : System Nat) = some s ∧
        s.client.messages = [ascii "secrethi"] ∧
        (s.receipts.map fun r => (r.fragments, r.isFinal, messagesOf r.calls)) =
          [([ascii "secret"], false, []), ([ascii "hi"], true, [ascii "secrethi"])] := by
  refine ⟨fun hassembled => ?_, by decide +kernel⟩
  have hend : ∃ s, lostConnection.foldlM step ({ client := .fresh {} {} } : System Nat) = some s ∧
      ∃ r ∈ s.receipts, ¬ r.Faithful := by
    decide +kernel
  obtain ⟨s, hs, r, hr, hunfaithful⟩ := hend
  exact hunfaithful ((hassembled.finish hs).faithful r hr)

end System

end Netstack.WebSocketClient
