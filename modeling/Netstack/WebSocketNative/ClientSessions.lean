import Netstack.WebSocketNative.ClientSteps

/-!
# New sessions of the native WebSocket client

The headers of the options are assigned to those that the context has, and `ConnectEx` leaves the
flags as it finds them. Nothing takes headers away, and neither entry point clears the queue or the
message that was being received. So the session that a client starts with is that of a new client
exactly if nothing is left that the options do not replace.
-/

namespace Netstack.WebSocketClient

open Foundation Foundation.Execution Option Client Std.ExtTreeMap

namespace ClientContext

variable {κ : Type}

variable (x : ClientContext κ)

variable (options : OpenOptions)

theorem getElem?_addHeaders (name : Bytes) :
    (x.addHeaders options).header[name]? = options.headers[name]?.or x.header[name]? := by
  have hcollect := FiniteMaps.collect_of_perm (List.Perm.refl options.headers.toList)
  have hlookup := FiniteMaps.getElem?_foldl_insert options.headers.toList x.header name
  rw [hcollect] at hlookup
  exact hlookup

theorem addHeaders_addHeaders :
    ((x.addHeaders options).addHeaders options).header = (x.addHeaders options).header := by
  apply ext_getElem?
  grind [getElem?_addHeaders]

/-- The headers are those of the options exactly if these replace all that were there. -/
theorem addHeaders_eq_iff :
    (x.addHeaders options).header = options.headers ↔
      ∀ item ∈ x.header.toList, item.1 ∈ options.headers := by
  constructor
  · grind [mem_iff_isSome_getElem?, @x.getElem?_addHeaders]
  · intro h
    apply ext_getElem?
    intro name
    rw [getElem?_addHeaders]
    cases hoption : options.headers[name]? with
    | some value => rfl
    | none =>
      cases hheader : x.header[name]? with
      | none => rfl
      | some value =>
        have hmem := h (name, value)
          (mem_toList_iff_getElem?_eq_some.mpr hheader)
        grind

end ClientContext

variable {settings : Settings}

namespace Client

variable {κ : Type}

/-- Make the attempt. -/
def connectBy (c : Client κ) (a : Attempt κ) : Int × Client κ :=
  if a.ex then c.connectEx a.env a.url a.options else c.connect a.env a.url a.options

/-- The session that a client starts with which was not used before. -/
theorem session_fresh (registered : Registered) {a : Attempt κ}
    (h : Permits a.env settings.isAtomicService a.options) :
    ((fresh registered settings).connectBy a).2.session =
      ⟨a.options.headers, [], false, false, []⟩ := by
  have hprepare : (fresh registered settings).prepare a.env a.options =
      (none, (fresh registered settings).mapContext fun x => x.addHeaders a.options) :=
    prepare_of_permits h
  have hheader :
      ((fresh registered settings : Client κ).clientContext.addHeaders a.options).header =
        a.options.headers := by
    apply (ClientContext.addHeaders_eq_iff _ _).mpr
    intro item hitem
    have hlookup := mem_toList_iff_getElem?_eq_some.mp hitem
    simp [fresh] at hlookup
  unfold connectBy
  cases a.ex with
  | true =>
    have hsession :=
      ((fresh registered settings).keepsSession_connectEx a.env a.url a.options).session_eq
    rw [hprepare] at hsession
    refine hsession.trans ?_
    exact congrArg (fun header => (⟨header, [], false, false, []⟩ : Session)) hheader
  | false =>
    have hstart : (fresh registered settings).connectStart a.env a.options =
        (none, (fresh registered settings).mapContext fun x => x.addHeaders a.options) := by
      unfold connectStart
      rw [hprepare]
      rfl
    have hconnect : (fresh registered settings).connect a.env a.url a.options =
        ((fresh registered settings).mapContext fun x => x.addHeaders a.options).connectFinish
          a.env a.url := by
      unfold connect
      rw [hstart]
    refine (congrArg (fun answer => answer.2.session) hconnect).trans ?_
    rw [session_connectFinish]
    exact congrArg (fun header => (⟨header, [], false, false, []⟩ : Session)) hheader

end Client

namespace System

variable {κ : Type}

/-- Nothing is left of earlier sessions that the attempt does not replace: every header that is
there is among those of the options, the queue and the buffer are empty, and `ConnectEx`, which
does not clear the flags, finds them clear. -/
def Clean (s : System κ) (a : Attempt κ) : Prop :=
  (∀ item ∈ s.client.clientContext.header.toList, item.1 ∈ a.options.headers) ∧
    s.client.clientContext.dataQueue = [] ∧ s.client.data = [] ∧
    (a.ex = true →
      s.client.clientContext.closed = false ∧ s.client.clientContext.threadStop = false)

instance (s : System κ) (a : Attempt κ) : Decidable (s.Clean a) := by
  unfold Clean
  infer_instance

/-- A call of `Connect` that waits has passed the checks and has assigned its headers. -/
structure Prepared (settings : Settings) (s : System κ) : Prop where
  isAtomicService : s.client.clientContext.settings.isAtomicService = settings.isAtomicService
  connecting : ∀ env url options, s.waiting = .connecting env url options →
    Client.Permits env settings.isAtomicService options ∧
      (s.client.clientContext.addHeaders options).header = s.client.clientContext.header

variable {s : System κ} {a : Attempt κ} {answer : Int × Client κ}

theorem Answers.isAtomicService (h : s.Answers a answer) :
    answer.2.clientContext.settings.isAtomicService =
      s.client.clientContext.settings.isAtomicService := by
  cases h with
  | connect hwaiting => exact (s.client.keepsSession_connectFinish _ _).isAtomicService
  | connectEx env url options =>
    exact (s.client.keepsSession_connectEx env url options).isAtomicService.trans
      (s.client.prepare_spec env options).2

theorem connected_spec (s : System κ) (a : Attempt κ) (answer : Int × Client κ) :
    (s.connected a answer).client = answer.2 ∧ (s.connected a answer).waiting = .idle ∧
      ∀ b, (s.connected a answer).justConnected = some b → a = b ∧ answer.1 = websocketNoneErr := by
  unfold connected
  split
  · rename_i hsuccess
    grind
  · exact ⟨rfl, rfl, fun b hb => absurd hb.symm (some_ne_none b)⟩

variable {t : System κ}

section

variable (h : s.Prepared settings)
include h

theorem Prepared.kept (hheader : s.client.KeepsHeader t.client)
    (hwaiting : t.waiting = s.waiting ∨
      ∀ env url options, t.waiting ≠ .connecting env url options) : t.Prepared settings := by
  refine ⟨hheader.isAtomicService.trans h.isAtomicService, ?_⟩
  grind [ClientContext.addHeaders, @h.connecting, @hheader.header]

theorem Prepared.begun (hidle : s.isIdle = true) (env : Environment κ) (url : Bytes)
    (options : OpenOptions) :
    (s.waitUnless (s.client.connectStart env options)
      (.connecting env url options)).Prepared settings := by
  have hatomic := (s.client.prepare_spec env options).2.trans h.isAtomicService
  rw [← connectStart_eq_prepare] at hatomic
  unfold waitUnless
  cases hcode : (s.client.connectStart env options).1 with
  | some code =>
    exact ⟨hatomic, fun _ _ _ hconnecting => absurd hconnecting (waiting_of_isIdle hidle _ _ _)⟩
  | none =>
    obtain ⟨hpermits, hclient⟩ := connectStart_of_none hcode
    rw [h.isAtomicService] at hpermits
    refine ⟨hatomic, fun _ _ _ hconnecting => ?_⟩
    obtain ⟨rfl, rfl, rfl⟩ := Waiting.connecting.inj hconnecting
    refine ⟨hpermits, ?_⟩
    dsimp only
    rw [hclient]
    exact s.client.clientContext.addHeaders_addHeaders _

theorem Prepared.ended (hanswer : s.Answers a answer) :
    (s.connected a answer).Prepared settings := by
  obtain ⟨hclient, hidle, -⟩ := s.connected_spec a answer
  refine ⟨?_, fun env url options hconnecting => ?_⟩
  · rw [hclient]
    exact hanswer.isAtomicService.trans h.isAtomicService
  · rw [hidle] at hconnecting
    cases hconnecting

variable [DecidableEq κ] {e : Event κ}

theorem Prepared.step (hstep : s.step e = some t) : t.Prepared settings := by
  cases steps_of_step hstep with
  | quiet hclient hlinks hreceipts hwaiting hnone => exact h.kept hclient.toKeepsHeader hwaiting
  | begun hidle ht =>
    subst ht
    exact h.begun hidle _ _ _
  | ended hanswer ht =>
    subst ht
    exact h.ended hanswer
  | @entered wsi l ht =>
    subst ht
    exact h.kept (s.client.keeps_lwsCallbackClientEstablished l.wsi).toKeepsHeader (.inl rfl)
  | @received wsi l data isFinal hl hphase ht =>
    subst ht
    exact h.kept (s.client.keepsHeader_lwsCallbackClientReceive data isFinal) (.inl rfl)

end

variable [DecidableEq κ] {e : Event κ}

theorem answers_of_step (h : s.step e = some t) (hconnected : t.justConnected = some a) :
    ∃ answer, s.Answers a answer ∧ answer.1 = websocketNoneErr ∧ t.client = answer.2 := by
  cases steps_of_step h with
  | quiet hclient hlinks hreceipts hwaiting hnone => grind
  | begun hidle ht => grind [waitUnless, setClient]
  | @ended e b answer hanswer ht => grind [@s.connected_spec]
  | entered ht =>
    subst ht
    cases hconnected
  | received hl hphase ht =>
    subst ht
    cases hconnected

omit [DecidableEq κ] in
/-- The session of an attempt that succeeds, and the checks that it has passed. -/
theorem Prepared.session_of_answers (h : s.Prepared settings)
    (hanswer : s.Answers a answer) (hsuccess : answer.1 = websocketNoneErr) :
    Client.Permits a.env settings.isAtomicService a.options ∧
      answer.2.session =
        { header := (s.client.clientContext.addHeaders a.options).header
          dataQueue := s.client.clientContext.dataQueue
          closed := a.ex && s.client.clientContext.closed
          threadStop := a.ex && s.client.clientContext.threadStop
          data := s.client.data } := by
  cases hanswer with
  | connect hwaiting =>
    obtain ⟨hpermits, hadded⟩ := h.connecting _ _ _ hwaiting
    refine ⟨hpermits, ?_⟩
    rw [session_connectFinish, hadded]
    rfl
  | connectEx env url options =>
    obtain ⟨hpermits, hsession⟩ := connectEx_of_success hsuccess
    rw [h.isAtomicService] at hpermits
    exact ⟨hpermits, hsession.trans rfl⟩

/-- After any history of calls and network events, a session that has just been started has the
headers, the queue, the flags and the buffer of one that a new client starts with the same options
exactly if the attempt found nothing left that it does not replace. -/
theorem session_independent_iff (registered : Registered) (settings : Settings)
    (events : List (Event κ)) {s t : System κ} {e : Event κ} {a : Attempt κ}
    (hrun : events.foldlM step { client := .fresh registered settings } = some s)
    (hstep : s.step e = some t) (hconnected : t.justConnected = some a) :
    t.client.session = ((fresh registered settings).connectBy a).2.session ↔ s.Clean a := by
  have hinitial : Prepared settings ({ client := .fresh registered settings } : System κ) :=
    ⟨rfl, fun _ _ _ => nofun⟩
  have hprepared : s.Prepared settings :=
    foldlM_invariant (fun s e t hs hstep => hs.step hstep) events hinitial
      hrun
  obtain ⟨answer, hanswer, hsuccess, hclient⟩ := answers_of_step hstep hconnected
  obtain ⟨hpermits, hsession⟩ := hprepared.session_of_answers hanswer hsuccess
  have hheader := s.client.clientContext.addHeaders_eq_iff a.options
  rw [hclient, hsession, session_fresh registered hpermits, Client.Session.mk.injEq, hheader]
  constructor
  · rintro ⟨hnames, hqueue, hclosed, hstop, hdata⟩
    refine ⟨hnames, hqueue, hdata, fun hex => ?_⟩
    grind
  · rintro ⟨hnames, hqueue, hdata, hflags⟩
    grind

/-- The headers of a client that identifies itself. -/
def sampleOptions : OpenOptions where
  headers := (∅ : Std.ExtTreeMap Bytes Bytes).insert (ascii "Authorization") (ascii "token")

/-- A session with a header ends after its messages, and the next one has the same header. -/
def renewedSession : List (Event Nat) :=
  sampleConnect 1 7 sampleOptions ++ [.send (some (ascii "hello")), .writable 7,
    .receive 7 (some (ascii "hi")) true] ++ sampleLoss 7 ++
    [.connect (sampleEnvironment 2 8) sampleUrl sampleOptions]

theorem renewedSession_independent :
    ∃ s t a, renewedSession.foldlM step ({ client := .fresh {} {} } : System Nat) = some s ∧
      s.step .proceed = some t ∧ t.justConnected = some a ∧ s.Clean a ∧
      t.client.session = ((fresh {} {}).connectBy a).2.session := by
  have hend : ∃ s, renewedSession.foldlM step ({ client := .fresh {} {} } : System Nat) = some s ∧
      ∃ t, s.step .proceed = some t ∧ ∃ a, t.justConnected = some a ∧ s.Clean a := by
    decide +kernel
  obtain ⟨s, hs, t, ht, a, ha, hclean⟩ := hend
  exact ⟨s, t, a, hs, ht, ha, hclean,
    (session_independent_iff {} {} renewedSession hs ht ha).mpr hclean⟩

/-- A session with a header ends, a message is sent to nobody, and the client connects without any
headers. -/
def reusedClient : List (Event Nat) :=
  sampleConnect 1 7 sampleOptions ++ sampleLoss 7 ++ [.send (some (ascii "draft")),
    .connect (sampleEnvironment 2 8) sampleUrl {}]

/-- The new session starts with the header of the old one and with the message. -/
theorem reusedClient_inherits :
    ∃ s t a, reusedClient.foldlM step ({ client := .fresh {} {} } : System Nat) = some s ∧
      s.step .proceed = some t ∧ t.justConnected = some a ∧ a.options.headers = ∅ ∧
      t.client.session.header = sampleOptions.headers ∧
      t.client.session.dataQueue = [⟨ascii "draft", .text⟩] ∧
      t.client.session ≠ ((fresh {} {}).connectBy a).2.session := by
  simp only [exists_and_left]
  decide +kernel

end System

end Netstack.WebSocketClient
