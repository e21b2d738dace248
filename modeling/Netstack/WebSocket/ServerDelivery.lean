import Netstack.WebSocket.ServerSends

/-!
# Messages that stay in the queue of a client

The queue of a client is a mailbox. The writable callback takes a message and has to request
another call for what is left, but the request goes to the session of the server, which has no
connection. So a message stays behind whenever a writable callback finds more than one.

## Implementation notes

`none` stands for the service thread.
-/

namespace Netstack.WebSocket.ServerExec

open Function Foundation Foundation.Execution Manager Mailbox Option UserData Sender

variable {κ ι : Type}

/-- The session that a thread has found. -/
def Sender.client : Sender κ → Option Nat
  | .foundClient c _ | .checked c _ | .pushed c => some c
  | _ => none

namespace Service

/-- The callback is establishing the connection of the session and will request a call. -/
def Owes : Service κ → Nat → Prop
  | .bound _ d (some _), c | .listed _ d, c | .addressed _ d, c => d = c
  | _, _ => False

end Service

variable {m : Manager κ} {s t : System κ ι} {c : Nat} {i : ι} {next : Sender κ} {wsi : κ}

namespace System

variable (s)

def owing (c : Nat) : Set (Option ι) :=
  { p | match p with
    | some i => s.sender i = .pushed c
    | none => s.service.Owes c }

def mailbox (wsi : κ) (c : Nat) : Mailbox SendData (Option ι) where
  posted := s.posted c
  taken := s.manager.written c
  queue := (s.manager.sessions c).dataQueue
  pending := s.manager.writables wsi = true
  owing := s.owing c

/-- The session belongs to a connection that is live or is being established. -/
def Tracked (wsi : κ) (c : Nat) : Prop :=
  s.manager.userDataMap wsi = some c ∧ (s.live wsi = true ∨ s.service.Owes c)

/-- What is known about the session of the callback that was cut. -/
def Fits : Service κ → Prop
  | .bound wsi c _ | .listed wsi c =>
    s.manager.userDataMap wsi = some c ∧ s.live wsi = false ∧ (s.manager.sessions c).wsi = none
  | .addressed wsi c =>
    s.manager.userDataMap wsi = some c ∧ s.live wsi = false ∧
      (s.manager.sessions c).wsi = some wsi
  | _ => True

/-- Every connection has a session of its own, which writes to it. -/
structure Assigned (s : System κ ι) : Prop where
  made : ∀ wsi c, s.manager.userDataMap wsi = some c → c < s.manager.sessionCount
  own : ∀ wsi wsi' c, s.manager.userDataMap wsi = some c → s.manager.userDataMap wsi' = some c →
    wsi = wsi'
  address : ∀ wsi c, s.live wsi = true → s.manager.userDataMap wsi = some c →
    (s.manager.sessions c).wsi = some wsi
  fits : s.Fits s.service

/-- What was posted is written or in the queue, and nothing is posted to a session that is not
there yet. -/
structure Accounted (s : System κ ι) : Prop where
  made : ∀ i c, (s.sender i).client = some c → c < s.manager.sessionCount
  unmade : ∀ c, s.manager.sessionCount ≤ c → s.posted c = [] ∧ s.manager.written c = []
  inOrder : ∀ c, s.manager.written c ++ (s.manager.sessions c).dataQueue = s.posted c

def AllNoticed : Prop :=
  ∀ wsi c, s.Tracked wsi c → (s.manager.sessions c).closed = false → (s.mailbox wsi c).Noticed

variable {s}

structure Invariant (s : System κ ι) : Prop where
  assigned : s.Assigned
  accounted : s.Accounted
  noticed : s.AllNoticed

/-- The messages are where they were, and closed sessions stay closed. -/
structure Spares (m m' : Manager κ) : Prop where
  sessionCount : m'.sessionCount = m.sessionCount
  written : m'.written = m.written
  dataQueue : ∀ c, (m'.sessions c).dataQueue = (m.sessions c).dataQueue
  closed : ∀ c, (m'.sessions c).closed = false → (m.sessions c).closed = false

theorem Spares.of_keeps {m' : Manager κ} (h : m.Keeps m') : Spares m m' where
  sessionCount := h.sessionCount
  written := h.written
  dataQueue c := by rw [h.sessions]
  closed c hc := by rwa [h.sessions] at hc

theorem Spares.trans {m₁ m₂ m₃ : Manager κ} (h₁ : Spares m₁ m₂) (h₂ : Spares m₂ m₃) :
    Spares m₁ m₃ where
  sessionCount := h₂.sessionCount.trans h₁.sessionCount
  written := h₂.written.trans h₁.written
  dataQueue c := (h₂.dataQueue c).trans (h₁.dataQueue c)
  closed c h := h₁.closed c (h₂.closed c h)

/-- The sessions have their messages, connections, addresses and requests as before. -/
structure Leaves (m m' : Manager κ) : Prop extends Spares m m' where
  address : ∀ c, (m'.sessions c).wsi = (m.sessions c).wsi
  userDataMap : m'.userDataMap = m.userDataMap
  writables : m'.writables = m.writables

theorem Leaves.of_keeps {m' : Manager κ} (h : m.Keeps m') : Leaves m m' where
  toSpares := .of_keeps h
  address c := by rw [h.sessions]
  userDataMap := h.userDataMap
  writables := h.writables

theorem Leaves.trans {m₁ m₂ m₃ : Manager κ} (h₁ : Leaves m₁ m₂) (h₂ : Leaves m₂ m₃) :
    Leaves m₁ m₃ where
  toSpares := h₁.toSpares.trans h₂.toSpares
  address c := (h₂.address c).trans (h₁.address c)
  userDataMap := h₂.userDataMap.trans h₁.userDataMap
  writables := h₂.writables.trans h₁.writables

theorem Accounted.of_spares (h : s.Accounted)
    (hm : Spares s.manager t.manager) (hposted : t.posted = s.posted)
    (hmade : ∀ i c, (t.sender i).client = some c → c < s.manager.sessionCount) : t.Accounted where
  made i c hc := by
    rw [hm.sessionCount]
    exact hmade i c hc
  unmade c hc := by
    rw [hm.sessionCount] at hc
    rw [hposted, hm.written]
    exact h.unmade c hc
  inOrder c := by
    rw [hposted, hm.written, hm.dataQueue]
    exact h.inOrder c

theorem AllNoticed.of_spares (h : s.AllNoticed) (hm : Spares s.manager t.manager)
    (htracked : ∀ wsi c, t.Tracked wsi c → s.Tracked wsi c ∧
      (s.manager.writables wsi = true → t.manager.writables wsi = true))
    (howing : ∀ c, s.owing c ⊆ t.owing c) : t.AllNoticed := by
  intro wsi c ht hclosed
  obtain ⟨hs, hpending⟩ := htracked wsi c ht
  apply (h wsi c hs (hm.closed c hclosed)).of_grants
  exact ⟨hm.dataQueue c, hpending, howing c⟩

/-- The sessions belong to the same connections as before. -/
theorem Assigned.of_map (h : s.Assigned) (hmap : t.manager.userDataMap = s.manager.userDataMap)
    (hcount : t.manager.sessionCount = s.manager.sessionCount)
    (haddress : ∀ wsi c, t.live wsi = true → s.manager.userDataMap wsi = some c →
      (t.manager.sessions c).wsi = some wsi)
    (hfits : t.Fits t.service) : t.Assigned where
  made wsi c hc := by
    rw [hmap] at hc
    rw [hcount]
    exact h.made wsi c hc
  own wsi wsi' c hc hc' := by
    rw [hmap] at hc hc'
    exact h.own wsi wsi' c hc hc'
  address wsi c hwsi hc := by
    rw [hmap] at hc
    exact haddress wsi c hwsi hc
  fits := hfits

theorem fits_congr (hmap : t.manager.userDataMap = s.manager.userDataMap) (hlive : t.live = s.live)
    (haddress : ∀ c, (t.manager.sessions c).wsi = (s.manager.sessions c).wsi)
    (service : Service κ) : t.Fits service ↔ s.Fits service := by
  cases service <;> simp only [Fits, hmap, hlive, haddress]

/-- The sessions belong to the same connections and write to them as before. -/
theorem Assigned.of_same (h : s.Assigned) (hmap : t.manager.userDataMap = s.manager.userDataMap)
    (hcount : t.manager.sessionCount = s.manager.sessionCount) (hlive : t.live = s.live)
    (hservice : t.service = s.service)
    (haddress : ∀ c, (t.manager.sessions c).wsi = (s.manager.sessions c).wsi) : t.Assigned := by
  apply h.of_map hmap hcount
  · intro wsi c hwsi hc
    rw [hlive] at hwsi
    rw [haddress]
    exact h.address wsi c hwsi hc
  · rw [hservice]
    exact (fits_congr hmap hlive haddress s.service).mpr h.fits

theorem owing_subset (s t : System κ ι) (hsender : t.sender = s.sender)
    (hservice : ∀ c, s.service.Owes c → t.service.Owes c) (c : Nat) : s.owing c ⊆ t.owing c := by
  intro p hp
  cases p with
  | some i =>
    have hi : s.sender i = .pushed c := hp
    exact (congrFun hsender i).trans hi
  | none => exact hservice c hp

/-- The manager changes and the callback goes on, with the sessions and the requests there. -/
theorem Invariant.serve (h : s.Invariant) (hm : Spares s.manager m) (service : Service κ)
    (hmap : m.userDataMap = s.manager.userDataMap)
    (hwritables : ∀ wsi, s.manager.writables wsi = true → m.writables wsi = true)
    (howes : ∀ d, service.Owes d ↔ s.service.Owes d)
    (haddress : ∀ wsi c, s.live wsi = true → s.manager.userDataMap wsi = some c →
      (m.sessions c).wsi = some wsi)
    (hfits : Fits { s with manager := m, service := service } service) :
    Invariant { s with manager := m, service := service } where
  assigned := h.assigned.of_map hmap hm.sessionCount haddress hfits
  accounted := h.accounted.of_spares hm rfl h.accounted.made
  noticed := by
    apply h.noticed.of_spares hm
    · rintro wsi c ⟨hc, hlive⟩
      exact ⟨⟨(congrFun hmap wsi).symm.trans hc, hlive.imp_right (howes c).mp⟩, hwritables wsi⟩
    · exact owing_subset s { s with manager := m, service := service } rfl fun d => (howes d).mpr

theorem Invariant.of_leaves (h : s.Invariant) (hm : Leaves s.manager m) :
    Invariant { s with manager := m } := by
  refine h.serve hm.toSpares s.service hm.userDataMap ?_ (fun _ => Iff.rfl) ?_ ?_
  · exact fun wsi => (congrFun hm.writables wsi).trans
  · exact fun wsi c hlive hc => (hm.address c).trans (h.assigned.address wsi c hlive hc)
  · exact (fits_congr (t := { s with manager := m }) hm.userDataMap rfl hm.address _).mpr
      h.assigned.fits

theorem address_setSession {u : UserData κ} (h : u.wsi = (m.sessions c).wsi) (d : Nat) :
    ((m.setSession c u).sessions d).wsi = (m.sessions d).wsi := by
  by_cases hd : d = c
  · rw [hd, setSession_self, h]
  · rw [m.setSession_of_ne hd]

section Sending

variable [DecidableEq ι]

theorem client_update_lt {sender : ι → Sender κ} {n : Nat}
    (h : ∀ j c, (sender j).client = some c → c < n) (hnext : ∀ c, next.client = some c → c < n)
    (j : ι) (c : Nat) (hc : (update sender i next j).client = some c) : c < n := by
  grind

theorem owing_update_subset (t : System κ ι)
    (hsender : t.sender = update s.sender i next) (hservice : t.service = s.service)
    (hbefore : s.sender i ≠ .pushed c) : s.owing c ⊆ t.owing c := by
  intro p hp
  cases p with
  | none =>
    have howes : s.service.Owes c := hp
    rw [← hservice] at howes
    exact howes
  | some j =>
    have hj : j ≠ i := fun hji => hbefore (hji ▸ hp)
    exact (congrFun hsender j).trans ((update_of_ne hj _ _).trans hp)

theorem Spares.triggerClient [DecidableEq κ] (m : Manager κ) (c : Nat) :
    Spares m (m.triggerClient c) :=
  ⟨rfl, rfl, fun _ => rfl, fun _ h => h⟩

namespace Invariant

variable (h : s.Invariant)
include h

omit [DecidableEq ι] in
/-- A session that is tracked and does not write to its connection yet will request a call. -/
theorem address_or_owes
    (hc : s.Tracked wsi c) : (s.manager.sessions c).wsi = some wsi ∨ s.service.Owes c := by
  rcases hc with ⟨hsession, hlive | howes⟩
  · exact Or.inl (h.assigned.address wsi c hlive hsession)
  · exact Or.inr howes

/-- A send moves on without a message in the queue. -/
theorem setSender (hbefore : ∀ c, s.sender i ≠ .pushed c)
    (hmade : ∀ c, next.client = some c → c < s.manager.sessionCount) :
    (s.setSender i next).Invariant where
  assigned := h.assigned.of_same rfl rfl rfl rfl fun _ => rfl
  accounted :=
    h.accounted.of_spares (t := s.setSender i next) (.of_keeps (.refl s.manager)) rfl
      (client_update_lt h.accounted.made hmade)
  noticed := by
    apply h.noticed.of_spares (t := s.setSender i next) (.of_keeps (.refl s.manager))
    · exact fun _ _ hc => ⟨hc, fun hp => hp⟩
    · exact fun c => owing_update_subset (s.setSender i next) rfl rfl (hbefore c)

theorem push {data : SendData}
    (hi : s.sender i = .checked c data) : (s.push i c data).Invariant := by
  have hc : c < s.manager.sessionCount := h.accounted.made i c (by rw [hi]; rfl)
  have howing : ∀ d, s.owing d ⊆ (s.push i c data).owing d := fun d =>
    owing_update_subset (s.push i c data) rfl rfl (by simp [hi])
  refine ⟨?_, ⟨?_, ?_, ?_⟩, ?_⟩
  · apply h.assigned.of_same (t := s.push i c data) rfl rfl rfl rfl
    intro d
    exact address_setSession (u := (s.manager.sessions c).push data) rfl d
  · apply client_update_lt h.accounted.made
    intro d hd
    obtain rfl : c = d := some.inj hd
    exact hc
  · intro d hd
    have hne : d ≠ c := fun heq => absurd hc (Nat.not_lt.mpr (heq ▸ hd))
    simpa [System.push, setSession, hne] using h.accounted.unmade d hd
  · intro d
    by_cases hd : d = c
    · subst hd
      have horder := InOrder.post
        (m := ⟨s.posted d, s.manager.written d, (s.manager.sessions d).dataQueue, False, s.owing d⟩)
        (h.accounted.inOrder d) (some i) data
      simpa [InOrder, post, System.push, setSession, UserData.push]
        using horder
    · simpa [System.push, setSession, hd] using h.accounted.inOrder d
  · intro wsi d hd hclosed
    by_cases hdc : d = c
    · subst hdc
      apply (noticed_post (s.mailbox wsi d) (some i) data).of_grants
      refine ⟨?_, fun hpending => hpending, ?_⟩
      · simp [mailbox, System.push, setSession, UserData.push, post]
      · rintro p (rfl | hp)
        · exact update_self i _ _
        · exact howing d hp
    · have hsame : (s.push i c data).manager.sessions d = s.manager.sessions d :=
        s.manager.setSession_of_ne hdc _
      rw [hsame] at hclosed
      apply (h.noticed wsi d hd hclosed).of_grants
      exact ⟨congrArg dataQueue hsame, fun hpending => hpending, howing d⟩

variable [DecidableEq κ]

theorem trigger (hi : s.sender i = .pushed c) : (s.trigger i c).Invariant := by
  refine ⟨h.assigned.of_same (t := s.trigger i c) rfl rfl rfl rfl fun _ => rfl, ?_, ?_⟩
  · apply h.accounted.of_spares (t := s.trigger i c) (Spares.triggerClient s.manager c) rfl
    exact client_update_lt h.accounted.made fun d hd => absurd hd (by simp [client])
  · intro wsi d hd hclosed
    by_cases hdc : d = c
    · subst hdc
      rcases h.address_or_owes hd with haddress | howes
      · exact fun _ => Or.inl (triggerWritable_self haddress _)
      · exact fun _ => Or.inr ⟨none, howes⟩
    · have hbefore : s.sender i ≠ .pushed d := by
        grind
      apply (h.noticed wsi d hd hclosed).of_grants
      exact ⟨rfl, fun hp => triggerWritable_of_pending _ hp,
        owing_update_subset (s.trigger i c) rfl rfl hbefore⟩

theorem proceed (hstep : s.proceed i = some t) : t.Invariant := by
  unfold System.proceed at hstep
  cases hi : s.sender i with
  | idle => simp [hi] at hstep
  | named clientId data =>
    grind [client, @h.setSender]
  | foundWsi wsi data =>
    have hbefore : ∀ c, s.sender i ≠ .pushed c := by simp [hi]
    rw [hi] at hstep
    dsimp only at hstep
    cases hsession : s.manager.userDataMap wsi with
    | none =>
      grind [client, @h.setSender]
    | some c =>
      rw [hsession] at hstep
      cases hstep
      have hc := h.assigned.made wsi c hsession
      exact h.setSender hbefore (by simpa [client] using hc)
  | foundClient c data =>
    have hbefore : ∀ c, s.sender i ≠ .pushed c := by simp [hi]
    have hc : c < s.manager.sessionCount := h.accounted.made i c (by rw [hi]; rfl)
    grind [client, @h.setSender]
  | checked c data =>
    grind [@h.push]
  | pushed c =>
    grind [@h.trigger]

end Invariant

end Sending

section Serving

theorem Spares.setSession {u : UserData κ} (hqueue : u.dataQueue = (m.sessions c).dataQueue)
    (hclosed : u.closed = false → (m.sessions c).closed = false) : Spares m (m.setSession c u) := by
  refine ⟨rfl, rfl, ?_, ?_⟩
  · intro d
    by_cases hd : d = c
    · rw [hd, setSession_self, hqueue]
    · rw [m.setSession_of_ne hd]
  · intro d hopen
    by_cases hd : d = c
    · rw [hd, setSession_self] at hopen
      rw [hd]
      exact hclosed hopen
    · rwa [m.setSession_of_ne hd] at hopen

/-- A session that a callback closes. -/
theorem closeIfReasonEmpty_spec (u : UserData κ) (reason : Bytes) :
    ((u.setThreadStop true).closeIfReasonEmpty reason).dataQueue = u.dataQueue ∧
      ((u.setThreadStop true).closeIfReasonEmpty reason).wsi = u.wsi ∧
      (((u.setThreadStop true).closeIfReasonEmpty reason).closed = false → u.closed = false) := by
  unfold closeIfReasonEmpty
  split
  · exact ⟨rfl, rfl, fun h => absurd h (by simp)⟩
  · exact ⟨rfl, rfl, fun h => h⟩

theorem Leaves.setSession {u : UserData κ} (hqueue : u.dataQueue = (m.sessions c).dataQueue)
    (haddress : u.wsi = (m.sessions c).wsi)
    (hclosed : u.closed = false → (m.sessions c).closed = false) : Leaves m (m.setSession c u) :=
  ⟨.setSession hqueue hclosed, address_setSession haddress, rfl, rfl⟩

theorem leaves_stopIfClosed (m : Manager κ) : Leaves m m.stopIfClosed := by
  unfold stopIfClosed
  split <;> exact ⟨⟨rfl, rfl, fun _ => rfl, fun _ h => h⟩, fun _ => rfl, rfl, rfl⟩

theorem leaves_setUserData (m : Manager κ) (u : UserData κ) : Leaves m { m with userData := u } :=
  ⟨⟨rfl, rfl, fun _ => rfl, fun _ h => h⟩, fun _ => rfl, rfl, rfl⟩

theorem leaves_lwsCallbackWsPeerInitiatedCloseServer (m : Manager κ) (wsi : κ) (payload : Bytes)
    (ret : Int) : Leaves m (m.lwsCallbackWsPeerInitiatedCloseServer wsi payload ret).2 := by
  unfold lwsCallbackWsPeerInitiatedCloseServer
  split
  · cases m.userDataMap wsi with
    | none => exact (leaves_setUserData m _).trans (.of_keeps (keeps_httpDummy _ ret))
    | some d =>
      have hclosed (code : UInt32) (reason : Bytes) :
          Leaves m (m.setSession d ((m.sessions d).close code reason)) :=
        .setSession rfl rfl fun h => absurd h (by simp [close])
      exact (hclosed _ _).trans (.of_keeps (keeps_httpDummy _ ret))
  · exact (leaves_setUserData m _).trans (.of_keeps (keeps_httpDummy _ ret))

theorem leaves_addConnections (m : Manager κ) (id : Bytes) (wsi : κ)
    (connection : WebSocketConnection) : Leaves m (m.addConnections id wsi connection) := by
  unfold addConnections
  split <;> exact ⟨⟨rfl, rfl, fun _ => rfl, fun _ h => h⟩, fun _ => rfl, rfl, rfl⟩

theorem writeFirst_eq_none : m.writeFirst c = none ↔ (m.sessions c).dataQueue = [] := by
  unfold writeFirst pop
  cases (m.sessions c).dataQueue <;> simp

theorem writeFirst_spec {m' : Manager κ} (h : m.writeFirst c = some m') :
    ∃ data rest, (m.sessions c).dataQueue = data :: rest ∧
      m'.sessions = (m.setSession c { m.sessions c with dataQueue := rest }).sessions ∧
      m'.written = update m.written c (m.written c ++ [data]) ∧
      m'.sessionCount = m.sessionCount ∧ m'.userDataMap = m.userDataMap ∧
      m'.writables = m.writables := by
  unfold writeFirst pop at h
  cases hqueue : (m.sessions c).dataQueue with
  | nil => simp [hqueue] at h
  | cons data rest =>
    simp only [hqueue, List.head?_cons, List.tail_cons, some.injEq] at h
    subst h
    exact ⟨data, rest, rfl, rfl, rfl, rfl, rfl, rfl⟩

section

variable [DecidableEq κ]

theorem keeps_closeClient (m : Manager κ) (wsi : κ) (c : Nat) :
    (m.setSession c (((m.sessions c).setThreadStop true).closeIfReasonEmpty linkDown)).Keeps
      (m.closeClient wsi c) := by
  unfold closeClient
  dsimp only
  split
  · exact (keeps_onServerError _ _).trans (keeps_onServerClose _ _ _ _)
  · exact keeps_onServerClose _ _ _ _

/-- The callback for a closed connection takes the session away from it. -/
theorem lwsCallbackClosed_spec (m : Manager κ) (wsi : κ) (ret : Int) :
    Spares m (m.lwsCallbackClosed wsi ret).2 ∧
      (∀ c, ((m.lwsCallbackClosed wsi ret).2.sessions c).wsi = (m.sessions c).wsi) ∧
      (m.lwsCallbackClosed wsi ret).2.userDataMap = update m.userDataMap wsi none ∧
      (m.lwsCallbackClosed wsi ret).2.writables = m.writables := by
  unfold lwsCallbackClosed
  cases h : m.userDataMap wsi with
  | none =>
    have hleaves := Leaves.of_keeps (keeps_onServerError m commonErrorCode)
    have hmap : update m.userDataMap wsi none = m.userDataMap := by
      rw [← h, update_eq_self]
    exact ⟨hleaves.toSpares, hleaves.address, hleaves.userDataMap.trans hmap.symm,
      hleaves.writables⟩
  | some c =>
    obtain ⟨hqueue, haddress, hclosed⟩ := closeIfReasonEmpty_spec (m.sessions c) linkDown
    let removed := ((m.closeClient wsi c).removeConnections
      (m.clearWebSocketConnection wsi)).removeClientUserData wsi
    have hbefore := (Leaves.setSession hqueue haddress hclosed).trans
      (.of_keeps (keeps_closeClient m wsi c))
    have hremoved : Spares (m.closeClient wsi c) removed := ⟨rfl, rfl, fun _ => rfl, fun _ h => h⟩
    have hafter := (leaves_stopIfClosed removed).trans
      (.of_keeps (keeps_httpDummy removed.stopIfClosed ret))
    refine ⟨hbefore.toSpares.trans (hremoved.trans hafter.toSpares), ?_, ?_, ?_⟩
    · exact fun d => (hafter.address d).trans (hbefore.address d)
    · rw [hafter.userDataMap]
      exact congrArg (fun f => update f wsi none) hbefore.userDataMap
    · exact hafter.writables.trans hbefore.writables

/-- Before a connection is established its address has no session that is live. -/
theorem Assigned.bind (h : s.Assigned) (hlive : s.live wsi = false)
    (peer : Option WebSocketConnection) : (s.bind wsi peer).Assigned := by
  have hold : ∀ {wsi' c}, wsi' ≠ wsi → (s.bind wsi peer).manager.userDataMap wsi' = some c →
      s.manager.userDataMap wsi' = some c ∧ c < s.manager.sessionCount := by
    intro wsi' c hne hc
    have hsession := (s.manager.addClientUserData_of_ne hne).symm.trans hc
    exact ⟨hsession, h.made wsi' c hsession⟩
  refine ⟨?_, ?_, ?_, ?_⟩
  · intro wsi' c hc
    by_cases hne : wsi' = wsi
    · subst hne
      rw [addClientUserData_self.mp hc]
      exact Nat.lt_succ_self _
    · exact (hold hne hc).2.trans (Nat.lt_succ_self _)
  · intro wsi₁ wsi₂ c h₁ h₂
    by_cases hne₁ : wsi₁ = wsi <;> by_cases hne₂ : wsi₂ = wsi
    · rw [hne₁, hne₂]
    · subst hne₁
      exact absurd (addClientUserData_self.mp h₁) (Nat.ne_of_lt (hold hne₂ h₂).2)
    · subst hne₂
      exact absurd (addClientUserData_self.mp h₂) (Nat.ne_of_lt (hold hne₁ h₁).2)
    grind [@h.own]
  · intro wsi' c hlive' hc
    have hne : wsi' ≠ wsi := by
      rintro rfl
      exact Bool.noConfusion (hlive.symm.trans hlive')
    obtain ⟨hsession, hlt⟩ := hold hne hc
    rw [System.bind, s.manager.addClientUserData_session_of_ne wsi (Nat.ne_of_lt hlt)]
    exact h.address wsi' c hlive' hsession
  · refine ⟨addClientUserData_self.mpr rfl, hlive, ?_⟩
    exact congrArg UserData.wsi (s.manager.addClientUserData_session wsi)

theorem Accounted.bind (h : s.Accounted) (wsi : κ)
    (peer : Option WebSocketConnection) : (s.bind wsi peer).Accounted := by
  refine ⟨?_, ?_, ?_⟩
  · intro i c hc
    exact (h.made i c hc).trans (Nat.lt_succ_self _)
  · intro c hc
    exact h.unmade c ((Nat.le_succ _).trans hc)
  · intro c
    by_cases hc : c = s.manager.sessionCount
    · obtain ⟨hposted, hwritten⟩ := h.unmade c (Nat.le_of_eq hc.symm)
      subst hc
      rw [System.bind, addClientUserData_session]
      exact (congrArg (· ++ []) hwritten).trans hposted.symm
    · rw [System.bind, s.manager.addClientUserData_session_of_ne wsi hc]
      exact h.inOrder c

/-- A writable callback that writes nothing. -/
theorem keeps_lwsCallbackServerWriteable
    (h : ∀ c, m.userDataMap wsi = some c → m.userData.threadStop = true ∨
      (m.sessions c).closed = true ∨ (m.sessions c).dataQueue = []) (ret : Int) :
    m.Keeps (m.lwsCallbackServerWriteable wsi ret).2 := by
  unfold lwsCallbackServerWriteable
  split
  · exact .refl m
  rename_i hstop
  cases hsession : m.userDataMap wsi with
  | none => exact keeps_onServerError m commonErrorCode
  | some c =>
    dsimp only
    split
    · exact ⟨rfl, rfl, rfl, rfl, rfl, rfl, rfl⟩
    rename_i hclosed
    have hqueue := ((h c hsession).resolve_left hstop).resolve_left hclosed
    rw [writeFirst_eq_none.mpr hqueue]
    exact keeps_httpDummy m ret

theorem Spares.takeWritable (m : Manager κ) (wsi : κ) : Spares m (m.takeWritable wsi) :=
  ⟨rfl, rfl, fun _ => rfl, fun _ h => h⟩

theorem triggerRest_spec (m : Manager κ) (c : Nat) :
    Spares m (m.triggerRest c) ∧ (m.triggerRest c).sessions = m.sessions ∧
      (m.triggerRest c).userDataMap = m.userDataMap ∧
      ∀ wsi, m.writables wsi = true → (m.triggerRest c).writables wsi = true := by
  unfold triggerRest
  split
  · exact ⟨⟨rfl, rfl, fun _ => rfl, fun _ h => h⟩, rfl, rfl, fun _ h => h⟩
  · exact ⟨⟨rfl, rfl, fun _ => rfl, fun _ h => h⟩, rfl, rfl,
      fun _ h => m.userData.triggerWritable_of_pending h⟩

/-- A writable callback of an open session finds at most one message. -/
def Uncrowded (s : System κ ι) : Event κ ι → Prop
  | .callback (.serverWriteable wsi) _ =>
    ∀ c ∈ s.manager.userDataMap wsi, (s.manager.sessions c).closed = false →
      (s.manager.sessions c).dataQueue.length ≤ 1
  | _ => True

instance (s : System κ ι) (e : Event κ ι) : Decidable (s.Uncrowded e) := by
  unfold Uncrowded
  split <;> infer_instance

end

namespace Invariant

variable (h : s.Invariant)
include h

/-- The connection that is being established is listed. -/
theorem list
    {connection : WebSocketConnection} (hservice : s.service = .bound wsi c (some connection)) :
    (s.list wsi c connection).Invariant := by
  have hleaves := leaves_addConnections s.manager connection.clientId wsi connection
  have hfits := h.assigned.fits
  rw [hservice] at hfits
  obtain ⟨hsession, hlive, hnone⟩ := hfits
  refine h.serve hleaves.toSpares (.listed wsi c) hleaves.userDataMap ?_ ?_ ?_ ?_
  · exact fun wsi' => (congrFun hleaves.writables wsi').trans
  · intro d
    rw [hservice]
    exact Iff.rfl
  · exact fun wsi' d hlive hd => (hleaves.address d).trans (h.assigned.address wsi' d hlive hd)
  · exact ⟨(congrFun hleaves.userDataMap wsi).trans hsession, hlive,
      (hleaves.address c).trans hnone⟩

/-- The session of the connection that is being established gets its address. -/
theorem address (hservice : s.service = .listed wsi c) : (s.address wsi c).Invariant := by
  have hspares : Spares s.manager (s.manager.setClientLws c wsi) :=
    Spares.setSession rfl fun hopen => hopen
  have hfits := h.assigned.fits
  rw [hservice] at hfits
  obtain ⟨hsession, hlive, -⟩ := hfits
  refine h.serve hspares (.addressed wsi c) rfl (fun _ hp => hp) ?_ ?_ ?_
  · intro d
    rw [hservice]
    exact Iff.rfl
  · intro wsi' d hlive' hd
    have hne : d ≠ c := by
      rintro rfl
      rw [h.assigned.own wsi' wsi d hd hsession] at hlive'
      exact Bool.noConfusion (hlive.symm.trans hlive')
    rw [setClientLws, s.manager.setSession_of_ne hne]
    exact h.assigned.address wsi' d hlive' hd
  · refine ⟨hsession, hlive, ?_⟩
    rw [setClientLws, setSession_self]
    rfl

/-- The service thread ends a callback that did not establish a connection. -/
theorem finish (hservice : ∀ c, ¬ s.service.Owes c) (hm : Spares s.manager m)
    (hsessions : m.sessions = s.manager.sessions) (hmap : m.userDataMap = s.manager.userDataMap)
    (hwritables : ∀ wsi, s.manager.writables wsi = true → m.writables wsi = true) :
    Invariant { s with manager := m, service := .idle } := by
  refine h.serve hm .idle hmap hwritables (fun c => ⟨False.elim, hservice c⟩) ?_ trivial
  intro wsi c hlive hc
  rw [hsessions]
  exact h.assigned.address wsi c hlive hc

variable [DecidableEq κ]

/-- The callback for an established connection requests a writable callback and ends. -/
theorem establish
    (hservice : s.service = .addressed wsi c) (ret : Int) : (s.establish wsi c ret).Invariant := by
  have hkeeps : (s.manager.triggerClient c).Keeps (s.establish wsi c ret).manager :=
    (keeps_onConnect _ wsi).trans (keeps_httpDummy _ ret)
  have hspares := (Spares.triggerClient s.manager c).trans (.of_keeps hkeeps)
  have hfits := h.assigned.fits
  rw [hservice] at hfits
  obtain ⟨hsession, hlive, haddress⟩ := hfits
  have hlive' : ∀ {wsi'}, wsi' ≠ wsi → (s.establish wsi c ret).live wsi' = true →
      s.live wsi' = true := by
    intro wsi' hne hwsi
    simpa [System.establish, hne] using hwsi
  refine ⟨?_, h.accounted.of_spares hspares rfl h.accounted.made, ?_⟩
  · apply h.assigned.of_map hkeeps.userDataMap hspares.sessionCount
    · intro wsi' d hwsi hd
      rw [hkeeps.sessions]
      by_cases hne : wsi' = wsi
      · subst hne
        obtain rfl := some.inj (hsession.symm.trans hd)
        exact haddress
      · exact h.assigned.address wsi' d (hlive' hne hwsi) hd
    · trivial
  · rintro wsi' d ⟨hd, hd'⟩ hclosed
    rw [hkeeps.userDataMap] at hd
    have hwsi : (s.establish wsi c ret).live wsi' = true := hd'.resolve_right fun howes => howes
    by_cases hne : wsi' = wsi
    · subst hne
      obtain rfl := some.inj (hsession.symm.trans hd)
      intro _
      apply Or.inl
      exact (congrFun hkeeps.writables wsi').trans (triggerWritable_self haddress _)
    · have hdc : d ≠ c := by
        rintro rfl
        exact hne (h.assigned.own wsi' wsi d hd hsession)
      have hold := h.noticed wsi' d ⟨hd, Or.inl (hlive' hne hwsi)⟩
        (hspares.closed d hclosed)
      apply hold.of_grants
      refine ⟨hspares.dataQueue d, fun hp => ?_, ?_⟩
      · exact (congrFun hkeeps.writables wsi').trans (triggerWritable_of_pending _ hp)
      intro p hp
      cases p with
      | some i => exact hp
      | none =>
        have howes : s.service.Owes d := hp
        rw [hservice] at howes
        exact absurd howes.symm hdc

/-- A writable callback that finds nothing to write. -/
theorem pause (hsession : s.manager.userDataMap wsi = some c)
    (hqueue : (s.manager.sessions c).dataQueue = [])
    (hm : (s.manager.takeWritable wsi).Keeps m) : Invariant { s with manager := m } := by
  have hspares := (Spares.takeWritable s.manager wsi).trans (.of_keeps hm)
  refine ⟨?_, h.accounted.of_spares hspares rfl h.accounted.made, ?_⟩
  · apply h.assigned.of_same (t := { s with manager := m }) hm.userDataMap hm.sessionCount rfl rfl
    exact fun d => congrArg (fun sessions => (sessions d).wsi) hm.sessions
  · rintro wsi' d ⟨hd, hlive⟩ hclosed
    have hd' : s.manager.userDataMap wsi' = some d := (congrFun hm.userDataMap wsi').symm.trans hd
    by_cases hne : wsi' = wsi
    · subst hne
      obtain rfl := some.inj (hsession.symm.trans hd')
      intro hmore
      exact absurd ((hspares.dataQueue c).trans hqueue) hmore
    · apply (h.noticed wsi' d ⟨hd', hlive⟩ (hspares.closed d hclosed)).of_grants
      refine ⟨hspares.dataQueue d, fun hp => ?_, ?_⟩
      · exact (congrFun hm.writables wsi').trans ((s.manager.takeWritable_of_ne hne).trans hp)
      · exact owing_subset s { s with manager := m } rfl (fun _ howes => howes) d

theorem resume {ret : Int}
    (hstep : s.resume ret = some t) : t.Invariant := by
  unfold System.resume at hstep
  cases hservice : s.service with
  | idle => simp [hservice] at hstep
  | bound wsi c peer =>
    rw [hservice] at hstep
    cases peer with
    | none =>
      cases hstep
      have hkeeps := keeps_onServerError s.manager commonErrorCode
      apply h.finish _ (.of_keeps hkeeps) hkeeps.sessions hkeeps.userDataMap
      · exact fun wsi' => (congrFun hkeeps.writables wsi').trans
      · intro d
        rw [hservice]
        exact id
    | some connection =>
      grind [@h.list]
  | listed wsi c =>
    rw [hservice] at hstep
    cases hstep
    exact h.address hservice
  | addressed wsi c =>
    rw [hservice] at hstep
    cases hstep
    exact h.establish hservice ret
  | wrote wsi c =>
    rw [hservice] at hstep
    cases hstep
    obtain ⟨hspares, hsessions, hmap, hwritables⟩ := triggerRest_spec s.manager c
    have hkeeps := keeps_httpDummy (s.manager.triggerRest c) ret
    apply h.finish _ (hspares.trans (.of_keeps hkeeps)) (hkeeps.sessions.trans hsessions)
      (hkeeps.userDataMap.trans hmap)
    · exact fun wsi' hp => (congrFun hkeeps.writables wsi').trans (hwritables wsi' hp)
    · intro d
      rw [hservice]
      exact id

variable (hservice : s.service = .idle)
include hservice

/-- A new session is bound to a connection that is being established. -/
theorem bind (hlive : s.live wsi = false) (peer : Option WebSocketConnection) :
    (s.bind wsi peer).Invariant := by
  refine ⟨h.assigned.bind hlive peer, h.accounted.bind wsi peer, ?_⟩
  intro wsi' c hc hclosed
  by_cases hne : wsi' = wsi
  · subst hne
    rw [addClientUserData_self.mp hc.1]
    intro hqueue
    exact absurd (congrArg dataQueue (s.manager.addClientUserData_session wsi')) hqueue
  · have hsession := (s.manager.addClientUserData_of_ne hne).symm.trans hc.1
    have hlt := Nat.ne_of_lt (h.assigned.made wsi' c hsession)
    have hsame := s.manager.addClientUserData_session_of_ne wsi hlt
    have hlive' : s.live wsi' = true := by
      rcases hc.2 with hlive' | howes
      · exact hlive'
      · cases peer with
        | none => exact howes.elim
        | some connection => exact absurd howes.symm hlt
    rw [System.bind, hsame] at hclosed
    apply (h.noticed wsi' c ⟨hsession, Or.inl hlive'⟩ hclosed).of_grants
    refine ⟨congrArg dataQueue hsame, fun hp => hp, ?_⟩
    apply owing_subset s (s.bind wsi peer) rfl
    intro d howes
    rw [hservice] at howes
    exact howes.elim

/-- A connection is no longer live. -/
theorem drop (hm : Spares s.manager m)
    (haddress : ∀ c, (m.sessions c).wsi = (s.manager.sessions c).wsi)
    (hmap : ∀ wsi' c, m.userDataMap wsi' = some c → s.manager.userDataMap wsi' = some c)
    (hwritables : ∀ wsi', wsi' ≠ wsi → s.manager.writables wsi' = true →
      m.writables wsi' = true) : (s.drop wsi m).Invariant := by
  have hlive : ∀ {wsi'}, (s.drop wsi m).live wsi' = true → wsi' ≠ wsi ∧ s.live wsi' = true := by
    intro wsi' hwsi
    by_cases hne : wsi' = wsi
    · simp [System.drop, hne] at hwsi
    · exact ⟨hne, by simpa [System.drop, hne] using hwsi⟩
  refine ⟨⟨?_, ?_, ?_, ?_⟩, h.accounted.of_spares hm rfl h.accounted.made, ?_⟩
  · intro wsi' c hc
    rw [System.drop, hm.sessionCount]
    exact h.assigned.made wsi' c (hmap wsi' c hc)
  · intro wsi₁ wsi₂ c h₁ h₂
    exact h.assigned.own wsi₁ wsi₂ c (hmap wsi₁ c h₁) (hmap wsi₂ c h₂)
  · intro wsi' c hwsi hc
    rw [System.drop, haddress]
    exact h.assigned.address wsi' c (hlive hwsi).2 (hmap wsi' c hc)
  · rw [System.drop, hservice]
    trivial
  · apply h.noticed.of_spares hm
    · rintro wsi' c ⟨hc, hwsi | howes⟩
      · obtain ⟨hne, hwsi'⟩ := hlive hwsi
        exact ⟨⟨hmap wsi' c hc, Or.inl hwsi'⟩, hwritables wsi' hne⟩
      · rw [System.drop, hservice] at howes
        exact howes.elim
    · exact owing_subset s (s.drop wsi m) rfl fun c howes => howes

/-- A writable callback takes the only message there is. -/
theorem write (hlive : s.live wsi = true) (hsession : s.manager.userDataMap wsi = some c)
    (hwrite : (s.manager.takeWritable wsi).writeFirst c = some m)
    (halone : (s.manager.sessions c).dataQueue.length ≤ 1) :
    Invariant { s with manager := m, service := .wrote wsi c } := by
  obtain ⟨data, rest, hqueue, hsessions, hwritten, hcount, hmap, hwritables⟩ :=
    writeFirst_spec hwrite
  have hqueue' : (s.manager.sessions c).dataQueue = data :: rest := hqueue
  have hrest : rest = [] := by
    rw [hqueue'] at halone
    exact List.eq_nil_of_length_eq_zero (by simpa using halone)
  have hself : (m.sessions c).dataQueue = rest := by
    rw [hsessions, setSession_self]
  have hother : ∀ {d}, d ≠ c → m.sessions d = s.manager.sessions d := by
    intro d hd
    rw [hsessions, setSession_of_ne _ hd]
    rfl
  have hc := h.assigned.made wsi c hsession
  refine ⟨?_, ⟨?_, ?_, ?_⟩, ?_⟩
  · apply h.assigned.of_map (t := { s with manager := m, service := .wrote wsi c }) hmap hcount
    · intro wsi' d hlive' hd
      rw [hsessions, address_setSession]
      · exact h.assigned.address wsi' d hlive' hd
      · rfl
    · trivial
  · intro i d hd
    rw [hcount]
    exact h.accounted.made i d hd
  · intro d hd
    rw [hcount] at hd
    have hne : d ≠ c := fun heq => absurd hc (Nat.not_lt.mpr (heq ▸ hd))
    rw [hwritten, update_of_ne hne]
    exact h.accounted.unmade d hd
  · intro d
    rw [hwritten]
    by_cases hd : d = c
    · subst hd
      have horder := InOrder.take (m := s.mailbox wsi d) (h.accounted.inOrder d) none
      simpa [InOrder, take, mailbox, hqueue', hself, takeWritable]
        using horder
    · rw [update_of_ne hd, hother hd]
      exact h.accounted.inOrder d
  · rintro wsi' d ⟨hd, hlive'⟩ hclosed
    have hd' : s.manager.userDataMap wsi' = some d := (congrFun hmap wsi').symm.trans hd
    by_cases hdc : d = c
    · subst hdc
      apply (noticed_excuse (m := (s.mailbox wsi' d).take none) (i := none)
        (Or.inl (by simp [take, mailbox, hqueue', hrest]))).of_grants
      refine ⟨?_, False.elim, ?_⟩
      · simp [mailbox, take, excuse, hqueue', hself]
      · rintro p ⟨rfl | hp, hne⟩
        · exact absurd rfl hne
        · cases p with
          | none => exact absurd rfl hne
          | some i => exact hp
    · have hne : wsi' ≠ wsi := by
        rintro rfl
        exact hdc (some.inj (hd'.symm.trans hsession))
      have hwsi : s.live wsi' = true := hlive'.resolve_right fun howes => howes
      have hopen : (s.manager.sessions d).closed = false := hother hdc ▸ hclosed
      apply (h.noticed wsi' d ⟨hd', Or.inl hwsi⟩ hopen).of_grants
      refine ⟨congrArg dataQueue (hother hdc), fun hp => ?_, ?_⟩
      · calc
          m.writables wsi' = (s.manager.takeWritable wsi).writables wsi' := by rw [hwritables]
          _ = s.manager.writables wsi' := s.manager.takeWritable_of_ne hne
          _ = true := hp
      · exact owing_subset s { s with manager := m, service := .wrote wsi c } rfl
          (fun e howes => by rw [hservice] at howes; exact howes) d

/-- A writable callback upon which the connection is closed. -/
theorem refuse (hm : (s.manager.takeWritable wsi).Keeps m) : (s.drop wsi m).Invariant := by
  apply h.drop hservice ((Spares.takeWritable s.manager wsi).trans (.of_keeps hm))
  · exact fun c => congrArg (fun sessions => (sessions c).wsi) hm.sessions
  · exact fun wsi' c hc => (congrFun hm.userDataMap wsi').symm.trans hc
  · intro wsi' hne hp
    rw [hm.writables, s.manager.takeWritable_of_ne hne]
    exact hp

theorem writeable (hlive : s.live wsi = true)
    (halone : ∀ c, s.manager.userDataMap wsi = some c → (s.manager.sessions c).closed = false →
      (s.manager.sessions c).dataQueue.length ≤ 1) (ret : Int) :
    (s.writeable wsi ret).Invariant := by
  unfold System.writeable
  cases hsession : s.manager.userDataMap wsi with
  | none =>
    apply h.refuse hservice (keeps_lwsCallbackServerWriteable _ ret)
    intro c hc
    exact absurd (hsession.symm.trans hc) (by simp)
  | some c =>
    dsimp only
    split
    · rename_i hrefused
      apply h.refuse hservice (keeps_lwsCallbackServerWriteable _ ret)
      intro d hd
      obtain rfl := some.inj (hsession.symm.trans hd)
      exact hrefused.imp_right Or.inl
    · rename_i hopen
      obtain ⟨-, hclosed⟩ := not_or.mp hopen
      cases hwrite : (s.manager.takeWritable wsi).writeFirst c with
      | none =>
        have hqueue := (writeFirst_eq_none (m := s.manager.takeWritable wsi)).mp hwrite
        apply h.pause hsession hqueue (keeps_lwsCallbackServerWriteable _ ret)
        intro d hd
        obtain rfl := some.inj (hsession.symm.trans hd)
        exact Or.inr (Or.inr hqueue)
      | some m =>
        grind [@h.write]

theorem callback {cb : Callback κ} {ret : Int} (halone : s.Uncrowded (.callback cb ret))
    (hstep : s.callback cb ret = some t) : t.Invariant := by
  cases cb with
  | filterProtocolConnection peer now =>
    cases hstep
    exact h.of_leaves (.of_keeps (keeps_lwsCallbackFilterProtocolConnection s.manager peer now ret))
  | established wsi peer =>
    obtain ⟨hlive, hbind⟩ := ite_none_left_eq_some.mp hstep
    grind [@h.bind]
  | receive wsi data isBinary isFinal =>
    cases hstep
    exact h.of_leaves (.of_keeps (keeps_lwsCallbackReceive s.manager wsi data isBinary isFinal ret))
  | serverWriteable wsi =>
    obtain ⟨⟨hlive, -⟩, hwrite⟩ := ite_none_right_eq_some.mp hstep
    cases hwrite
    exact h.writeable hservice hlive halone ret
  | wsPeerInitiatedClose wsi payload =>
    cases hstep
    exact h.of_leaves (leaves_lwsCallbackWsPeerInitiatedCloseServer s.manager wsi payload ret)
  | closed wsi =>
    cases hstep
    obtain ⟨hspares, haddress, hmap, hwritables⟩ := lwsCallbackClosed_spec s.manager wsi ret
    apply h.drop hservice hspares haddress
    · intro wsi' c hc
      rw [hmap] at hc
      by_cases hne : wsi' = wsi
      · simp [hne] at hc
      · rwa [update_of_ne hne] at hc
    · exact fun wsi' _ => (congrFun hwritables wsi').trans
  | wsiDestroy =>
    cases hstep
    exact h.of_leaves ((leaves_setUserData s.manager _).trans (.of_keeps (keeps_httpDummy _ ret)))
  | protocolDestroy =>
    cases hstep
    exact h.of_leaves (.of_keeps (keeps_httpDummy s.manager ret))

end Invariant

end Serving

/-- While no send is in progress, a message of an open client that is not written yet will be
written by a writable callback that is pending. -/
structure Delivers (s : System κ ι) : Prop where
  inOrder : ∀ c, s.manager.written c ++ (s.manager.sessions c).dataQueue = s.posted c
  pending : (∀ i, s.sender i = .idle) → ∀ wsi c, s.live wsi = true →
    s.manager.userDataMap wsi = some c → (s.manager.sessions c).closed = false →
      (s.manager.sessions c).dataQueue ≠ [] → s.manager.writables wsi = true
  allWritten : (∀ i, s.sender i = .idle) → ∀ wsi c, s.live wsi = true →
    s.manager.userDataMap wsi = some c → (s.manager.sessions c).closed = false →
      s.manager.writables wsi = false → s.manager.written c = s.posted c

/-- The session of a live connection is not that of one being established. -/
theorem Assigned.not_owes (h : s.Assigned)
    (hlive : s.live wsi = true) (hc : s.manager.userDataMap wsi = some c) : ¬ s.service.Owes c := by
  have hfits := h.fits
  have hclash : ∀ wsi', s.manager.userDataMap wsi' = some c → s.live wsi' = false → False := by
    grind [@h.own]
  intro howes
  cases hservice : s.service with
  | idle | wrote =>
    rw [hservice] at howes
    exact howes
  | bound wsi' d peer =>
    rw [hservice] at howes hfits
    cases peer with
    | none => exact howes
    | some connection => exact hclash wsi' (howes ▸ hfits.1) hfits.2.1
  | listed wsi' d | addressed wsi' d =>
    rw [hservice] at howes hfits
    exact hclash wsi' (howes ▸ hfits.1) hfits.2.1

theorem Invariant.delivers (h : s.Invariant) : s.Delivers := by
  have howing : (∀ i, s.sender i = .idle) → ∀ {wsi c}, s.live wsi = true →
      s.manager.userDataMap wsi = some c → s.owing c = ∅ := by
    intro hidle wsi c hlive hc
    apply Set.eq_empty_of_forall_notMem
    intro p hp
    cases p with
    | some i =>
      have hi : s.sender i = .pushed c := hp
      rw [hidle i] at hi
      cases hi
    | none => exact h.assigned.not_owes hlive hc hp
  refine ⟨h.accounted.inOrder, ?_, ?_⟩
  · intro hidle wsi c hlive hc hclosed hqueue
    rcases h.noticed wsi c ⟨hc, Or.inl hlive⟩ hclosed hqueue with hpending | hnonempty
    · exact hpending
    · exact absurd (howing hidle hlive hc) hnonempty.ne_empty
  · intro hidle wsi c hlive hc hclosed hpending
    apply taken_eq_posted (m := s.mailbox wsi c) (h.accounted.inOrder c)
      (h.noticed wsi c ⟨hc, Or.inl hlive⟩ hclosed)
    · exact fun hcall => Bool.noConfusion (hpending.symm.trans hcall)
    · exact howing hidle hlive hc

variable [DecidableEq κ] [DecidableEq ι]

theorem Invariant.step (h : s.Invariant) {e : Event κ ι} (halone : s.Uncrowded e)
    (hstep : s.step e = some t) : t.Invariant := by
  cases e with
  | send i connection data =>
    obtain ⟨hidle, hsend⟩ := ite_none_right_eq_some.mp hstep
    grind [client, @h.setSender]
  | proceed i => exact h.proceed hstep
  | callback cb ret =>
    obtain ⟨hservice, hcall⟩ := ite_none_right_eq_some.mp hstep
    exact h.callback hservice halone hcall
  | resume ret => exact h.resume hstep

variable (maxConnClientCnt maxConnForOneClient : UInt32)

/-- The server as `StartService` leaves it, with no send in progress. -/
def start : System κ ι :=
  { manager := startService maxConnClientCnt maxConnForOneClient }

omit [DecidableEq κ] [DecidableEq ι] in
theorem invariant_start : (start maxConnClientCnt maxConnForOneClient : System κ ι).Invariant := by
  refine ⟨⟨?_, ?_, ?_, trivial⟩, ⟨?_, ?_, ?_⟩, ?_⟩
  · exact fun wsi c hc => absurd hc (some_ne_none c).symm
  · exact fun wsi wsi' c hc => absurd hc (some_ne_none c).symm
  · exact fun wsi c hlive => Bool.noConfusion hlive
  · exact fun i c hc => absurd hc (some_ne_none c).symm
  · exact fun c _ => ⟨rfl, rfl⟩
  · exact fun c => rfl
  · exact fun wsi c hc => absurd hc.1 (some_ne_none c).symm

/-- In any interleaving of sends and callbacks in which no writable callback finds more than one
message, every message of an open client is written in its turn. -/
theorem messages_delivered (events : List (Event κ ι))
    (hmeets : Meets step Uncrowded events (start maxConnClientCnt maxConnForOneClient)) :
    Throughout step Delivers events (start maxConnClientCnt maxConnForOneClient) := by
  apply throughout_of_meets (J := Invariant)
  · exact fun s e t hs halone hstep => hs.step halone hstep
  · exact fun s hs => hs.delivers
  · exact invariant_start maxConnClientCnt maxConnForOneClient
  · exact hmeets

/-- A client connects on the address 7. -/
def sampleArrival : List (Event Nat Bool) :=
  [.callback (.established 7 (some samplePeer)) 0, .resume 0, .resume 0, .resume 0]

/-- A thread sends a text to that client, from the call to its return. -/
def sampleSend (i : Bool) (text : String) : List (Event Nat Bool) :=
  [.send i samplePeer ⟨ascii text, .text⟩, .proceed i, .proceed i, .proceed i, .proceed i,
    .proceed i]

/-- The writable callback of that client. -/
def sampleWrite : List (Event Nat Bool) :=
  [.callback (.serverWriteable 7) 0, .resume 0]

/-- Each of two messages is written before the next send. -/
def spacedSends : List (Event Nat Bool) :=
  sampleArrival ++ sampleSend true "one" ++ sampleWrite ++ sampleSend false "two" ++ sampleWrite

theorem spacedSends_delivered :
    Meets step Uncrowded spacedSends (start 10 10) ∧
      Throughout step Delivers spacedSends (start 10 10) :=
  have hmeets : Meets step Uncrowded spacedSends (start 10 10) := by
    decide +kernel
  ⟨hmeets, messages_delivered 10 10 spacedSends hmeets⟩

/-- Two messages are sent while one writable callback is pending. -/
def crowdedSends : List (Event Nat Bool) :=
  sampleArrival ++ sampleSend true "one" ++ sampleSend false "two" ++ sampleWrite

/-- The second message stays in the queue of an open client, and nothing will write it. -/
theorem crowdedSends_stuck :
    ¬ Throughout step Delivers crowdedSends (start 10 10) ∧
      ∃ s, crowdedSends.foldlM step (start 10 10) = some s ∧
        (s.service = .idle ∧ ∀ i, s.sender i = .idle) ∧
        (s.live 7 = true ∧ s.manager.userDataMap 7 = some 0) ∧
        (s.manager.sessions 0).closed = false ∧
        (s.manager.sessions 0).dataQueue = [⟨ascii "two", .text⟩] ∧
        s.manager.writables 7 = false := by
  refine (and_iff_right_of_imp ?_).mpr (by decide +kernel)
  rintro ⟨s, hs, ⟨-, hidle⟩, ⟨hlive, hmap⟩, hclosed, hqueue, hwritables⟩ hdelivers
  have hpending := (hdelivers.finish hs).pending hidle 7 0 hlive hmap hclosed (by simp [hqueue])
  exact Bool.noConfusion (hwritables.symm.trans hpending)

end System

end Netstack.WebSocket.ServerExec
