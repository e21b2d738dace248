import Netstack.TlsSocket.Authentication
import Netstack.Foundation.Execution

/-!
# The TLS sockets of a process

A `TLSSocket` owns a descriptor and its internal object. `Close` gives up the descriptor and leaves
the internal object as it is. All sockets of a process share the cache of certificates.
-/

namespace Netstack.TlsSocket

open Foundation Internal

structure TLSSocket (X : Type) where
  sockFd : Int := -1
  isExtSock : Bool := false
  internal : Internal X := {}

/-- What came of one call of `Connect`. -/
structure Connecting (X : Type) where
  success : Bool
  created : Option (Internal X) := none
  started : Option (Internal X) := none
  socket : TLSSocket X
  cache : CaCertCache

variable {X : Type}

namespace TLSSocket

/-- `sock` is the descriptor that `socket` returns, if it does. -/
def bind (sock : Option Int) (s : TLSSocket X) : TLSSocket X :=
  if 0 ≤ s.sockFd then s else { s with sockFd := sock.getD s.sockFd }

def connect [DecidableEq X] (env : Environment X) (options : TLSConnectOptions)
    (s : TLSSocket X) (cache : CaCertCache) : Connecting X :=
  if s.sockFd < 0 then { success := false, socket := s, cache }
  else if s.isExtSock && !env.setBlock then { success := false, socket := s, cache }
  else
    let h := s.internal.tlsConnectToHost env s.sockFd options s.isExtSock cache
    { success := h.success && env.setNoneBlock
      created := h.created
      started := h.started
      socket := { s with internal := h.internal }
      cache := h.cache }

def close (s : TLSSocket X) : TLSSocket X := { s with sockFd := -1 }

/-- A new object with the same descriptor. -/
def renewed (s : TLSSocket X) : TLSSocket X := { sockFd := s.sockFd, isExtSock := s.isExtSock }

end TLSSocket

/-- The sockets of the process by number, and the cache they share. -/
structure Process (X : Type) where
  sockets : Nat → TLSSocket X := fun _ => {}
  cache : CaCertCache := fun _ => ∅

inductive Operation (X : Type) where
  /-- A new object, with a descriptor from outside or without one. -/
  | create (i : Nat) (sockFd : Option Int)
  | bind (i : Nat) (sock : Option Int)
  | connect (i : Nat) (options : TLSConnectOptions) (env : Environment X)
  | send (i : Nat) (data : Bytes)
  | close (i : Nat)

namespace Process

def set (p : Process X) (i : Nat) (s : TLSSocket X) : Process X :=
  { p with sockets := Function.update p.sockets i s }

/-- Sending changes no member of the socket. -/
def step [DecidableEq X] (p : Process X) : Operation X → Option (Process X)
  | .create i none => some (p.set i {})
  | .create i (some fd) => some (p.set i { sockFd := fd, isExtSock := true })
  | .bind i sock => some (p.set i ((p.sockets i).bind sock))
  | .connect i options env =>
    let c := (p.sockets i).connect env options p.cache
    some { p.set i c.socket with cache := c.cache }
  | .send _ _ => some p
  | .close i => some (p.set i (p.sockets i).close)

end Process

/-! ### The course of a connection -/

variable {t : Internal X} {env : Environment X}

namespace Internal

/-- The context and the SSL object are there. -/
def Established (s : Internal X) : Prop := s.tlsContextPointer.isSome ∧ s.ssl.isSome

instance (s : Internal X) : Decidable s.Established :=
  inferInstanceAs (Decidable (_ ∧ _))

variable [DecidableEq X]

variable {s : Internal X}

theorem creatTlsContext_of_established (h : s.Established) (env : Environment X) :
    s.creatTlsContext env = (true, s) := by
  rw [creatTlsContext, if_pos (by simpa [Established] using h)]

/-- Otherwise a context is made from the configuration, and an SSL object on the descriptor. -/
theorem creatTlsContext_iff_of_not_established (h : ¬ s.Established)
    (env : Environment X) (t : Internal X) :
    s.creatTlsContext env = (true, t) ↔
      ∃ ctx, TLSContext.initTlsContext env s.configuration = some ctx ∧ env.sslNew = true ∧
        t = { s with tlsContextPointer := some ctx, ssl := some { fd := s.socketDescriptor } } := by
  rw [creatTlsContext, if_neg (by simpa [Established] using h)]
  grind

theorem established_of_creatTlsContext (h : s.creatTlsContext env = (true, t)) : t.Established := by
  by_cases hold : s.Established
  · grind [creatTlsContext_of_established]
  · obtain ⟨ctx, -, -, rfl⟩ := (creatTlsContext_iff_of_not_established hold env t).mp h
    exact ⟨rfl, rfl⟩

end Internal

variable {options : TLSConnectOptions}

namespace TLSSocket

/-- The call gets as far as the context. -/
def Admitted (env : Environment X) (options : TLSConnectOptions) (s : TLSSocket X) : Prop :=
  0 ≤ s.sockFd ∧ (s.isExtSock = true → env.setBlock = true) ∧
    (options.proxy = true ∨ s.isExtSock = true ∨ env.socketConnect = true)

instance (env : Environment X) (options : TLSConnectOptions) (s : TLSSocket X) :
    Decidable (s.Admitted env options) :=
  inferInstanceAs (Decidable (_ ∧ _))

variable [DecidableEq X]

/-- The object with which a call goes into the handshake. -/
def begun (env : Environment X) (options : TLSConnectOptions) (s : TLSSocket X) :
    Option (Internal X) :=
  if s.Admitted env options then
    match (s.internal.prepared s.sockFd options).creatTlsContext env with
    | (true, t) => some t
    | (false, _) => none
  else none

variable {s : TLSSocket X}

theorem begun_eq_some_iff : s.begun env options = some t ↔
      s.Admitted env options ∧
        (s.internal.prepared s.sockFd options).creatTlsContext env = (true, t) := by
  rw [begun]
  grind

theorem connect_of_admitted (h : s.Admitted env options) (cache : CaCertCache) :
    s.connect env options cache =
      let h := (s.internal.prepared s.sockFd options).startTlsConnected env options cache
      { success := h.success && env.setNoneBlock
        created := h.created
        started := h.started
        socket := { s with internal := h.internal }
        cache := h.cache } := by
  obtain ⟨hfd, hblock, hway⟩ := h
  have hflag : ¬ (s.isExtSock && !env.setBlock) = true := by
    simpa using hblock
  have hsock : ¬ (!options.proxy && !s.isExtSock && !env.socketConnect) = true := by
    grind
  rw [connect, if_neg (not_lt.mpr hfd), if_neg hflag, tlsConnectToHost]
  simp only [if_neg hsock]

/-- A call that does not go into the handshake fails, and keeps an SSL object that is there. -/
theorem connect_of_begun_none (h : s.begun env options = none) (cache : CaCertCache) :
    ∃ internal : Internal X,
      (s.internal.Established →
        internal.ssl = s.internal.ssl ∧
          internal.tlsContextPointer = s.internal.tlsContextPointer) ∧
      s.connect env options cache = { success := false, socket := { s with internal }, cache } := by
  by_cases hadmitted : s.Admitted env options
  · rw [connect_of_admitted hadmitted, startTlsConnected]
    rw [begun, if_pos hadmitted] at h
    have hkeep (hold : (s.internal.prepared s.sockFd options).Established) :=
      Internal.creatTlsContext_of_established hold env
    generalize (s.internal.prepared s.sockFd options).creatTlsContext env = answer at h hkeep
    rcases answer with ⟨_ | _, u⟩
    · exact ⟨u, fun hold => (Bool.false_ne_true (Prod.mk.inj (hkeep hold)).1).elim, rfl⟩
    · cases h
  · rw [connect]
    by_cases hfd : s.sockFd < 0
    · exact ⟨s.internal, fun _ => ⟨rfl, rfl⟩, by rw [if_pos hfd]⟩
    rw [if_neg hfd]
    by_cases hblock : (s.isExtSock && !env.setBlock) = true
    · exact ⟨s.internal, fun _ => ⟨rfl, rfl⟩, by rw [if_pos hblock]⟩
    rw [if_neg hblock, tlsConnectToHost]
    have hsock : (!options.proxy && !s.isExtSock && !env.socketConnect) = true := by
      by_contra hway
      apply hadmitted
      refine ⟨not_lt.mp hfd, by simpa using hblock, ?_⟩
      grind
    refine ⟨s.internal.prepared s.sockFd options, fun _ => ⟨rfl, rfl⟩, ?_⟩
    simp only [if_pos hsock, Bool.false_and]

theorem connect_of_begun (h : s.begun env options = some t) (cache : CaCertCache) :
    s.connect env options cache =
      let h := t.startShakingHands env options cache
      { success := h.success && env.setNoneBlock
        created := some t
        started := some (t.loadCached env options cache)
        socket := { s with internal := h.internal }
        cache := h.cache } := by
  obtain ⟨hadmitted, hcreate⟩ := begun_eq_some_iff.mp h
  have hssl : t.ssl ≠ none := Option.isSome_iff_ne_none.mp
    (Internal.established_of_creatTlsContext hcreate).2
  rw [connect_of_admitted hadmitted, startTlsConnected, hcreate]
  simp only [started_startShakingHands hssl]

variable (env)

section

variable (options)

variable (s) (cache : CaCertCache)

theorem created_connect
    : (s.connect env options cache).created = s.begun env options := by
  cases h : s.begun env options with
  | none =>
    obtain ⟨internal, -, hconnect⟩ := connect_of_begun_none h cache
    rw [hconnect]
  | some t => rw [connect_of_begun h]

theorem started_connect :
    (s.connect env options cache).started =
      (s.begun env options).map (·.loadCached env options cache) := by
  cases h : s.begun env options with
  | none =>
    obtain ⟨internal, -, hconnect⟩ := connect_of_begun_none h cache
    rw [hconnect]
    rfl
  | some t =>
    rw [connect_of_begun h]
    rfl

/-- A call succeeds if it goes into the handshake and the handshake succeeds. -/
theorem success_connect_iff :
    (s.connect env options cache).success = true ↔
      s.begun env options ≠ none ∧ HandsShaken env options.timeout ∧
        env.peerCertificate ≠ none ∧ env.setNoneBlock = true := by
  cases h : s.begun env options with
  | none =>
    obtain ⟨internal, -, hconnect⟩ := connect_of_begun_none h cache
    rw [hconnect]
    simp
  | some t =>
    have hssl : t.ssl ≠ none := Option.isSome_iff_ne_none.mp
      (Internal.established_of_creatTlsContext (begun_eq_some_iff.mp h).2).2
    rw [connect_of_begun h]
    by_cases hdone : HandsShaken env options.timeout
    · simp [startShakingHands_of_done cache hssl hdone, hdone,
        Option.isSome_iff_ne_none]
    · simp [startShakingHands_of_not_done cache hssl hdone, hdone]

end

variable {env}

end TLSSocket

end Netstack.TlsSocket
