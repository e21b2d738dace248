import Netstack.TlsSocket.Process

/-!
# Connecting a TLS socket again

The context and the SSL object of the first connection are used by all later ones, with the
descriptor and the options of the first. The configuration keeps what the options do not set, and
the local certificates are added to the earlier ones.
-/

namespace Netstack.TlsSocket

open Foundation.Execution Internal TLSSocket TLSConfiguration Option

namespace TLSConfiguration

/-- The configuration has its default values wherever the options do not replace them. -/
structure Settled (c : TLSConfiguration) (options : TLSSecureOptions) : Prop where
  localCertificateChain : c.localCertificateChain = []
  cipherSuite : options.cipherSuite = [] → c.cipherSuite = []
  signatureAlgorithms : options.signatureAlgorithms = [] → c.signatureAlgorithms = []
  protocols : options.protocolChain = [] →
    c.minProtocol = .tlsV12 ∧ c.maxProtocol = .tlsV13 ∧ c.protocol = .tlsV13

/-- A value that an option replaces, unless the option is empty. -/
theorem replaced_eq_iff {α β : Type} [DecidableEq α] {option : List α} {x y z : β} :
    ((if option ≠ [] then x else y) = if option ≠ [] then x else z) ↔ (option = [] → y = z) := by
  by_cases h : option = []
  · simp [h]
  · simp [h]

/-- The options determine the configuration if and only if what they do not replace has its default
value. -/
theorem setOptions_eq_default_iff (c : TLSConfiguration) (options : TLSConnectOptions) :
    c.setOptions options = ({} : TLSConfiguration).setOptions options ↔
      c.Settled options.tlsSecureOptions := by
  rw [setOptions_eq, setOptions_eq]
  simp only [setProtocol, mk.injEq, replaced_eq_iff, List.append_left_eq_self, List.nil_append,
    and_true, true_and]
  constructor
  · rintro ⟨hmin, hmax, hprotocol, hcipher, hsignature, hlocal⟩
    exact ⟨hlocal, hcipher, hsignature, fun h => ⟨hmin h, hmax h, hprotocol h⟩⟩
  · rintro ⟨hlocal, hcipher, hsignature, hprotocols⟩
    grind

end TLSConfiguration

variable {X : Type} [DecidableEq X]

variable {s : TLSSocket X} {options : TLSConnectOptions} {env : Environment X} {t : Internal X}

namespace TLSSocket

/-- A new object would go into the handshake with the same context and the same SSL object. -/
structure Renewable (env : Environment X) (options : TLSConnectOptions) (s : TLSSocket X) :
    Prop where
  settled : s.internal.configuration.Settled options.tlsSecureOptions
  reused : s.internal.Established →
    s.internal.ssl = some { fd := s.sockFd } ∧ env.sslNew = true ∧
      TLSContext.initTlsContext env (({} : TLSConfiguration).setOptions options) =
        s.internal.tlsContextPointer

/-- The object with which a new object goes into the handshake. -/
theorem begun_renewed_iff (h : s.Admitted env options) (t : Internal X) :
    s.renewed.begun env options = some t ↔
      ∃ ctx, TLSContext.initTlsContext env (({} : TLSConfiguration).setOptions options) = some ctx ∧
        env.sslNew = true ∧
        t =
          { configuration := ({} : TLSConfiguration).setOptions options
            tlsContextPointer := some ctx
            ssl := some { fd := s.sockFd }
            hostName := options.address.address
            socketDescriptor := s.sockFd } := by
  have hadmitted : s.renewed.Admitted env options := h
  have hnew : ¬ (s.renewed.internal.prepared s.renewed.sockFd options).Established :=
    fun hold => Bool.false_ne_true hold.1
  rw [begun_eq_some_iff, and_iff_right hadmitted]
  exact creatTlsContext_iff_of_not_established hnew env t

theorem begun_renewed_eq_iff (h : s.begun env options = some t) :
    s.renewed.begun env options = some t ↔ s.Renewable env options := by
  obtain ⟨hadmitted, hcreate⟩ := begun_eq_some_iff.mp h
  rw [begun_renewed_iff hadmitted]
  by_cases hold : s.internal.Established
  · have hprepared : (s.internal.prepared s.sockFd options).Established := hold
    rw [creatTlsContext_of_established hprepared] at hcreate
    obtain rfl := (Prod.mk.inj hcreate).2
    constructor
    · rintro ⟨ctx, hinit, hnew, hsame⟩
      injection hsame with hconfiguration hctx hssl
      exact ⟨(setOptions_eq_default_iff _ _).mp hconfiguration,
        fun _ => ⟨hssl, hnew, hinit.trans hctx.symm⟩⟩
    · rintro ⟨hsettled, hreused⟩
      obtain ⟨hssl, hnew, hinit⟩ := hreused hold
      obtain ⟨ctx, hctx⟩ := isSome_iff_exists.mp hold.1
      refine ⟨ctx, hinit.trans hctx, hnew, ?_⟩
      rw [prepared, (setOptions_eq_default_iff _ _).mpr hsettled, hctx,
        hssl]
  · have hprepared : ¬ (s.internal.prepared s.sockFd options).Established := hold
    obtain ⟨ctx, hinit, hnew, rfl⟩ :=
      (creatTlsContext_iff_of_not_established hprepared env t).mp hcreate
    constructor
    · rintro ⟨ctx', -, -, hsame⟩
      injection hsame with hconfiguration
      exact ⟨(setOptions_eq_default_iff _ _).mp hconfiguration,
        fun hestablished => (hold hestablished).elim⟩
    · rintro ⟨hsettled, -⟩
      have hconfiguration := (setOptions_eq_default_iff _ _).mpr hsettled
      refine ⟨ctx, ?_, hnew, ?_⟩
      · rw [← hconfiguration]
        exact hinit
      · rw [← hconfiguration]
        rfl

end TLSSocket

namespace Internal

/-- The descriptor of the SSL object and the configuration that its context was made from. -/
def origin (s : Internal X) : Option Int × Option TLSConfiguration :=
  (s.ssl.map (·.fd), s.tlsContextPointer.map (·.tlsConfiguration))

theorem origin_loadCached (env : Environment X) (options : TLSConnectOptions) (cache : CaCertCache)
    (s : Internal X) : (s.loadCached env options cache).origin = s.origin := by
  rw [loadCached, setSNIandLoadCachedCaCert]
  split
  · cases hssl : s.ssl with
    | none => rfl
    | some ssl =>
      cases hctx : s.tlsContextPointer with
      | none => simp [origin, hssl, hctx]
      | some ctx => simp [origin, hssl, hctx]
  · rfl

theorem origin_startShakingHands (env : Environment X) (options : TLSConnectOptions)
    (cache : CaCertCache) (s : Internal X) :
    (s.startShakingHands env options cache).internal.origin = s.origin := by
  by_cases hssl : s.ssl = none
  · rw [startShakingHands_of_none hssl]
  · by_cases hdone : HandsShaken env options.timeout
    · rw [startShakingHands_of_done cache hssl hdone]
      exact origin_loadCached env options cache s
    grind [startShakingHands_of_not_done, origin_loadCached]

end Internal

/-- A connection changes neither the descriptor nor the configuration of an SSL object. -/
theorem TLSSocket.origin_connect (env : Environment X) (options : TLSConnectOptions)
    (s : TLSSocket X) (cache : CaCertCache) (h : s.internal.Established) :
    (s.connect env options cache).socket.internal.origin = s.internal.origin := by
  cases hbegun : s.begun env options with
  | none =>
    obtain ⟨internal, hkeep, hconnect⟩ := connect_of_begun_none hbegun cache
    grind [Internal.origin]
  | some t =>
    rw [connect_of_begun hbegun]
    have hprepared : (s.internal.prepared s.sockFd options).Established := h
    have hcreate := (begun_eq_some_iff.mp hbegun).2
    rw [creatTlsContext_of_established hprepared] at hcreate
    obtain rfl := (Prod.mk.inj hcreate).2
    exact Internal.origin_startShakingHands env options cache _

variable {i : Nat} {fd : Int} {c : TLSConfiguration} {p : Process X} {q : Process X}

namespace Process

/-- A successful call goes into its handshake with what a new object would go into it with. -/
def RunsAfresh (p : Process X) : Operation X → Prop
  | .connect i options env =>
    ((p.sockets i).connect env options p.cache).success = true →
      ((p.sockets i).connect env options p.cache).created =
        ((p.sockets i).renewed.connect env options p.cache).created
  | _ => True

/-- A call that gets through finds nothing from earlier calls that it would not make itself. -/
def Unused (p : Process X) : Operation X → Prop
  | .connect i options env =>
    (p.sockets i).begun env options ≠ none → Internal.HandsShaken env options.timeout →
      env.peerCertificate ≠ none → env.setNoneBlock = true →
        (p.sockets i).Renewable env options
  | _ => True

theorem runsAfresh_iff_unused (p : Process X) (op : Operation X) :
    p.RunsAfresh op ↔ p.Unused op := by
  cases op with
  | create i sockFd => exact Iff.rfl
  | bind i sock => exact Iff.rfl
  | send i data => exact Iff.rfl
  | close i => exact Iff.rfl
  | connect i options env =>
    rw [RunsAfresh, Unused, success_connect_iff, created_connect,
      created_connect]
    cases hbegun : (p.sockets i).begun env options with
    | none => simp
    | some t =>
      rw [eq_comm (a := some t), begun_renewed_eq_iff hbegun]
      grind

/-- In a history of calls, every successful connection goes into its handshake like a new socket if
and only if each of them finds nothing from earlier calls. -/
theorem connections_afresh_iff (history : List (Operation X)) (p : Process X) :
    Meets step RunsAfresh history p ↔ Meets step Unused history p :=
  meets_congr runsAfresh_iff_unused history p

section Instances

def greeting : Environment Nat :=
  { sslConnect := 1, peerCertificate := some ⟨none, .missing⟩ }

def unvalidated : TLSConnectOptions := { skipRemoteValidation := true }

/-- A socket that was connected without validation is closed and gets a new descriptor. -/
def connectedAndClosed : List (Operation Nat) :=
  [.create 0 none, .bind 0 (some 3), .connect 0 unvalidated greeting, .close 0, .bind 0 (some 5)]

end Instances

/-- The next connection succeeds on the closed descriptor, without validation. -/
theorem secondConnection_stale :
    (∃ p, connectedAndClosed.foldlM step {} = some p ∧
      ((p.sockets 0).connect greeting {} p.cache).success = true ∧
      ((p.sockets 0).connect greeting {} p.cache).created.map
          (fun s => (s.ssl.map (·.fd), s.tlsContextPointer.map (·.verify))) =
        some (some 3, some Verify.none) ∧
      ((p.sockets 0).renewed.connect greeting {} p.cache).created.map
          (fun s => (s.ssl.map (·.fd), s.tlsContextPointer.map (·.verify))) =
        some (some 5, some Verify.peer)) ∧
    ¬ Meets step RunsAfresh (connectedAndClosed ++ [.connect 0 {} greeting]) {} := by
  refine (and_iff_left_of_imp ?_).mpr (by decide +kernel)
  rintro ⟨p, hp, hsuccess, hnow, hfresh⟩ hmeets
  have hlast : p.RunsAfresh _ := hmeets.last hp rfl
  have hsame := hlast hsuccess
  grind

/-! ### The first connection stays -/

/-- The SSL object of a socket is the one that was made for a descriptor and a configuration. -/
def Holds (i : Nat) (fd : Int) (c : TLSConfiguration) (p : Process X) : Prop :=
  (p.sockets i).internal.origin = (some fd, some c)

variable (h : p.Holds i fd c)
include h

omit [DecidableEq X] in
theorem Holds.established : (p.sockets i).internal.Established := by
  obtain ⟨hssl, hctx⟩ := Prod.mk.inj h
  obtain ⟨ssl, hsome, -⟩ := map_eq_some_iff.mp hssl
  obtain ⟨ctx, hsome', -⟩ := map_eq_some_iff.mp hctx
  exact ⟨by rw [hsome']; rfl, by rw [hsome]; rfl⟩

omit [DecidableEq X] in
theorem Holds.set {j : Nat} (hs : j = i → s.internal.origin = (p.sockets i).internal.origin) :
    (p.set j s).Holds i fd c := by
  have hold : (p.sockets i).internal.origin = (some fd, some c) := h
  rw [Holds, Process.set]
  grind

theorem Holds.step {op : Operation X} (hop : ∀ sockFd, op ≠ .create i sockFd)
    (hstep : p.step op = some q) : q.Holds i fd c := by
  cases op with
  | create j sockFd =>
    have hij : j ≠ i := fun hij => hop sockFd (by rw [hij])
    cases sockFd <;> obtain rfl := some.inj hstep <;>
      exact h.set fun heq => (hij heq).elim
  | bind j sock =>
    cases hstep
    apply h.set
    rintro rfl
    rw [TLSSocket.bind]
    split <;> rfl
  | send j data =>
    cases hstep
    exact h
  | close j =>
    cases hstep
    apply h.set
    rintro rfl
    rfl
  | connect j options env =>
    cases hstep
    refine Holds.set (s := ((p.sockets j).connect env options p.cache).socket) h ?_
    grind [origin_connect, @h.established]

/-- However often a socket is closed, bound and connected, its handshakes run on the descriptor and
with the configuration that its SSL object was made with. -/
theorem handshakes_keep_origin (history : List (Operation X))
    (hnew : ∀ op ∈ history, ∀ sockFd, op ≠ .create i sockFd)
    (hrun : history.foldlM Process.step p = some q) (env : Environment X)
    (options : TLSConnectOptions) (ht : (q.sockets i).begun env options = some t) :
    t.origin = (some fd, some c) := by
  have hend : q.Holds i fd c :=
    foldlM_invariant_of_mem (fun op hop _ _ hs hstep => hs.step (hnew op hop) hstep) h hrun
  have hcreate := (begun_eq_some_iff.mp ht).2
  have hprepared : ((q.sockets i).internal.prepared (q.sockets i).sockFd options).Established :=
    hend.established
  rw [creatTlsContext_of_established hprepared] at hcreate
  obtain rfl := (Prod.mk.inj hcreate).2
  exact hend

def connectedOn3 : Process Nat :=
  { sockets := fun _ => { internal :=
      { ssl := some { fd := 3 }, tlsContextPointer := some ⟨{}, .peer, ∅⟩ } } }

omit h in
theorem rebound_handshake_origin :
    ∃ q t, [.close 0, .bind 0 (some 5)].foldlM step connectedOn3 = some q ∧
      (q.sockets 0).begun greeting {} = some t ∧ t.origin = (some 3, some {}) :=
  ⟨_, _, rfl, rfl, handshakes_keep_origin (i := 0) (p := connectedOn3) rfl
    [.close 0, .bind 0 (some 5)] (by simp) rfl greeting {} rfl⟩

end Process

end Netstack.TlsSocket
