import Netstack.TlsSocket.Process

/-!
# The certificates that a connection trusts

The store of a context gets the default certificates for the host, those in the options, and the
certificates that earlier peers have shown under the same host name, whether they were verified or
not. A socket that is connected again keeps the store of its first connection.
-/

namespace Netstack.TlsSocket

open Foundation Foundation.Execution Internal TLSSocket

variable {X : Type} (c : TLSConfiguration) (options : TLSConnectOptions)

namespace TLSConfiguration

theorem caCertificateChain_setOptions :
    (c.setOptions options).caCertificateChain = options.tlsSecureOptions.caChain := by
  rw [setOptions_eq]

theorem netAddress_setOptions :
    (c.setOptions options).netAddress = options.address := by
  rw [setOptions_eq]

end TLSConfiguration

/-- The certificates in the store of the context. -/
def Internal.trusted (s : Internal X) : Finset X :=
  match s.tlsContextPointer with
  | some ctx => ctx.store
  | none => ∅

/-- The certificates that a connection trusts in its handshake. -/
def Connecting.trusted (c : Connecting X) : Option (Finset X) := c.started.map Internal.trusted

variable [DecidableEq X]

variable (env : Environment X)

/-- The certificates for the options of a connection. -/
def optionTrust (options : TLSConnectOptions) : Option (Finset X) :=
  TLSContext.setCaAndVerify env (({} : TLSConfiguration).setOptions options)

/-- The certificates that are loaded from the cache for a connection. -/
def loadedCerts (options : TLSConnectOptions) (cache : CaCertCache) : Finset X :=
  if options.hostName ≠ options.address.address then
    cachedCerts env cache options.hostName
  else ∅

variable {env}

namespace TLSContext

/-- What an object holds from before has no part in the certificates for the options. -/
theorem setCaAndVerify_setOptions (env : Environment X) (c : TLSConfiguration)
    (options : TLSConnectOptions) :
    setCaAndVerify env (c.setOptions options) = optionTrust env options := by
  simp only [optionTrust, setCaAndVerify, TLSConfiguration.caCertificateChain_setOptions,
    TLSConfiguration.netAddress_setOptions]

theorem setCaAndVerify_of_initTlsContext {c : TLSConfiguration}
    {ctx : TLSContext X} (h : initTlsContext env c = some ctx) :
    setCaAndVerify env c = some ctx.store := by
  simp only [initTlsContext, guard, Option.bind_eq_bind, Option.bind_eq_some_iff] at h
  grind

end TLSContext

namespace Internal

theorem trusted_loadCached {s : Internal X} (h : s.Established) (env : Environment X)
    (options : TLSConnectOptions) (cache : CaCertCache) :
    (s.loadCached env options cache).trusted = s.trusted ∪ loadedCerts env options cache := by
  obtain ⟨ctx, hctx⟩ := Option.isSome_iff_exists.mp h.1
  obtain ⟨ssl, hssl⟩ := Option.isSome_iff_exists.mp h.2
  rw [loadCached, loadedCerts]
  split
  · simp only [setSNIandLoadCachedCaCert, hssl, trusted, hctx, Option.map_some]
  · rw [Finset.union_empty]

end Internal

variable {options : TLSConnectOptions} {s : TLSSocket X} {t : Internal X}

namespace TLSSocket

theorem trusted_begun_of_established (h : s.begun env options = some t)
    (hold : s.internal.Established) : t.trusted = s.internal.trusted := by
  obtain ⟨-, hcreate⟩ := begun_eq_some_iff.mp h
  have hprepared : (s.internal.prepared s.sockFd options).Established := hold
  rw [creatTlsContext_of_established hprepared] at hcreate
  obtain rfl := (Prod.mk.inj hcreate).2
  rfl

theorem trusted_begun_of_not_established (h : s.begun env options = some t)
    (hnew : ¬ s.internal.Established) : optionTrust env options = some t.trusted := by
  obtain ⟨-, hcreate⟩ := begun_eq_some_iff.mp h
  have hprepared : ¬ (s.internal.prepared s.sockFd options).Established := hnew
  obtain ⟨ctx, hinit, -, rfl⟩ :=
    (creatTlsContext_iff_of_not_established hprepared env t).mp hcreate
  rw [← TLSContext.setCaAndVerify_setOptions env s.internal.configuration]
  exact TLSContext.setCaAndVerify_of_initTlsContext hinit

variable (env)

theorem trusted_connect (options : TLSConnectOptions) (s : TLSSocket X) (cache : CaCertCache) :
    (s.connect env options cache).trusted =
      (s.begun env options).map fun t => t.trusted ∪ loadedCerts env options cache := by
  rw [Connecting.trusted, started_connect]
  cases h : s.begun env options with
  | none => rfl
  | some t =>
    have hdone := established_of_creatTlsContext (begun_eq_some_iff.mp h).2
    simp only [Option.map_some, trusted_loadCached hdone]

end TLSSocket

namespace Process

variable (p : Process X)

/-- A connection that validates its peer trusts what it would trust as the first connection of the
process. -/
def TrustsAsFirst : Operation X → Prop
  | .connect i options env =>
    options.skipRemoteValidation = false →
      ∀ trusted ∈ ((p.sockets i).connect env options p.cache).trusted,
      ∀ first ∈ ((p.sockets i).renewed.connect env options fun _ => ∅).trusted,
        trusted = first
  | _ => True

/-- The cache adds nothing to the certificates for the options, and a context that is used again has
just these in its store. -/
def Untainted : Operation X → Prop
  | .connect i options env =>
    options.skipRemoteValidation = false →
      (p.sockets i).begun env options ≠ none → (p.sockets i).renewed.begun env options ≠ none →
      ∀ expected ∈ optionTrust env options,
        if (p.sockets i).internal.Established then
          (p.sockets i).internal.trusted ∪ loadedCerts env options p.cache = expected
        else loadedCerts env options p.cache ⊆ expected
  | _ => True

/-- The certificates that a call and a first call trust agree exactly in an untainted state. -/
theorem union_loadedCerts_eq_iff (h : s.begun env options = some t) {expected : Finset X}
    (hexpected : optionTrust env options = some expected) (cache : CaCertCache) :
    t.trusted ∪ loadedCerts env options cache = expected ↔
      if s.internal.Established then
        s.internal.trusted ∪ loadedCerts env options cache = expected
      else loadedCerts env options cache ⊆ expected := by
  by_cases hold : s.internal.Established
  · rw [if_pos hold, trusted_begun_of_established h hold]
  · have hnew := trusted_begun_of_not_established h hold
    grind

theorem trustsAsFirst_iff_untainted (op : Operation X) : p.TrustsAsFirst op ↔ p.Untainted op := by
  cases op with
  | create i sockFd => exact Iff.rfl
  | bind i sock => exact Iff.rfl
  | send i data => exact Iff.rfl
  | close i => exact Iff.rfl
  | connect i options env =>
    refine forall_congr' fun _ => ?_
    rw [trusted_connect, trusted_connect]
    cases hnow : (p.sockets i).begun env options with
    | none => simp
    | some t =>
      cases hfirst : (p.sockets i).renewed.begun env options with
      | none => simp
      | some u =>
        have hexpected : optionTrust env options = some u.trusted :=
          trusted_begun_of_not_established hfirst
            (fun hold => Bool.false_ne_true hold.1)
        have hempty : loadedCerts env options (fun _ => ∅) = ∅ := by
          simp [loadedCerts, cachedCerts]
        simp only [Option.map_some, Option.mem_some_iff, forall_eq', hempty,
          Finset.union_empty, ne_eq, reduceCtorEq, not_false_eq_true, forall_const,
          hexpected]
        exact union_loadedCerts_eq_iff hnow hexpected p.cache

/-- In a history of connections, every one that validates its peer trusts what it would trust as the
first if and only if each of them starts in an untainted state. -/
theorem trust_independent_iff (history : List (Operation X)) (p : Process X) :
    Meets step TrustsAsFirst history p ↔ Meets step Untainted history p :=
  meets_congr trustsAsFirst_iff_untainted history p

section Instances

def bankOptions (skip : Bool) : TLSConnectOptions :=
  { address := { address := ascii "10.0.0.1" }
    hostName := ascii "bank.example"
    skipRemoteValidation := skip }

/-- The peer shows the certificate seven, which no one else trusts. -/
def selfSigned : Environment Nat :=
  { sslConnect := 1
    peerChain := [7]
    pemOf := fun _ => ascii "PEM"
    readPem := fun _ => {7}
    peerCertificate := some ⟨none, .missing⟩ }

/-- A connection without validation, and then one with validation, to the same host. -/
def skippedThenValidated : List (Operation Nat) :=
  [.create 0 (some 3), .connect 0 (bankOptions true) selfSigned, .create 1 (some 4)]

end Instances

/-- The certificate that a peer has shown to a connection without validation is its own trust anchor
in the next connection. -/
theorem shownCertificate_trusted :
    (∃ p, skippedThenValidated.foldlM step {} = some p ∧
      ((p.sockets 1).connect selfSigned (bankOptions false) p.cache).trusted = some {7} ∧
      ((p.sockets 1).renewed.connect selfSigned (bankOptions false) fun _ => ∅).trusted =
        some ∅) ∧
    ¬ Meets step TrustsAsFirst
      (skippedThenValidated ++ [.connect 1 (bankOptions false) selfSigned]) {} := by
  refine (and_iff_left_of_imp ?_).mpr (by decide +kernel)
  rintro ⟨p, hp, hnow, hfirst⟩ hmeets
  have hlast : p.TrustsAsFirst _ := hmeets.last hp rfl
  have hsame : ({7} : Finset Nat) = ∅ := hlast rfl _ hnow _ hfirst
  exact absurd hsame (by decide)

end Process

end Netstack.TlsSocket
