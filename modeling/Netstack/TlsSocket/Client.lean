import Netstack.TlsSocket.ServerIdentity

/-!
# Connecting a TLS socket

The internal object of a `TLSSocket`: its configuration, the context and the SSL object that are
made from it at the first connection, and the handshake. The certificates that a peer has shown are
kept in a cache of the process, by host name. `SetAlpnProtocols` has one byte for the length of a
name, and writes all of the name.

## Implementation notes

What the system and OpenSSL answer during one call of `Connect` is a record of the call.
-/

namespace Netstack.TlsSocket

open Foundation

/-! ### Options and configuration -/

inductive TLSProtocol where
  | tlsV12
  | tlsV13
  deriving DecidableEq, Repr

structure NetAddress where
  address : Bytes := []
  port : Nat := 0
  family : Nat := 0
  deriving DecidableEq, Repr

structure TLSSecureOptions where
  caChain : List Bytes := []
  certChain : List Bytes := []
  key : Bytes := []
  keyPass : Bytes := []
  protocolChain : List Bytes := []
  signatureAlgorithms : Bytes := []
  cipherSuite : Bytes := []
  deriving DecidableEq, Repr

structure TLSConnectOptions where
  address : NetAddress := {}
  tlsSecureOptions : TLSSecureOptions := {}
  hostName : Bytes := []
  skipRemoteValidation : Bool := false
  /-- Whether the application gave a function of its own for the identity of the server. -/
  checkServerIdentity : Bool := false
  proxy : Bool := false
  timeout : UInt32 := 0
  deriving DecidableEq, Repr

structure TLSConfiguration where
  minProtocol : TLSProtocol := .tlsV12
  maxProtocol : TLSProtocol := .tlsV13
  protocol : TLSProtocol := .tlsV13
  cipherSuite : Bytes := []
  signatureAlgorithms : Bytes := []
  /-- The key and its password. -/
  privateKey : Bytes × Bytes := ([], [])
  localCertificateChain : List Bytes := []
  caCertificateChain : List Bytes := []
  netAddress : NetAddress := {}
  whetherToSkip : Bool := false
  deriving DecidableEq, Repr

variable (c : TLSConfiguration)

namespace TLSConfiguration

def protocolTlsV12 : Bytes := ascii "TLSv1.2"

def protocolTlsV13 : Bytes := ascii "TLSv1.3"

def setProtocol (protocols : List Bytes) : TLSConfiguration :=
  let maxProtocol := if protocolTlsV13 ∈ protocols then TLSProtocol.tlsV13 else .tlsV12
  let minProtocol := if protocolTlsV12 ∈ protocols then TLSProtocol.tlsV12 else .tlsV13
  { c with maxProtocol, minProtocol, protocol := maxProtocol }

/-- The chain is appended to what is there. -/
def setLocalCertificate (certificates : List Bytes) : TLSConfiguration :=
  { c with localCertificateChain := c.localCertificateChain ++ certificates }

/-- `SetTlsConfiguration` and the assignments at the start of `TlsConnectToHost`. -/
def setOptions (options : TLSConnectOptions) : TLSConfiguration :=
  let secure := options.tlsSecureOptions
  let c := { c with privateKey := (secure.key, secure.keyPass) }
  let c := c.setLocalCertificate secure.certChain
  let c := { c with caCertificateChain := secure.caChain, netAddress := options.address }
  let c := if secure.cipherSuite ≠ [] then { c with cipherSuite := secure.cipherSuite } else c
  let c :=
    if secure.signatureAlgorithms ≠ [] then
      { c with signatureAlgorithms := secure.signatureAlgorithms }
    else c
  let c := if secure.protocolChain ≠ [] then c.setProtocol secure.protocolChain else c
  { c with whetherToSkip := options.skipRemoteValidation }

/-- The fields of a configuration that has taken over the options. -/
theorem setOptions_eq (options : TLSConnectOptions) : c.setOptions options =
      let secure := options.tlsSecureOptions
      let chosen := c.setProtocol secure.protocolChain
      { minProtocol := if secure.protocolChain ≠ [] then chosen.minProtocol else c.minProtocol
        maxProtocol := if secure.protocolChain ≠ [] then chosen.maxProtocol else c.maxProtocol
        protocol := if secure.protocolChain ≠ [] then chosen.protocol else c.protocol
        cipherSuite := if secure.cipherSuite ≠ [] then secure.cipherSuite else c.cipherSuite
        signatureAlgorithms :=
          if secure.signatureAlgorithms ≠ [] then secure.signatureAlgorithms
          else c.signatureAlgorithms
        privateKey := (secure.key, secure.keyPass)
        localCertificateChain := c.localCertificateChain ++ secure.certChain
        caCertificateChain := secure.caChain
        netAddress := options.address
        whetherToSkip := options.skipRemoteValidation } := by
  simp only [setOptions]
  split <;> split <;> split <;> rfl

/-- The assignment of configurations leaves out some of the members. -/
def copied : TLSConfiguration :=
  { c with protocol := .tlsV13, netAddress := {} }

end TLSConfiguration

/-! ### What a connection meets -/

/-- One round of the handshake with a time limit: the results of `SSL_connect`, `SSL_get_error` and
`poll`. -/
structure Round where
  sslConnect : Int
  sslError : Nat := 0
  poll : Int := 1
  interrupted : Bool := false
  /-- `POLLERR`, `POLLHUP` or `POLLNVAL` is among the events. -/
  broken : Bool := false
  deriving DecidableEq, Repr

/-- The answers of the system and of OpenSSL during one call. -/
structure Environment (X : Type) where
  /-- `SetSockBlockFlag` before and after the handshake. -/
  setBlock : Bool := true
  setNoneBlock : Bool := true
  socketConnect : Bool := true
  ctxNew : Bool := true
  setCipherList : Bytes → Bool := fun _ => true
  setSigalgsList : Bytes → Bool := fun _ => true
  /-- The certificates that `SetDefaultCa` loads for a host. -/
  defaultCa : NetAddress → Option (Finset X) := fun _ => some ∅
  readCertificate : Bytes → Option X := fun _ => none
  useCertificates : List X → Bool := fun _ => true
  useKey : Bytes × Bytes → Bool := fun _ => true
  sslNew : Bool := true
  rounds : List Round := []
  sslConnect : Int := 1
  peerChain : List X := []
  pemOf : X → Bytes := fun _ => []
  /-- The certificates in a text, as `PEM_X509_INFO_read_bio` reads them. -/
  readPem : Bytes → Finset X := fun _ => ∅
  cipherList : Bytes := []
  peerCertificate : Option Certificate := none
  bio : Bool := true

/-! ### The context -/

inductive Verify where
  | none
  | peer
  | failIfNoPeerCert
  deriving DecidableEq, Repr

structure TLSContext (X : Type) where
  tlsConfiguration : TLSConfiguration
  verify : Verify
  /-- The certificates in the store of the context. -/
  store : Finset X
  deriving DecidableEq

variable {X : Type}

variable (env : Environment X)

namespace TLSContext

/-- Two-way authentication needs the raw data of a first certificate, and a key. -/
def twoWay (c : TLSConfiguration) : Bool :=
  (c.localCertificateChain.head?.bind env.readCertificate).isSome && c.privateKey.1 ≠ []

def setVerify (c : TLSConfiguration) : Verify :=
  if c.whetherToSkip then .none else if twoWay env c then .failIfNoPeerCert else .peer

def setCaAndVerify [DecidableEq X] (env : Environment X) (c : TLSConfiguration) :
    Option (Finset X) := do
  let defaults ← env.defaultCa c.netAddress
  let chain ← c.caCertificateChain.mapM env.readCertificate
  pure (defaults ∪ chain.toFinset)

def setLocalCertificate (c : TLSConfiguration) : Bool :=
  match c.localCertificateChain.mapM env.readCertificate with
  | some chain => c.localCertificateChain ≠ [] && env.useCertificates chain
  | none => false

def initTlsContext [DecidableEq X] (env : Environment X) (c : TLSConfiguration) :
    Option (TLSContext X) := do
  guard env.ctxNew
  guard (c.cipherSuite = [] ∨ env.setCipherList c.cipherSuite)
  guard (c.signatureAlgorithms = [] ∨ env.setSigalgsList c.signatureAlgorithms)
  let store ← setCaAndVerify env c
  guard (!twoWay env c || (setLocalCertificate env c && env.useKey c.privateKey))
  pure { tlsConfiguration := c.copied, verify := setVerify env c, store }

end TLSContext

/-! ### The internal object -/

structure Ssl where
  fd : Int
  hostName : Bytes := []
  deriving DecidableEq, Repr

/-- `TLSSocketInternal`. -/
structure Internal (X : Type) where
  configuration : TLSConfiguration := {}
  tlsContextPointer : Option (TLSContext X) := none
  ssl : Option Ssl := none
  hostName : Bytes := []
  socketDescriptor : Int := 0
  deriving DecidableEq

/-- `CaCertCache`: the PEM texts that were stored for a host name. -/
abbrev CaCertCache := Bytes → Finset Bytes

namespace CaCertCache

def set (cache : CaCertCache) (key val : Bytes) : CaCertCache :=
  Function.update cache key (insert val (cache key))

end CaCertCache

namespace Internal

def creatTlsContext [DecidableEq X] (env : Environment X) (s : Internal X) : Bool × Internal X :=
  if s.tlsContextPointer.isSome && s.ssl.isSome then (true, s)
  else
    match TLSContext.initTlsContext env s.configuration with
    | none => (false, { s with tlsContextPointer := none })
    | some ctx =>
      if env.sslNew then
        (true, { s with tlsContextPointer := some ctx, ssl := some { fd := s.socketDescriptor } })
      else (false, { s with tlsContextPointer := some ctx, ssl := none })

/-- The certificates that were cached for a host. -/
def cachedCerts [DecidableEq X] (env : Environment X) (cache : CaCertCache) (hostName : Bytes) :
    Finset X :=
  (cache hostName).biUnion env.readPem

def setSNIandLoadCachedCaCert [DecidableEq X] (env : Environment X) (cache : CaCertCache)
    (hostName : Bytes) (s : Internal X) : Internal X :=
  match s.ssl with
  | none => s
  | some ssl =>
    { s with
      ssl := some { ssl with hostName := cString hostName }
      tlsContextPointer := s.tlsContextPointer.map fun ctx =>
        { ctx with store := ctx.store ∪ cachedCerts env cache hostName } }

def cacheCertificates (hostName : Bytes) (cache : CaCertCache) : CaCertCache :=
  if hostName = [] then cache
  else
    env.peerChain.foldl (fun cache cert =>
      if env.pemOf cert = [] then cache else cache.set hostName (env.pemOf cert)) cache

def tlsSocketSuccess : Int := 0

def noTimeout : Int := 1

def tlsTimeout : Int := 2

def pollErrInTls : Int := 3

def tlsErrSslBase : Int := 2303500

def sslErrorWantRead : Nat := 2

def sslErrorWantWrite : Nat := 3

/-- The rounds until the handshake is done or given up, with the results of `SSL_connect`. -/
def shakingHandsLoop : List Round → Int × List Int
  | [] => (tlsTimeout, [])
  | r :: rounds =>
    if r.sslConnect = 1 then (tlsSocketSuccess, [r.sslConnect])
    else if r.sslError = sslErrorWantRead ∨ r.sslError = sslErrorWantWrite then
      if r.poll = 0 ∨ (r.poll < 0 ∧ !r.interrupted) then (tlsTimeout, [r.sslConnect])
      else if r.poll < 0 ∨ !r.broken then
        let (result, calls) := shakingHandsLoop rounds
        (result, r.sslConnect :: calls)
      else (pollErrInTls, [r.sslConnect])
    else (tlsErrSslBase + r.sslError, [r.sslConnect])

def shakingHandsTimeout (timeout : UInt32) (rounds : List Round) : Int × List Int :=
  if timeout ≤ 0 then (noTimeout, []) else shakingHandsLoop rounds

/-- The result, and the text that `CheckServerIdentityLegal` returned if it was called. -/
def checkAfterShankingHands (options : TLSConnectOptions) (s : Internal X) : Bool × Option Bytes :=
  match env.peerCertificate with
  | none => (false, none)
  | some cert =>
    if options.checkServerIdentity then (true, none)
    else (true, some (checkServerIdentityLegal env.bio s.hostName cert))

/-- What came of one attempt. -/
structure Handshake (X : Type) where
  success : Bool
  /-- The object when its context had been created. -/
  created : Option (Internal X) := none
  /-- The object as the handshake found it. -/
  started : Option (Internal X) := none
  /-- The results of the calls of `SSL_connect`. -/
  calls : List Int := []
  /-- What the check of the server's identity returned. -/
  identity : Option Bytes := none
  internal : Internal X
  cache : CaCertCache

/-- The handshake itself, with a time limit or without one. -/
def shakeHands (timeout : UInt32) : Bool × List Int :=
  let (timeoutErr, calls) := shakingHandsTimeout timeout env.rounds
  if timeoutErr = noTimeout then (env.sslConnect != -1, [env.sslConnect])
  else (timeoutErr == tlsSocketSuccess, calls)

/-- Before the handshake with a host that is not given by its address. -/
def loadCached [DecidableEq X] (env : Environment X) (options : TLSConnectOptions)
    (cache : CaCertCache) (s : Internal X) : Internal X :=
  if options.hostName ≠ options.address.address then
    s.setSNIandLoadCachedCaCert env cache options.hostName
  else s

/-- After the handshake with a host that is not given by its address. -/
def fillCache (options : TLSConnectOptions) (cache : CaCertCache) : CaCertCache :=
  if options.hostName ≠ options.address.address then
    cacheCertificates env options.hostName cache
  else cache

def startShakingHands [DecidableEq X] (env : Environment X) (options : TLSConnectOptions)
    (s : Internal X) (cache : CaCertCache) : Handshake X :=
  if s.ssl.isNone then { success := false, internal := s, cache }
  else
    let loaded := s.loadCached env options cache
    let (result, calls) := shakeHands env options.timeout
    if result then
      let cache := fillCache env options cache
      let s :=
        { loaded with
          configuration := { loaded.configuration with cipherSuite := env.cipherList } }
      let (success, identity) := s.checkAfterShankingHands env options
      { success, started := some loaded, calls, identity, internal := s, cache }
    else { success := false, started := some loaded, calls, internal := loaded, cache }

def startTlsConnected [DecidableEq X] (env : Environment X) (options : TLSConnectOptions)
    (s : Internal X) (cache : CaCertCache) : Handshake X :=
  match s.creatTlsContext env with
  | (true, s) => { s.startShakingHands env options cache with created := some s }
  | (false, s) => { success := false, internal := s, cache }

/-- The object when the options have been taken over. -/
def prepared (s : Internal X) (sock : Int) (options : TLSConnectOptions) : Internal X :=
  { s with
    configuration := s.configuration.setOptions options
    hostName := options.address.address
    socketDescriptor := sock }

def tlsConnectToHost [DecidableEq X] (env : Environment X) (sock : Int)
    (options : TLSConnectOptions) (isExtSock : Bool) (s : Internal X) (cache : CaCertCache) :
    Handshake X :=
  let s := s.prepared sock options
  if !options.proxy && !isExtSock && !env.socketConnect then
    { success := false, internal := s, cache }
  else s.startTlsConnected env options cache

end Internal

/-! ### Protocol names -/

section Alpn

open List

/-- The names as `SetAlpnProtocols` puts them together, each after its length in one byte. -/
def spliced (alpnProtocols : List Bytes) : Bytes :=
  alpnProtocols.flatMap fun str => UInt8.ofNat str.length :: str

/-- What `SSL_set_alpn_protos` is given: its length is an `unsigned int`. -/
def alpnBuffer (alpnProtocols : List Bytes) : Bytes :=
  (spliced alpnProtocols).take ((spliced alpnProtocols).length % 2 ^ 32)

/-- The result, and the buffer in the SSL object after the call. `setAlpnProtos` says which
buffers OpenSSL takes; one that it refuses is not set. -/
def setAlpnProtocols (setAlpnProtos : Bytes → Bool) (ssl : Option Bytes)
    (alpnProtocols : List Bytes) : Bool × Option Bytes :=
  if ssl = none then (false, ssl)
  else if setAlpnProtos (alpnBuffer alpnProtocols) then (true, some (alpnBuffer alpnProtocols))
  else (false, ssl)

/-- The names in a buffer. -/
def decodeAlpn : Bytes → Option (List Bytes)
  | [] => some []
  | len :: rest =>
    if len.toNat = 0 ∨ rest.length < len.toNat then none
    else (decodeAlpn (rest.drop len.toNat)).map (rest.take len.toNat :: ·)
termination_by buffer => buffer.length
decreasing_by
  simp only [length_drop, length_cons]
  omega

def IsAlpnName (str : Bytes) : Prop := 0 < str.length ∧ str.length < 256

variable {names : List Bytes}

theorem spliced_cons (str : Bytes) (names : List Bytes) :
    spliced (str :: names) = UInt8.ofNat str.length :: (str ++ spliced names) := rfl

theorem toNat_ofNat_length {str : Bytes} (h : IsAlpnName str) :
    (UInt8.ofNat str.length).toNat = str.length := by
  rw [UInt8.toNat_ofNat', Nat.mod_eq_of_lt h.2]

/-- A buffer is read as these names exactly if they have lengths of one byte and it is made of
them. -/
theorem decodeAlpn_eq_some_iff {buffer : Bytes} :
    decodeAlpn buffer = some names ↔ (∀ str ∈ names, IsAlpnName str) ∧ spliced names = buffer := by
  fun_induction decodeAlpn buffer generalizing names with
  | case1 => cases names <;> simp [spliced]
  | case2 len rest hbad =>
    cases names with
    | nil => simp [spliced]
    | cons str names =>
      have hlen (h : IsAlpnName str) := toNat_ofNat_length h
      rw [spliced_cons, forall_mem_cons]
      grind [IsAlpnName]
  | case3 len rest hgood ih =>
    rw [Option.map_eq_some_iff]
    have hlen : (rest.take len.toNat).length = len.toNat := by grind
    constructor
    · rintro ⟨names, hrest, rfl⟩
      obtain ⟨hnames, hsplice⟩ := ih.mp hrest
      have hstr : IsAlpnName (rest.take len.toNat) := by
        rw [IsAlpnName, hlen]
        exact ⟨by omega, len.toNat_lt⟩
      refine ⟨forall_mem_cons.mpr ⟨hstr, hnames⟩, ?_⟩
      rw [spliced_cons, hlen, UInt8.ofNat_toNat, hsplice, take_append_drop]
    · rintro ⟨hnames, hsplice⟩
      cases names with
      | nil => cases hsplice
      | cons str names =>
        obtain ⟨hstr, hnames⟩ := forall_mem_cons.mp hnames
        obtain ⟨rfl, rfl⟩ := List.cons.inj ((spliced_cons str names).symm.trans hsplice)
        rw [toNat_ofNat_length hstr, drop_left] at ih ⊢
        exact ⟨names, ih.mpr ⟨hnames, rfl⟩, by rw [take_left]⟩

/-- The buffer is read as the given names, or the call fails and sets nothing, exactly if there is
nothing to set, OpenSSL refuses the buffer, or all lengths fit. -/
theorem setAlpnProtocols_faithful_iff (setAlpnProtos : Bytes → Bool) (ssl : Option Bytes)
    (names : List Bytes) :
    (decodeAlpn (alpnBuffer names) = some names ∨
        setAlpnProtocols setAlpnProtos ssl names = (false, ssl)) ↔
      ssl = none ∨ setAlpnProtos (alpnBuffer names) = false ∨
        (∀ str ∈ names, IsAlpnName str) ∧ (spliced names).length < 2 ^ 32 := by
  have hread : decodeAlpn (alpnBuffer names) = some names ↔
      (∀ str ∈ names, IsAlpnName str) ∧ (spliced names).length < 2 ^ 32 := by
    rw [decodeAlpn_eq_some_iff, alpnBuffer, eq_comm, take_eq_self_iff]
    have hmod := Nat.mod_lt (spliced names).length (show 0 < 2 ^ 32 by decide)
    have hle : (spliced names).length ≤ (spliced names).length % 2 ^ 32 ↔
        (spliced names).length < 2 ^ 32 :=
      ⟨fun h => h.trans_lt hmod, fun h => (Nat.mod_eq_of_lt h).ge⟩
    rw [hle]
  have hfails : setAlpnProtocols setAlpnProtos ssl names = (false, ssl) ↔
      ssl = none ∨ setAlpnProtos (alpnBuffer names) = false := by
    unfold setAlpnProtocols
    grind
  rw [hread, hfails, or_comm, or_assoc]

/-- A library that looks at its argument takes a name of 257 bytes for other names. -/
theorem long_alpn_name_split :
    setAlpnProtocols (fun buffer => (decodeAlpn buffer).isSome) (some [])
        [replicate 257 1] = (true, some (replicate 258 1)) ∧
      decodeAlpn (replicate 258 1) = some (replicate 129 [1]) := by
  have hread : decodeAlpn (replicate 258 1) = some (replicate 129 [1]) := by
    refine decodeAlpn_eq_some_iff.mpr ⟨fun str hstr => ?_, by decide +kernel⟩
    rw [eq_of_mem_replicate hstr]
    exact ⟨by decide, by decide⟩
  have hbuffer : alpnBuffer [replicate 257 1] = replicate 258 1 := by decide +kernel
  refine ⟨?_, hread⟩
  rw [setAlpnProtocols, hbuffer, hread]
  rfl

end Alpn

end Netstack.TlsSocket
