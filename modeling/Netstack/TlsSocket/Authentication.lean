import Netstack.TlsSocket.Client

/-!
# What a finished handshake says about the server

`StartShakingHands` should succeed only if `SSL_connect` returned one and the certificate of the
peer was accepted for the host. Without a time limit, every result of `SSL_connect` other than `-1`
is taken for a success. The text that `CheckServerIdentityLegal` returns is dropped.
-/

namespace Netstack.TlsSocket

open Foundation

/-- A round after which `SSL_connect` is called again. -/
def Round.Retried (r : Round) : Prop :=
  r.sslConnect ≠ 1 ∧
    (r.sslError = Internal.sslErrorWantRead ∨ r.sslError = Internal.sslErrorWantWrite) ∧
    (r.poll < 0 ∧ r.interrupted = true ∨ 0 < r.poll ∧ r.broken = false)

/-- The rounds lead to one in which `SSL_connect` returns one. -/
def Completed : List Round → Prop
  | [] => False
  | r :: rounds => r.sslConnect = 1 ∨ r.Retried ∧ Completed rounds

namespace Internal

theorem shakingHandsLoop_of_retried {r : Round} (h : r.Retried) (rounds : List Round) :
    shakingHandsLoop (r :: rounds) =
      ((shakingHandsLoop rounds).1, r.sslConnect :: (shakingHandsLoop rounds).2) := by
  obtain ⟨hconnect, herror, hpoll⟩ := h
  rw [shakingHandsLoop, if_neg hconnect, if_pos herror]
  grind

/-- Any other round is the last one, and a failure. -/
theorem shakingHandsLoop_of_not_retried {r : Round} (hconnect : r.sslConnect ≠ 1)
    (h : ¬ r.Retried) (rounds : List Round) :
    (shakingHandsLoop (r :: rounds)).1 ∉ [tlsSocketSuccess, noTimeout] := by
  rw [shakingHandsLoop, if_neg hconnect]
  split
  · rename_i herror
    split
    · change tlsTimeout ∉ _
      decide
    · split
      · apply (h ⟨hconnect, herror, ?_⟩).elim
        grind
      · change pollErrInTls ∉ _
        decide
  · simp only [tlsErrSslBase, tlsSocketSuccess, noTimeout, List.mem_cons, List.not_mem_nil,
      or_false]
    omega

variable (rounds : List Round)

/-- The loop succeeds in a round of its own, or fails with a result that says so. -/
theorem shakingHandsLoop_cases :
    Completed rounds ∧ (shakingHandsLoop rounds).1 = tlsSocketSuccess ∨
      ¬ Completed rounds ∧ (shakingHandsLoop rounds).1 ∉ [tlsSocketSuccess, noTimeout] := by
  induction rounds with
  | nil => exact Or.inr ⟨id, by decide⟩
  | cons r rounds ih =>
    by_cases hconnect : r.sslConnect = 1
    · refine Or.inl ⟨Or.inl hconnect, ?_⟩
      rw [shakingHandsLoop, if_pos hconnect]
    grind [shakingHandsLoop_of_retried, Completed, shakingHandsLoop_of_not_retried]

theorem shakingHandsLoop_ne_noTimeout : (shakingHandsLoop rounds).1 ≠ noTimeout := by
  rcases shakingHandsLoop_cases rounds with ⟨-, h⟩ | ⟨-, h⟩
  · rw [h]
    decide
  grind

theorem shakingHandsLoop_success_iff :
    (shakingHandsLoop rounds).1 = tlsSocketSuccess ↔ Completed rounds := by
  rcases shakingHandsLoop_cases rounds with ⟨hcompleted, h⟩ | ⟨hfailed, h⟩
  · exact iff_of_true h hcompleted
  grind

theorem one_mem_calls_of_completed {rounds : List Round} (h : Completed rounds) :
    1 ∈ (shakingHandsLoop rounds).2 := by
  induction rounds with
  | nil => exact h.elim
  | cons r rounds ih =>
    by_cases hconnect : r.sslConnect = 1
    · rw [shakingHandsLoop, if_pos hconnect, hconnect]
      exact List.mem_singleton.mpr rfl
    grind [shakingHandsLoop_of_retried, @h.resolve_left]

variable {X : Type}

variable (env : Environment X)

/-- The handshake counts as done. -/
def HandsShaken (timeout : UInt32) : Prop :=
  if timeout ≤ 0 then env.sslConnect ≠ -1 else Completed env.rounds

theorem shakeHands_iff (timeout : UInt32) :
    (shakeHands env timeout).1 = true ↔ HandsShaken env timeout := by
  rw [HandsShaken, shakeHands, shakingHandsTimeout]
  by_cases hlimit : timeout ≤ 0
  · simp only [if_pos hlimit, if_true]
    exact bne_iff_ne
  · simp only [if_neg hlimit, if_neg (shakingHandsLoop_ne_noTimeout env.rounds), beq_iff_eq]
    exact shakingHandsLoop_success_iff env.rounds

variable {env}

theorem one_mem_calls_iff {timeout : UInt32} (h : HandsShaken env timeout) :
    1 ∈ (shakeHands env timeout).2 ↔ (timeout ≤ 0 → env.sslConnect = 1) := by
  rw [HandsShaken] at h
  rw [shakeHands, shakingHandsTimeout]
  by_cases hlimit : timeout ≤ 0
  · simp only [hlimit, if_true, List.mem_singleton, forall_const]
    exact eq_comm
  · rw [if_neg hlimit] at h
    simp only [if_neg hlimit, if_neg (shakingHandsLoop_ne_noTimeout env.rounds)]
    exact iff_of_true (one_mem_calls_of_completed h) (fun hle => (hlimit hle).elim)

/-- The text of the check that the handshake ends with, if it is made. -/
def identityText (env : Environment X) (options : TLSConnectOptions) (hostName : Bytes) :
    Option Bytes :=
  env.peerCertificate.bind fun cert =>
    if options.checkServerIdentity then none
    else some (checkServerIdentityLegal env.bio hostName cert)

theorem checkAfterShankingHands_eq (env : Environment X) (options : TLSConnectOptions)
    (s : Internal X) :
    s.checkAfterShankingHands env options =
      (env.peerCertificate.isSome, identityText env options s.hostName) := by
  grind [checkAfterShankingHands, identityText]

variable {s : Internal X} {options : TLSConnectOptions} (cache : CaCertCache)

section Results

variable [DecidableEq X]

theorem hostName_loadCached (env : Environment X) (options : TLSConnectOptions)
    (cache : CaCertCache) (s : Internal X) :
    (s.loadCached env options cache).hostName = s.hostName := by
  rw [loadCached, setSNIandLoadCachedCaCert]
  split
  · cases s.ssl <;> rfl
  · rfl

theorem startShakingHands_of_done
    (hssl : s.ssl ≠ none) (hdone : HandsShaken env options.timeout) :
    s.startShakingHands env options cache =
      let t := s.loadCached env options cache
      { success := env.peerCertificate.isSome
        started := some t
        calls := (shakeHands env options.timeout).2
        identity := identityText env options s.hostName
        internal :=
          { t with configuration := { t.configuration with cipherSuite := env.cipherList } }
        cache := fillCache env options cache } := by
  rw [startShakingHands, if_neg (by simpa using hssl)]
  simp only [(shakeHands_iff env options.timeout).mpr hdone, if_true,
    checkAfterShankingHands_eq, hostName_loadCached]

theorem startShakingHands_of_not_done
    (hssl : s.ssl ≠ none) (hdone : ¬ HandsShaken env options.timeout) :
    s.startShakingHands env options cache =
      { success := false
        started := some (s.loadCached env options cache)
        calls := (shakeHands env options.timeout).2
        internal := s.loadCached env options cache
        cache } := by
  rw [startShakingHands, if_neg (by simpa using hssl)]
  simp only [Bool.not_eq_true _ ▸ mt (shakeHands_iff env options.timeout).mp hdone,
    Bool.false_eq_true, if_false]

theorem startShakingHands_of_none (h : s.ssl = none) (env : Environment X)
    (options : TLSConnectOptions) (cache : CaCertCache) :
    s.startShakingHands env options cache = { success := false, internal := s, cache } := by
  rw [startShakingHands, if_pos (by simp [h])]

theorem started_startShakingHands (h : s.ssl ≠ none) (env : Environment X)
    (options : TLSConnectOptions) (cache : CaCertCache) :
    (s.startShakingHands env options cache).started = some (s.loadCached env options cache) := by
  grind [HandsShaken, startShakingHands_of_done, startShakingHands_of_not_done]

/-- The handshake has proved who the server is. -/
def Handshake.Authentic (h : Handshake X) (hostName : Bytes) : Prop :=
  1 ∈ h.calls ∧ h.identity = some (acceptedText hostName)

/-- No handshake is done, or no certificate is shown, or the certificate is the host's. Where no
time limit is given, `SSL_connect` must also have returned one. -/
def Vouched (env : Environment X) (options : TLSConnectOptions) (s : Internal X) : Prop :=
  s.ssl = none ∨ ¬ HandsShaken env options.timeout ∨
    ∀ cert, env.peerCertificate = some cert →
      (options.timeout ≤ 0 → env.sslConnect = 1) ∧
        checkServerIdentityLegal env.bio s.hostName cert = acceptedText s.hostName

/-- A successful handshake has proved who the server is if and only if its parts happen to. -/
theorem handshake_authentic_iff (env : Environment X) (options : TLSConnectOptions)
    (s : Internal X) (cache : CaCertCache) (hown : options.checkServerIdentity = false) :
    ((s.startShakingHands env options cache).success = true →
        (s.startShakingHands env options cache).Authentic s.hostName) ↔
      Vouched env options s := by
  rw [Vouched]
  by_cases hssl : s.ssl = none
  · rw [startShakingHands_of_none hssl]
    grind
  by_cases hdone : HandsShaken env options.timeout
  · rw [startShakingHands_of_done cache hssl hdone]
    simp only [hssl, hdone, not_true_eq_false, false_or, Handshake.Authentic,
      one_mem_calls_iff hdone, identityText, hown]
    cases env.peerCertificate with
    | none => simp
    | some cert => simp
  · rw [startShakingHands_of_not_done cache hssl hdone]
    grind

end Results

section Instances

def loopbackAddress : Bytes := ascii "127.0.0.1"

def connected : Internal Unit := { ssl := some { fd := 3 }, hostName := loopbackAddress }

/-- `SSL_connect` returns one, and the peer shows a certificate with these alternative names. -/
def showing (altNames : String) : Environment Unit :=
  { sslConnect := 1, peerCertificate := some ⟨some none, .data (ascii altNames)⟩ }

end Instances

theorem ownCertificate_authentic :
    (connected.startShakingHands (showing "IP Address:127.0.0.1") {} fun _ => ∅).Authentic
      loopbackAddress := by
  refine (handshake_authentic_iff (showing "IP Address:127.0.0.1") {} connected _ rfl).mpr ?_ rfl
  refine Or.inr (Or.inr fun cert hcert => ⟨fun _ => rfl, ?_⟩)
  cases hcert
  decide +kernel

def mismatch : Bytes := ascii
  "Hostname/IP does not match certificate's altnames: IP: 127.0.0.1 is not in the cert's list"

/-- The certificate of another host is found out, and the handshake succeeds. -/
theorem strangeCertificate_succeeds :
    let h := connected.startShakingHands (showing "DNS:stranger.example") {} fun _ => ∅
    h.success = true ∧
      h.identity = some mismatch ∧
      ¬ h.Authentic loopbackAddress := by
  have hidentity : (connected.startShakingHands (showing "DNS:stranger.example") {}
      fun _ => ∅).identity = some mismatch := by
    decide +kernel
  refine ⟨rfl, hidentity, fun hauthentic => ?_⟩
  have hsame := hidentity.symm.trans hauthentic.2
  revert hsame
  decide +kernel

end Internal

end Netstack.TlsSocket
