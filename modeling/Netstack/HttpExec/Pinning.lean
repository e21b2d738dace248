import Netstack.Common.CertPins
import Netstack.Foundation.Execution

/-!
# Pinning against the root of a chain

With `HTTP_ONLY_VERIFY_ROOT_CA_ENABLE` a chain is let through if the key of its root is pinned,
or else if the key of the peer is. Which of the two is being looked at is remembered in two
flags of the request, and nothing puts them down again between handshakes.

## Implementation notes

OpenSSL calls the callback for each certificate from the root down, until an answer is 0.
-/

namespace Netstack.HttpExec

open Foundation Foundation.Execution CommonUtils List

/-- The results of `VerifyCertPubkey`. -/
inductive PubkeyResult where
  | ok
  | badFunctionArgument
  | sslPinnedPubkeyNotMatch
  deriving DecidableEq, Repr

/-- What `i2d_X509_PUBKEY` and `Sha256sum` make of a certificate; `none` if one of them
fails. -/
structure X509 where
  pubKeyDigest : Option Bytes
  deriving DecidableEq, Repr

def verifyCertPubkey (cert : Option X509) (pinnedPubkey : Bytes) : PubkeyResult :=
  if pinnedPubkey = [] then .ok
  else
    match cert with
    | none => .badFunctionArgument
    | some cert =>
      match cert.pubKeyDigest with
      | none => .badFunctionArgument
      | some digest =>
        if isCertPubKeyInPinned digest pinnedPubkey then .ok
        else .sslPinnedPubkeyNotMatch

/-- One call of the callback, the depth apart. The last field says whether the `SSL`, its
`SSL_CTX` and the request in the data of that one are all there. -/
structure VerifyCall where
  currentCert : Option X509
  preverifyOk : Int
  hasRequestContext : Bool
  deriving DecidableEq, Repr

/-- The part of the request that the callback writes. -/
structure RootCaFlags where
  isRootCaVerified : Bool := false
  isRootCaVerifiedOk : Bool := false
  deriving DecidableEq, Repr

def verifyCallback (pinnedPubkey : Bytes) (flags : RootCaFlags) (call : VerifyCall)
    (depth : Nat) : Int × RootCaFlags :=
  if ¬ call.hasRequestContext then (0, flags)
  else if flags.isRootCaVerifiedOk then (call.preverifyOk, flags)
  else
    let verifyResult := verifyCertPubkey call.currentCert pinnedPubkey
    let flags :=
      if ¬ flags.isRootCaVerified then ⟨true, decide (verifyResult = .ok)⟩ else flags
    if verifyResult ≠ .ok ∧ depth = 0 then (0, flags) else (call.preverifyOk, flags)

/-- The calls of one handshake; the result says whether all of them were answered by
something else than 0. -/
def verifyChain (pinnedPubkey : Bytes) : RootCaFlags → List VerifyCall → Bool × RootCaFlags
  | flags, [] => (true, flags)
  | flags, call :: calls =>
    let (answer, flags) := verifyCallback pinnedPubkey flags call calls.length
    if answer = 0 then (false, flags) else verifyChain pinnedPubkey flags calls

/-- A chain as it is presented in a handshake, from the root down to the peer. -/
structure Handshake where
  calls : List VerifyCall
  calls_ne_nil : calls ≠ []
  deriving DecidableEq, Repr

namespace Handshake

def root (h : Handshake) : VerifyCall := h.calls.head h.calls_ne_nil

def leaf (h : Handshake) : VerifyCall := h.calls.getLast h.calls_ne_nil

end Handshake

/-- The flags of a request and the handshakes under it that went through. -/
structure PinnedRequest where
  flags : RootCaFlags := {}
  established : List Handshake := []
  deriving DecidableEq, Repr

def PinnedRequest.handshake (pinnedPubkey : Bytes) (s : PinnedRequest) (h : Handshake) :
    Option PinnedRequest :=
  let (passed, flags) := verifyChain pinnedPubkey s.flags h.calls
  some { flags := flags,
         established := if passed then s.established ++ [h] else s.established }

section Spec

variable {pinnedPubkey : Bytes} {flags : RootCaFlags} {call : VerifyCall} {depth : Nat}

/-- The digest of the certificate is in the list of pins. -/
def VerifyCall.Pinned (pinnedPubkey : Bytes) (call : VerifyCall) : Prop :=
  ∃ cert ∈ call.currentCert, ∃ digest ∈ cert.pubKeyDigest,
    isCertPubKeyInPinned digest pinnedPubkey = true

instance : DecidablePred (VerifyCall.Pinned pinnedPubkey) := fun call =>
  inferInstanceAs (Decidable (∃ cert ∈ call.currentCert, ∃ digest ∈ cert.pubKeyDigest,
    isCertPubKeyInPinned digest pinnedPubkey = true))

/-- OpenSSL itself is content with the certificate, and the callback finds the request. -/
def VerifyCall.Trusted (call : VerifyCall) : Prop :=
  call.hasRequestContext = true ∧ call.preverifyOk ≠ 0

instance : DecidablePred VerifyCall.Trusted := fun call =>
  inferInstanceAs (Decidable (call.hasRequestContext = true ∧ call.preverifyOk ≠ 0))

/-- Once the root of some handshake was pinned, the callback answers as OpenSSL does. -/
theorem verifyCallback_of_ok (hok : flags.isRootCaVerifiedOk = true) :
    (verifyCallback pinnedPubkey flags call depth).1 ≠ 0 ↔ call.Trusted := by
  grind [verifyCallback, VerifyCall.Trusted]

/-- The flags are written by the first call under the request and never again. -/
theorem verifyCallback_flags (hcalled : flags.isRootCaVerified = true) :
    (verifyCallback pinnedPubkey flags call depth).2 = flags := by
  simp only [verifyCallback, hcalled, not_true_eq_false, if_false]
  split
  · rfl
  · split
    · rfl
    · split <;> rfl

variable (hpins : pinnedPubkey ≠ [])
include hpins

theorem verifyCertPubkey_eq_ok_iff :
    verifyCertPubkey call.currentCert pinnedPubkey = .ok ↔ call.Pinned pinnedPubkey := by
  simp only [verifyCertPubkey, if_neg hpins, VerifyCall.Pinned]
  grind

/-- Before that, the certificate of the peer must also be pinned. -/
theorem verifyCallback_of_not_ok (hok : flags.isRootCaVerifiedOk = false) :
    (verifyCallback pinnedPubkey flags call depth).1 ≠ 0 ↔
      call.Trusted ∧ (depth = 0 → call.Pinned pinnedPubkey) := by
  rw [← verifyCertPubkey_eq_ok_iff hpins, verifyCallback, VerifyCall.Trusted]
  grind

theorem verifyCallback_fresh_flags (hcontext : call.hasRequestContext = true) :
    (verifyCallback pinnedPubkey {} call depth).2 =
      ⟨true, decide (call.Pinned pinnedPubkey)⟩ := by
  have hresult : decide (verifyCertPubkey call.currentCert pinnedPubkey = .ok) =
      decide (call.Pinned pinnedPubkey) :=
    decide_eq_decide.mpr (verifyCertPubkey_eq_ok_iff hpins)
  simp only [verifyCallback, hcontext, not_true_eq_false, if_false, Bool.false_eq_true,
    not_false_eq_true, if_true, hresult]
  split <;> rfl

end Spec

section Chains

variable {pinnedPubkey : Bytes} {flags : RootCaFlags} {call : VerifyCall}
  {calls : List VerifyCall}

/-- A chain goes through if its first call is answered and so are the others. -/
theorem verifyChain_cons_iff :
    (verifyChain pinnedPubkey flags (call :: calls)).1 = true ↔
      (verifyCallback pinnedPubkey flags call calls.length).1 ≠ 0 ∧
      (verifyChain pinnedPubkey (verifyCallback pinnedPubkey flags call calls.length).2
        calls).1 = true := by
  rw [verifyChain]
  grind

theorem verifyChain_of_ok (hcalled : flags.isRootCaVerified = true)
    (hok : flags.isRootCaVerifiedOk = true) (calls : List VerifyCall) :
    (verifyChain pinnedPubkey flags calls).1 = true ↔ ∀ call ∈ calls, call.Trusted := by
  induction calls with
  | nil => simp [verifyChain]
  | cons call calls ih =>
    rw [verifyChain_cons_iff, verifyCallback_of_ok hok, verifyCallback_flags hcalled, ih,
      forall_mem_cons]

/-- The request has not been looked at yet, or its flags are final. -/
def RootCaFlags.Settled (flags : RootCaFlags) : Prop :=
  flags = {} ∨ flags.isRootCaVerified = true

theorem verifyCallback_settled {depth : Nat} (hpins : pinnedPubkey ≠ [])
    (hsettled : flags.Settled) : (verifyCallback pinnedPubkey flags call depth).2.Settled := by
  obtain rfl | hcalled := hsettled
  · cases hcontext : call.hasRequestContext with
    | true =>
      rw [verifyCallback_fresh_flags hpins hcontext]
      exact Or.inr rfl
    | false =>
      left
      simp [verifyCallback, hcontext]
  · rw [verifyCallback_flags hcalled]
    exact Or.inr hcalled

variable (hpins : pinnedPubkey ≠ [])
include hpins

/-- While no root was pinned, the peer is. -/
theorem leaf_pinned_of_verifyChain
    (hcalled : flags.isRootCaVerified = true) (hok : flags.isRootCaVerifiedOk = false)
    (hne : calls ≠ []) (hpassed : (verifyChain pinnedPubkey flags calls).1 = true) :
    (calls.getLast hne).Pinned pinnedPubkey := by
  induction calls with
  | nil => exact absurd rfl hne
  | cons call calls ih =>
    obtain ⟨hanswer, hrest⟩ := verifyChain_cons_iff.mp hpassed
    rw [verifyCallback_flags hcalled] at hrest
    cases calls with
    | nil => exact ((verifyCallback_of_not_ok hpins hok).mp hanswer).2 rfl
    | cons next calls =>
      grind

/-- The first handshake under a request is checked as intended. -/
theorem pinned_of_verifyChain_fresh (hne : calls ≠ [])
    (hpassed : (verifyChain pinnedPubkey {} calls).1 = true) :
    (calls.head hne).Pinned pinnedPubkey ∨ (calls.getLast hne).Pinned pinnedPubkey := by
  obtain ⟨call, calls, rfl⟩ := exists_cons_of_ne_nil hne
  obtain ⟨hanswer, hrest⟩ := verifyChain_cons_iff.mp hpassed
  obtain ⟨htrusted, hpeer⟩ := (verifyCallback_of_not_ok hpins rfl).mp hanswer
  rw [verifyCallback_fresh_flags hpins htrusted.1] at hrest
  by_cases hroot : call.Pinned pinnedPubkey
  · exact Or.inl hroot
  · right
    cases calls with
    | nil => exact hpeer rfl
    | cons next calls =>
      rw [getLast_cons (cons_ne_nil next calls)]
      exact leaf_pinned_of_verifyChain hpins rfl (decide_eq_false hroot)
        (cons_ne_nil next calls) hrest

theorem verifyChain_settled (calls : List VerifyCall)
    (hsettled : flags.Settled) : (verifyChain pinnedPubkey flags calls).2.Settled := by
  induction calls generalizing flags with
  | nil => exact hsettled
  | cons call calls ih =>
    grind [verifyCallback_settled, verifyChain]

end Chains

section Requests

variable {pinnedPubkey : Bytes}

/-- The key of the root or of the peer is pinned. -/
def Handshake.Pinned (pinnedPubkey : Bytes) (h : Handshake) : Prop :=
  h.root.Pinned pinnedPubkey ∨ h.leaf.Pinned pinnedPubkey

instance : DecidablePred (Handshake.Pinned pinnedPubkey) := fun h =>
  inferInstanceAs (Decidable (h.root.Pinned pinnedPubkey ∨ h.leaf.Pinned pinnedPubkey))

/-- Every handshake that went through had a pinned root or a pinned peer. -/
def PinnedRequest.PinningHolds (pinnedPubkey : Bytes) (s : PinnedRequest) : Prop :=
  ∀ h ∈ s.established, h.Pinned pinnedPubkey

instance : DecidablePred (PinnedRequest.PinningHolds pinnedPubkey) := fun s =>
  inferInstanceAs (Decidable (∀ h ∈ s.established, h.Pinned pinnedPubkey))

/-- No root was found pinned under the request before, or OpenSSL refuses the chain by
itself, or the chain is pinned. -/
def PinnedRequest.Covers (pinnedPubkey : Bytes) (s : PinnedRequest) (h : Handshake) : Prop :=
  s.flags.isRootCaVerifiedOk = false ∨ (∃ call ∈ h.calls, ¬ call.Trusted) ∨
    h.Pinned pinnedPubkey

instance (s : PinnedRequest) (h : Handshake) : Decidable (s.Covers pinnedPubkey h) :=
  inferInstanceAs (Decidable (s.flags.isRootCaVerifiedOk = false ∨
    (∃ call ∈ h.calls, ¬ call.Trusted) ∨ h.Pinned pinnedPubkey))

/-- A handshake goes through only if it is pinned, exactly under the condition. -/
theorem PinnedRequest.covers_iff (hpins : pinnedPubkey ≠ []) {s : PinnedRequest}
    (hsettled : s.flags.Settled) (h : Handshake) :
    s.Covers pinnedPubkey h ↔
      ((verifyChain pinnedPubkey s.flags h.calls).1 = true → h.Pinned pinnedPubkey) := by
  cases hok : s.flags.isRootCaVerifiedOk with
  | false =>
    refine ⟨fun _ hpassed => ?_, fun _ => Or.inl hok⟩
    obtain hfresh | hcalled := hsettled
    · rw [hfresh] at hpassed
      exact pinned_of_verifyChain_fresh hpins h.calls_ne_nil hpassed
    · exact Or.inr (leaf_pinned_of_verifyChain hpins hcalled hok h.calls_ne_nil hpassed)
  | true =>
    have hcalled : s.flags.isRootCaVerified = true := by
      grind [@hsettled.resolve_left]
    rw [verifyChain_of_ok hcalled hok, Covers, hok, or_iff_right Bool.noConfusion,
      imp_iff_not_or]
    simp only [not_forall, exists_prop]

theorem PinnedRequest.handshake_holds_iff (hpins : pinnedPubkey ≠ []) {s t : PinnedRequest}
    {h : Handshake} (hsettled : s.flags.Settled) (hholds : s.PinningHolds pinnedPubkey)
    (hstep : s.handshake pinnedPubkey h = some t) :
    t.PinningHolds pinnedPubkey ↔ s.Covers pinnedPubkey h := by
  cases hstep
  rw [covers_iff hpins hsettled]
  cases hpassed : (verifyChain pinnedPubkey s.flags h.calls).1 with
  | false => simpa [PinningHolds, hpassed] using hholds
  | true =>
    simp only [PinningHolds, if_true, forall_mem_append, forall_mem_singleton,
      forall_const]
    exact and_iff_right hholds

end Requests

/-- Along a sequence of handshakes under one request, each that goes through has a pinned
root or a pinned peer exactly if each one made after a pinned root was found is refused
by OpenSSL itself or has such a chain. -/
theorem pinning_iff_covers (pinnedPubkey : Bytes) (hpins : pinnedPubkey ≠ [])
    (handshakes : List Handshake) :
    Throughout (PinnedRequest.handshake pinnedPubkey)
        (PinnedRequest.PinningHolds pinnedPubkey) handshakes {} ↔
      Meets (PinnedRequest.handshake pinnedPubkey)
        (PinnedRequest.Covers pinnedPubkey) handshakes {} := by
  apply throughout_iff_meets (J := fun s => s.flags.Settled)
  · intro s h t hsettled hstep
    cases hstep
    exact verifyChain_settled hpins h.calls hsettled
  · intro s h t hsettled hholds hstep
    exact PinnedRequest.handshake_holds_iff hpins hsettled hholds hstep
  · exact Or.inl rfl
  · intro h hmem
    exact absurd hmem not_mem_nil

/-- A call for a certificate with this digest that OpenSSL is content with. -/
def trustedCall (digest : Bytes) : VerifyCall where
  currentCert := some ⟨some digest⟩
  preverifyOk := 1
  hasRequestContext := true

def foreignDigest : Bytes := ascii "n4bQgYhMfWWaL+qgxVrQFaO/TxsrC4Is0V1sFbDwCgg="

/-- A chain under the root with this digest, the peer having a key that is not pinned. -/
def chainUnder (digest : Bytes) : Handshake where
  calls := [trustedCall digest, trustedCall foreignDigest]
  calls_ne_nil := cons_ne_nil _ _

def pinnedRoot : Bytes := ascii "47DEQpj8HBSa+/TImW+5JCeuQeRkm5NMpJWZG3hSuFU="

/-- A reconnect to the same host under a pinned root. -/
theorem pinning_on_reconnect :
    Throughout
      (PinnedRequest.handshake (parseCertificatePinning samplePins))
      (PinnedRequest.PinningHolds (parseCertificatePinning samplePins))
      [chainUnder pinnedRoot, chainUnder pinnedRoot] {} :=
  (pinning_iff_covers _ (by decide +kernel) _).mpr (by decide +kernel)

/-- A redirect to a host with a chain of which nothing is pinned. -/
theorem pinning_lost_on_redirect :
    ¬ Throughout
      (PinnedRequest.handshake (parseCertificatePinning samplePins))
      (PinnedRequest.PinningHolds (parseCertificatePinning samplePins))
      [chainUnder pinnedRoot, chainUnder foreignDigest] {} := by
  decide +kernel

end Netstack.HttpExec
