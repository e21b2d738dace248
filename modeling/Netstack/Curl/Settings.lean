import Netstack.Foundation.Attempts
import Netstack.Foundation.ByteStrings

/-!
# Options of a curl handle

The macro `NETSTACK_CURL_EASY_SET_OPTION` leaves the calling function with `false` when curl
refuses an option; the options set before stay set.

## Implementation notes

A handle is the list of the settings it has taken. Whether curl takes a setting is left open.
A text is the string whose `c_str()` is given.
-/

namespace Netstack.Curl

open Foundation Attempt List

inductive CurlOption where
  | acceptEncoding | caInfo | connectTimeoutMs | cookieFile | customRequest
  | dnsCacheTimeout | dnsInterface | dnsServers | dohUrl | followLocation | forbidReuse
  | freshConnect
  | headerData | headerFunction | httpAuth | httpHeader | httpProxyTunnel | httpVersion
  | inFileSize | interface | ipResolve | keyPasswd | maxAgeConn | maxRedirs | mimePost
  | noBody | noProgress | noSignal | password | pinnedPublicKey | post | postFields
  | postFieldSize | preReqData | preReqFunction | proxy | proxyPassword | proxyPort
  | proxyType | proxyUserName | range | readData | resolve | resolverStartData
  | resolverStartFunction | share | sniHostName
  | sockOptData | sockOptFunction | sslCert | sslCertType | sslCipherList | sslCtxData
  | sslCtxFunction | sslEncCert | sslEncKey | sslKey | sslVerifyHost | sslVerifyPeer
  | sslVersion | timeoutMs | tls13Ciphers | upload | url | useDnsInterceptor | userAgent
  | userName
  | writeData | writeFunction | xferInfoData | xferInfoFunction
  deriving DecidableEq, Repr

/-- The functions of the repository that curl calls back. -/
inductive Callback where
  | progressCallback
  | dataReceiveCallback
  | headerReceiveCallback
  | onWritingMemoryBody
  | onWritingMemoryHeader
  | setOptionToSocket
  | sslCtxFunction
  | traceDns
  | traceTcp
  | traceTls
  | traceSending
  deriving DecidableEq, Repr

/-- What `curl_mime_*` is asked to put into one part of a form. -/
inductive MimeCall where
  | name (s : Bytes)
  | type (s : Bytes)
  | filename (s : Bytes)
  | data (s : Bytes)
  | filedata (path : Bytes)
  deriving DecidableEq, Repr

inductive CurlValue where
  | long (n : Int)
  | text (s : Bytes)
  | bytes (s : Bytes)
  | slist (lines : List Bytes)
  | mime (parts : List (List MimeCall))
  | callback (f : Callback)
  | file (path : Bytes)
  /-- The object that owns the handle. -/
  | owner
  | shareHandle
  | null
  deriving DecidableEq, Repr

abbrev Setting := CurlOption × CurlValue

/-- What the code takes from libcurl. -/
structure CurlLibrary where
  takes : Setting → Bool
  sslVersionTLCPv11 : Int := 8
  takesMime : MimeCall → Bool := fun _ => true
  mimeInit : Bool := true
  builtWithOpenSSL : Bool := true

/-- A handle that `α` configures. -/
structure Handle (α : Type) where
  owner : α
  settings : List Setting := []

variable {α β : Type}

/-- `NETSTACK_CURL_EASY_SET_OPTION`. -/
def setOption (curl : CurlLibrary) (o : CurlOption) (v : CurlValue) : Attempt (Handle α) Unit :=
  fun h =>
    if curl.takes (o, v) then (some (), { h with settings := h.settings ++ [(o, v)] })
    else (none, h)

variable {curl : CurlLibrary} {o : CurlOption} {v : CurlValue}

theorem setOption_of_takes (ht : curl.takes (o, v) = true) (h : Handle α) :
    setOption curl o v h = (some (), { h with settings := h.settings ++ [(o, v)] }) := by
  rw [setOption, if_pos ht]

theorem setOption_of_refuses
    (ht : curl.takes (o, v) = false) (h : Handle α) : setOption curl o v h = (none, h) := by
  rw [setOption, if_neg (by rw [ht]; exact Bool.false_ne_true)]

/-- Curl refuses nothing. -/
def CurlLibrary.TakesAll (curl : CurlLibrary) : Prop := ∀ s, curl.takes s = true

def obligingCurl : CurlLibrary where
  takes := fun _ => true

theorem obligingCurl_takesAll : obligingCurl.TakesAll := fun _ => rfl

variable {h : Handle α} {p : Prop}

/-- A body is posted. -/
def setPost (curl : CurlLibrary) (body : Bytes) : Attempt (Handle α) Unit := do
  setOption curl .post (.long 1)
  setOption curl .postFields (.bytes body)
  setOption curl .postFieldSize (.long body.length)

theorem ends_setOption {Q : Unit → Handle α → Prop} : Ends (setOption curl o v) h Q ↔
      curl.takes (o, v) = true ∧ Q () { h with settings := h.settings ++ [(o, v)] } := by
  cases ht : curl.takes (o, v) with
  | true =>
    rw [Ends, setOption_of_takes ht]
    grind
  | false =>
    rw [Ends, setOption_of_refuses ht]
    simp

attribute [irreducible] setOption

section Adds

variable (P : CurlOption → Prop)

/-- The owner is left alone and only settings of certain options are made. -/
def Adds (h k : Handle α) : Prop :=
  k.owner = h.owner ∧ ∃ made, k.settings = h.settings ++ made ∧ ∀ s ∈ made, P s.1

instance : IsPreorder (Handle α) (Adds P) where
  refl h := ⟨rfl, [], (append_nil _).symm, fun _ hs => absurd hs not_mem_nil⟩
  trans := by
    rintro h k m ⟨hk, made, hmade, hP⟩ ⟨hm, made', hmade', hP'⟩
    refine ⟨hm.trans hk, made ++ made', ?_, ?_⟩
    · rw [hmade', hmade, append_assoc]
    · intro s hs
      rcases mem_append.1 hs with hs | hs
      · exact hP s hs
      · exact hP' s hs

variable {P}

theorem adds_setOption (curl : CurlLibrary) (v : CurlValue) (ho : P o) :
    Respects (Adds (α := α) P) (setOption curl o v) := by
  intro h
  cases ht : curl.takes (o, v) with
  | true =>
    rw [setOption_of_takes ht]
    refine ⟨rfl, [(o, v)], rfl, ?_⟩
    grind
  | false =>
    rw [setOption_of_refuses ht]
    exact refl_of (Adds P) h

/-- An option that is taken makes the list of settings longer, whatever follows. -/
theorem settings_grow (ht : curl.takes (o, v) = true) {f : Unit → Attempt (Handle α) β}
    (hf : Respects (Adds P) (f ())) (h : Handle α) :
    h.settings.length < ((setOption curl o v >>= f) h).2.settings.length := by
  rw [bind_of_some (setOption_of_takes ht h)]
  obtain ⟨-, made, hmade, -⟩ := hf { h with settings := h.settings ++ [(o, v)] }
  grind

end Adds

section SetsOthers

/-- The options that say what is requested. -/
def describesRequest : CurlOption → Bool
  | .url | .customRequest | .noBody | .post | .postFields | .postFieldSize | .httpHeader => true
  | _ => false

theorem describesRequest_cases (h : describesRequest o = true) :
    o = .url ∨ o = .customRequest ∨ o = .noBody ∨ o = .post ∨ o = .postFields ∨
      o = .postFieldSize ∨ o = .httpHeader := by
  cases o <;> first | cases h; done | simp

/-- The attempt leaves the owner and the options that describe the request alone. -/
def SetsOthers (x : Attempt (Handle α) Unit) : Prop :=
  Respects (Adds fun o => describesRequest o = false) x

variable {x : Attempt (Handle α) Unit}

theorem SetsOthers.reading {f : Handle α → Attempt (Handle α) Unit} (hf : ∀ h, SetsOthers (f h)) :
    SetsOthers (state >>= f) :=
  Respects.bind respects_state hf

namespace SetsOthers

variable (hx : SetsOthers x)
include hx

theorem bind {y : Attempt (Handle α) Unit} (hy : SetsOthers y) : SetsOthers (x >>= fun _ => y) :=
  Respects.bind hx fun _ => hy

theorem when [Decidable p] : SetsOthers (when p x) :=
  Respects.when fun _ => hx

theorem ite [Decidable p] {y : Attempt (Handle α) Unit}
    (hy : SetsOthers y) : SetsOthers (if p then x else y) :=
  Respects.ite hx hy

theorem ignoring : SetsOthers (ignoring x) :=
  Respects.ignoring hx

end SetsOthers

theorem setsOthers_pure : SetsOthers (pure () : Attempt (Handle α) Unit) := respects_pure ()

theorem setsOthers_giveUp : SetsOthers (giveUp : Attempt (Handle α) Unit) :=
  respects_giveUp

theorem setsOthers_setOption (curl : CurlLibrary) (v : CurlValue)
    (ho : describesRequest o = false) : SetsOthers (setOption curl o v : Attempt (Handle α) Unit) :=
  adds_setOption curl v ho

end SetsOthers

section RequestKind

/-- The request curl makes. -/
inductive RequestKind where
  | get
  | head
  | post
  deriving DecidableEq, Repr

/-- `CURLOPT_NOBODY` and `CURLOPT_POST` each take the other one back. -/
def kindOf : Setting → Option RequestKind
  | (.noBody, .long 1) => some .head
  | (.post, .long 1) => some .post
  | _ => none

def lastKind (settings : List Setting) : Option RequestKind :=
  (settings.filterMap kindOf).getLast?

def requestKind (settings : List Setting) : RequestKind := (lastKind settings).getD .get

theorem lastKind_append (before after : List Setting) :
    lastKind (before ++ after) = (lastKind after).or (lastKind before) := by
  rw [lastKind, filterMap_append, getLast?_append]
  rfl

theorem kindOf_of_other {s : Setting} (h : describesRequest s.1 = false) : kindOf s = none := by
  obtain ⟨o, v⟩ := s
  cases o <;> first | rfl | cases h

end RequestKind

section Leaves

/-- The settings that describe the request. -/
def describing (settings : List Setting) : List Setting :=
  settings.filter fun s => describesRequest s.1

theorem latest_describing (ho : describesRequest o = true) (settings : List Setting) :
    latest o (describing settings) = latest o settings := by
  induction settings with
  | nil => rfl
  | cons s settings ih =>
    simp only [describing, filter_cons] at ih ⊢
    split
    · rw [latest_cons, latest_cons, ih]
    · next hs =>
        have hne : o ≠ s.1 := fun h => hs (h ▸ ho)
        rw [latest_cons, if_neg hne, Option.or_none, ih]

theorem lastKind_describing (settings : List Setting) :
    lastKind (describing settings) = lastKind settings := by
  rw [lastKind, lastKind, describing, filterMap_filter]
  congr 1
  refine filterMap_congr fun s _ => ?_
  split
  · rfl
  · next hs => exact (kindOf_of_other (Bool.eq_false_of_not_eq_true hs)).symm

theorem describing_of_adds {k : Handle α} (hk : Adds (fun o => describesRequest o = false) h k) :
    describing k.settings = describing h.settings := by
  obtain ⟨-, made, hmade, hP⟩ := hk
  have hnone : describing made = [] := filter_eq_nil_iff.2 fun s hs => by simp [hP s hs]
  rw [hmade, describing, filter_append]
  exact (congrArg _ hnone).trans (append_nil _)

variable {x y : Attempt (Handle α) Unit} {r q : α} {made more : List Setting}

/-- However the attempt ends, it leaves this owner, and these are the settings it has made that
describe the request. -/
def Leaves (x : Attempt (Handle α) Unit) (h : Handle α) (r : α) (made : List Setting) : Prop :=
  (x h).2.owner = r ∧ describing (x h).2.settings = describing h.settings ++ made

/-- The attempt does not give up either. -/
def Makes (x : Attempt (Handle α) Unit) (h : Handle α) (r : α) (made : List Setting) : Prop :=
  (x h).1 = some () ∧ Leaves x h r made

theorem SetsOthers.leaves (hx : SetsOthers x) (hr : h.owner = r) : Leaves x h r [] :=
  ⟨(hx h).1.trans hr, (describing_of_adds (hx h)).trans (append_nil _).symm⟩

theorem SetsOthers.makes_ignoring (hx : SetsOthers x) (hr : h.owner = r) :
    Makes (Attempt.ignoring x) h r [] :=
  ⟨congrArg Prod.fst (ignoring_apply x h), hx.ignoring.leaves hr⟩

theorem makes_setOption (hcurl : curl.TakesAll) (o : CurlOption) (v : CurlValue)
    (hr : h.owner = r) : Makes (setOption curl o v) h r (describing [(o, v)]) := by
  rw [Makes, Leaves, setOption_of_takes (hcurl (o, v))]
  exact ⟨rfl, hr, filter_append _ _⟩

theorem makes_pure (hr : h.owner = r) : Makes (pure ()) h r [] :=
  ⟨rfl, hr, (append_nil _).symm⟩

theorem makes_update (g : α → α) (hr : h.owner = r) :
    Makes (update fun h => { h with owner := g h.owner }) h (g r) [] :=
  ⟨rfl, congrArg g hr, (append_nil _).symm⟩

theorem Makes.when [Decidable p] (hx : Makes x h r made) (hr : h.owner = r) :
    Makes (Attempt.when p x) h r (if p then made else []) := by
  by_cases hp : p
  · rw [when_of_pos hp, if_pos hp]
    exact hx
  · rw [when_of_neg hp, if_neg hp]
    exact makes_pure hr

/-- The second part goes on from the owner that the first one leaves. -/
theorem Makes.leaves_bind (hx : Makes x h r made)
    (hy : ∀ k : Handle α, k.owner = r → Leaves y k q more) :
    Leaves (x >>= fun _ => y) h q (made ++ more) := by
  obtain ⟨hsome, howner, hmade⟩ := hx
  have hnext := hy (x h).2 howner
  rw [Leaves, bind_of_some (Prod.ext hsome rfl), hnext.1, hnext.2, hmade, append_assoc]
  exact ⟨rfl, rfl⟩

theorem Leaves.reading {f : Handle α → Attempt (Handle α) Unit}
    (hf : Leaves (f h) h r made) : Leaves (state >>= f) h r made :=
  hf

/-- The first part makes no setting that describes the request. -/
theorem Makes.leaves_after (hx : Makes x h r [])
    (hy : ∀ k : Handle α, k.owner = r → Leaves y k q more) : Leaves (x >>= fun _ => y) h q more :=
  hx.leaves_bind hy

theorem Makes.bind (hx : Makes x h r made)
    (hy : ∀ k : Handle α, k.owner = r → Makes y k q more) :
    Makes (x >>= fun _ => y) h q (made ++ more) := by
  refine ⟨?_, hx.leaves_bind fun k hk => (hy k hk).2⟩
  rw [bind_of_some (Prod.ext hx.1 rfl)]
  exact (hy _ hx.2.1).1

/-- A setting that is only made in one case. -/
def settingIf (p : Prop) [Decidable p] (o : CurlOption) (v : CurlValue) : List Setting :=
  if p then [(o, v)] else []

def postSettings (body : Bytes) : List Setting :=
  [(.post, .long 1), (.postFields, .bytes body), (.postFieldSize, .long body.length)]

theorem makes_setPost (hcurl : curl.TakesAll) (body : Bytes) (hr : h.owner = r) :
    Makes (setPost curl body) h r (postSettings body) := by
  refine (makes_setOption hcurl _ _ hr).bind fun k hk => ?_
  refine (makes_setOption hcurl _ _ hk).bind fun k hk => ?_
  exact makes_setOption hcurl _ _ hk

theorem Leaves.latest (hx : Leaves x h r made) (ho : describesRequest o = true) :
    latest o (x h).2.settings = (latest o made).or (latest o h.settings) := by
  rw [← latest_describing ho, hx.2, latest_append, latest_describing ho]

theorem Leaves.lastKind (hx : Leaves x h r made) :
    lastKind (x h).2.settings = (lastKind made).or (lastKind h.settings) := by
  rw [← lastKind_describing, hx.2, lastKind_append, lastKind_describing]

end Leaves

end Netstack.Curl
