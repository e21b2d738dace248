import Netstack.Socks5.Instance

/-!
# The handshake and the segmentation of the stream

The proxy answers each request with one reply and sends the application's bytes
behind the last of them. TCP delivers that stream in chunks of any size, while the
client takes the first chunk it gets as the reply.

## Implementation notes

The reference is the delivery in which each reply is a chunk of its own.
-/

namespace Netstack.Socks5

open Foundation List Option Socks5MethodRequest Socks5ProxyResponse

variable {method : Socks5Method}

/-- A round after which the receive loop polls again. -/
def PollEvent.Idle (e : PollEvent) : Prop :=
  e = .pollInterrupted ∨ e = .pollTimedOut ∨ e = .recvRetry

/-- How the bytes that follow a request arrive: after some idle rounds, `more + 1` of
them at once. -/
structure Delivery where
  waits : List PollEvent := []
  idle : ∀ e ∈ waits, e.Idle := by simp
  more : Nat

def Delivery.rounds (d : Delivery) : List PollEvent := d.waits ++ [.arrived d.more]

theorem recv_idle {waits : List PollEvent} (hidle : ∀ e ∈ waits, e.Idle)
    (rounds : List PollEvent) (pending : Bytes) :
    recv (waits ++ rounds) pending = recv rounds pending := by
  induction waits with
  | nil => rfl
  | cons e waits ih =>
    have htail := ih fun e' he' => hidle e' (mem_cons_of_mem e he')
    obtain rfl | rfl | rfl := hidle e mem_cons_self
    · exact htail
    · exact htail
    · exact htail

theorem recv_rounds (d : Delivery) {pending : Bytes} (hne : pending ≠ []) :
    recv d.rounds pending =
      some (some (pending.take (d.more + 1), pending.drop (d.more + 1))) := by
  rw [Delivery.rounds, recv_idle d.idle]
  cases pending with
  | nil => exact absurd rfl hne
  | cons b bs => rfl

/-- The replies of a proxy, each in the frame the protocol gives it, and the bytes it
sends behind them. -/
structure Proxy where
  methodVersion : UInt8
  method : UInt8
  authVersion : UInt8 := 1
  authStatus : UInt8 := 0
  version : UInt8
  status : UInt8
  reserved : UInt8 := 0
  type : Socks5AddrType
  field : Bytes
  framed : type.Frames field
  port : UInt16
  application : Bytes

namespace Proxy

variable (p : Proxy)

def reply : RequestKind → Bytes
  | .method => [p.methodVersion, p.method]
  | .auth => [p.authVersion, p.authStatus]
  | .proxy => [p.version, p.status, p.reserved, p.type.toByte] ++ p.field ++ be16 p.port

def answer : RequestKind → Bytes
  | .method => p.reply .method
  | .auth => p.reply .auth
  | .proxy => p.reply .proxy ++ p.application

/-- The replies before the one to the connection request. -/
def early : Bytes :=
  p.reply .method ++ if p.method = 2 then p.reply .auth else []

/-- All the replies of the handshake. -/
def handshake : Bytes := p.early ++ p.reply .proxy

def channel (send : RequestKind → Bool) (d : RequestKind → Delivery) : Channel where
  send := send
  answer := p.answer
  rounds kind := (d kind).rounds

/-- The first chunk after a request. -/
def chunk (d : RequestKind → Delivery) (kind : RequestKind) : Bytes :=
  (p.answer kind).take ((d kind).more + 1)

/-- Each reply arrives in a chunk of its own. -/
def whole (kind : RequestKind) : Delivery where
  more := (p.reply kind).length - 1

variable (kind : RequestKind)

theorem reply_ne_nil : p.reply kind ≠ [] := by
  cases kind with
  | method => exact cons_ne_nil _ _
  | auth => exact cons_ne_nil _ _
  | proxy => exact cons_ne_nil _ _

theorem answer_ne_nil : p.answer kind ≠ [] := by
  cases kind with
  | method => exact p.reply_ne_nil .method
  | auth => exact p.reply_ne_nil .auth
  | proxy => exact append_ne_nil_of_left_ne_nil (p.reply_ne_nil .proxy) _

theorem reply_isPrefix_answer : p.reply kind <+: p.answer kind := by
  cases kind with
  | method => exact prefix_refl _
  | auth => exact prefix_refl _
  | proxy => exact prefix_append _ _

theorem chunk_whole : p.chunk p.whole kind = p.reply kind := by
  have hpos := length_pos_iff.mpr (p.reply_ne_nil kind)
  have hlen : (p.reply kind).length - 1 + 1 = (p.reply kind).length := Nat.sub_add_cancel hpos
  rw [chunk, whole, hlen]
  exact (prefix_iff_eq_take.mp (p.reply_isPrefix_answer kind)).symm

end Proxy

variable {kind : RequestKind} {α ρ : Type} {read : Bytes} {msg : Bytes}

section Requests

variable (p : Proxy) (send : RequestKind → Bool) (d : RequestKind → Delivery)

open Proxy

/-- A request that is sent when nothing waits is answered by the first chunk. -/
theorem requestProxyServer_channel
    (deserialize : Bytes → Option ρ) {x : Exchange α} (hmsg : msg ≠ []) (hsend : send kind = true)
    (hpending : x.pending = []) :
    requestProxyServer (p.channel send d) kind msg deserialize x = some
      (match deserialize (p.chunk d kind) with
        | none => ⟨x.inst.updateErrorInfo .deserializeError,
            (p.answer kind).drop ((d kind).more + 1), x.read ++ p.chunk d kind, none⟩
        | some response => ⟨x.inst, (p.answer kind).drop ((d kind).more + 1),
            x.read ++ p.chunk d kind, some response⟩) := by
  have hrecv := recv_rounds (d kind) (p.answer_ne_nil kind)
  have hsent : ¬ send kind = false := by simp only [hsend, Bool.true_eq_false, not_false_eq_true]
  simp only [requestProxyServer, channel, if_neg hmsg, if_neg hsent, hpending,
    nil_append, hrecv, chunk]
  cases deserialize ((p.answer kind).take ((d kind).more + 1)) with
  | none => rfl
  | some response => rfl

/-- The exchange has ended without success: nothing is bound, and no byte behind the
replies was taken. -/
def Proxy.Stops {ρ : Type} (i : Socks5Instance) (y : Exchange ρ) : Prop :=
  y.result = none ∧ y.inst.proxyBindAddr = i.proxyBindAddr ∧ y.read <+: p.handshake

variable {i : Socks5Instance}

/-- A request that cannot be written or sent ends the exchange as it stands. -/
theorem requestProxyServer_unsent (deserialize : Bytes → Option ρ) {x : Exchange α}
    (hbound : x.inst.proxyBindAddr = i.proxyBindAddr) (hread : x.read <+: p.handshake)
    (h : msg = [] ∨ send kind = false) :
    ∃ y, requestProxyServer (p.channel send d) kind msg deserialize x = some y ∧ p.Stops i y := by
  by_cases hmsg : msg = []
  · refine ⟨x.withError .serializeError ρ, ?_, rfl, hbound, hread⟩
    simp only [requestProxyServer, if_pos hmsg]
  · have hsend : send kind = false := h.resolve_left hmsg
    refine ⟨x.withError .failToSendMsg ρ, ?_, rfl, hbound, hread⟩
    rw [requestProxyServer, if_neg hmsg]
    exact if_pos hsend

/-- The first chunk of a reply of two bytes is the reply or its first byte. -/
theorem take_pair (a b : UInt8) (n : Nat) :
    [a, b].take (n + 1) = [a] ∨ [a, b].take (n + 1) = [a, b] := by
  cases n with
  | zero => exact Or.inl rfl
  | succ n => exact Or.inr (by simp)

theorem isPrefix_handshake_of_method (h : read <+: p.reply .method) : read <+: p.handshake := by
  rw [handshake, Proxy.early, append_assoc]
  exact h.trans (prefix_append _ _)

theorem isPrefix_handshake_of_early (h : read <+: p.early) : read <+: p.handshake :=
  h.trans (prefix_append _ _)

theorem createSocks5MethodByType_ofByte (b : UInt8) :
    createSocks5MethodByType (.ofByte b) =
      if b = 0 then some .noneMethod else if b = 2 then some .passwdMethod else none := by
  by_cases h0 : b = 0
  · rw [h0]
    rfl
  · by_cases h2 : b = 2
    · rw [h2]
      rfl
    · have hother : createSocks5MethodByType (.ofByte b) = none := by
        simp only [Socks5MethodType.ofByte, if_neg h0, if_neg h2]
        split_ifs <;> rfl
      rw [hother, if_neg h0, if_neg h2]

theorem deserialize_method_chunk :
    Socks5MethodResponse.deserialize (p.chunk d .method) =
      if p.chunk d .method = p.reply .method ∧ p.methodVersion = socks5Version then
        some ⟨p.methodVersion, p.method⟩
      else none := by
  obtain hone | hboth := take_pair p.methodVersion p.method (d .method).more
  · have hchunk : p.chunk d .method = [p.methodVersion] := hone
    rw [hchunk, if_neg fun h => absurd h.1 (by simp [reply])]
    rfl
  · have hchunk : p.chunk d .method = p.reply .method := hboth
    rw [hchunk]
    simp [socks5Version, reply, Socks5MethodResponse.deserialize]

theorem deserialize_auth_chunk :
    Socks5AuthResponse.deserialize (p.chunk d .auth) =
      if p.chunk d .auth = p.reply .auth ∧ p.authVersion = socks5Subversion then
        some ⟨p.authVersion, p.authStatus⟩
      else none := by
  obtain hone | hboth := take_pair p.authVersion p.authStatus (d .auth).more
  · have hchunk : p.chunk d .auth = [p.authVersion] := hone
    rw [hchunk, if_neg fun h => absurd h.1 (by simp [reply])]
    rfl
  · have hchunk : p.chunk d .auth = p.reply .auth := hboth
    rw [hchunk]
    simp [socks5Subversion, reply, Socks5AuthResponse.deserialize]

/-- What is left of an early answer of which the whole reply was taken. -/
theorem drop_eq_nil_of_chunk (hanswer : p.answer kind = p.reply kind)
    (hchunk : p.chunk d kind = p.reply kind) : (p.answer kind).drop ((d kind).more + 1) = [] := by
  rw [chunk, ← hanswer, take_eq_self_iff] at hchunk
  exact drop_eq_nil_of_le hchunk

variable {x : Exchange Unit}

/-- What the authentication needs apart from the delivery of its reply. -/
structure Proxy.Authenticates (i : Socks5Instance) : Prop where
  username : i.username ≠ []
  password : i.password ≠ []
  request : (authRequest i).serialize ≠ []
  sent : send .auth = true
  version : p.authVersion = socks5Subversion
  status : p.authStatus = 0

variable (hpending : x.pending = [])
include hpending

/-- The method request was answered by the whole reply. -/
theorem requestMethod_whole (hread : x.read = [])
    (hsend : send .method = true) (hversion : p.methodVersion = socks5Version)
    (hwhole : p.chunk d .method = p.reply .method) :
    requestMethod (p.channel send d) x = some
      ⟨{ x.inst with method := createSocks5MethodByType (.ofByte p.method) }, [],
        p.reply .method, some ()⟩ := by
  have hmsg : serialize ⟨socks5Version, socks5Methods⟩ ≠ [] :=
    cons_ne_nil _ _
  have hrun := requestProxyServer_channel p send d Socks5MethodResponse.deserialize hmsg hsend
    hpending
  rw [deserialize_method_chunk, hread, nil_append, if_pos ⟨hwhole, hversion⟩,
    drop_eq_nil_of_chunk p d rfl hwhole, hwhole] at hrun
  simp only [requestMethod, hrun]
  rfl

/-- Any other method request ends the exchange. -/
theorem requestMethod_stops (hread : x.read = []) (hbound : x.inst.proxyBindAddr = i.proxyBindAddr)
    (h : ¬ (send .method = true ∧ p.methodVersion = socks5Version ∧
      p.chunk d .method = p.reply .method)) :
    ∃ y, requestMethod (p.channel send d) x = some y ∧ p.Stops i y := by
  have hmsg : serialize ⟨socks5Version, socks5Methods⟩ ≠ [] :=
    cons_ne_nil _ _
  by_cases hsend : send .method = true
  · have hrun := requestProxyServer_channel p send d Socks5MethodResponse.deserialize hmsg hsend
      hpending
    rw [deserialize_method_chunk, hread, nil_append,
      if_neg fun hok => h ⟨hsend, hok.2, hok.1⟩] at hrun
    refine ⟨⟨x.inst.updateErrorInfo .deserializeError,
      (p.answer .method).drop ((d .method).more + 1), p.chunk d .method, none⟩, ?_, rfl, hbound,
      isPrefix_handshake_of_method p ( take_prefix _ _)⟩
    simp only [requestMethod, hrun]
    rfl
  · have hfalse : send .method = false := Bool.eq_false_iff.mpr hsend
    have hempty : x.read <+: p.handshake := by
      rw [hread]
      exact nil_prefix
    obtain ⟨y, hy, hstops⟩ := requestProxyServer_unsent p send d Socks5MethodResponse.deserialize
      hbound hempty (Or.inr hfalse : serialize
        ⟨socks5Version, socks5Methods⟩ = [] ∨ send .method = false)
    refine ⟨y.failed Unit, ?_, rfl, hstops.2⟩
    simp only [requestMethod, hy, bind_eq_bind, bind_some, hstops.1]
    rfl

theorem requestAuth_whole
    (hauth : p.Authenticates send x.inst) (hwhole : p.chunk d .auth = p.reply .auth) :
    requestAuth (p.channel send d) .passwdMethod x = some
      ⟨x.inst, [], x.read ++ p.reply .auth, some ()⟩ := by
  have hempty : ¬ (x.inst.username = [] ∨ x.inst.password = []) :=
    not_or.mpr ⟨hauth.username, hauth.password⟩
  have hrun := requestProxyServer_channel p send d Socks5AuthResponse.deserialize hauth.request
    hauth.sent hpending
  rw [deserialize_auth_chunk, if_pos ⟨hwhole, hauth.version⟩,
    drop_eq_nil_of_chunk p d rfl hwhole, hwhole] at hrun
  simp only [requestAuth, if_neg hempty, hrun, bind_eq_bind, bind_some,
    hauth.status, ne_eq, not_true_eq_false, if_false]
  rfl

theorem requestAuth_stops
    (hread : x.read = p.reply .method) (hbound : x.inst.proxyBindAddr = i.proxyBindAddr)
    (hmethod : p.method = 2)
    (h : ¬ (p.Authenticates send x.inst ∧ p.chunk d .auth = p.reply .auth)) :
    ∃ y, requestAuth (p.channel send d) .passwdMethod x = some y ∧ p.Stops i y := by
  have hmethodRead : x.read <+: p.handshake := by
    rw [hread]
    exact isPrefix_handshake_of_method p (prefix_refl _)
  by_cases hempty : x.inst.username = [] ∨ x.inst.password = []
  · refine ⟨x.withError .userPassInvalid Unit, ?_, rfl, hbound, hmethodRead⟩
    simp only [requestAuth, if_pos hempty]
  by_cases hunsent : (authRequest x.inst).serialize = [] ∨ send .auth = false
  · obtain ⟨y, hy, hstops⟩ := requestProxyServer_unsent p send d Socks5AuthResponse.deserialize
      hbound hmethodRead hunsent
    refine ⟨y.failed Unit, ?_, rfl, hstops.2⟩
    simp only [requestAuth, if_neg hempty, hy, bind_eq_bind, bind_some, hstops.1]
    rfl
  obtain ⟨hrequest, hsent⟩ := not_or.mp hunsent
  obtain ⟨husername, hpassword⟩ := not_or.mp hempty
  have hsend : send .auth = true := Bool.eq_true_of_not_eq_false hsent
  have hrun := requestProxyServer_channel p send d Socks5AuthResponse.deserialize hrequest hsend
    hpending
  rw [deserialize_auth_chunk, hread] at hrun
  have hchunkRead : p.reply .method ++ p.chunk d .auth <+: p.handshake := by
    apply isPrefix_handshake_of_early
    rw [Proxy.early, if_pos hmethod, prefix_append_right_inj]
    exact take_prefix _ _
  by_cases hok : p.chunk d .auth = p.reply .auth ∧ p.authVersion = socks5Subversion
  · have hstatus : p.authStatus ≠ 0 := fun hzero =>
      h ⟨⟨husername, hpassword, hrequest, hsend, hok.2, hzero⟩, hok.1⟩
    rw [if_pos hok] at hrun
    refine ⟨⟨x.inst.updateErrorInfo .userPassInvalid,
      (p.answer .auth).drop ((d .auth).more + 1), p.reply .method ++ p.chunk d .auth, none⟩,
      ?_, rfl, hbound, hchunkRead⟩
    simp only [requestAuth, if_neg hempty, hrun, bind_eq_bind, bind_some, ne_eq,
      hstatus, not_false_eq_true, if_true]
    rfl
  · rw [if_neg hok] at hrun
    refine ⟨⟨x.inst.updateErrorInfo .deserializeError,
      (p.answer .auth).drop ((d .auth).more + 1), p.reply .method ++ p.chunk d .auth, none⟩,
      ?_, rfl, hbound, hchunkRead⟩
    simp only [requestAuth, if_neg hempty, hrun]
    rfl

end Requests

section Connect

variable (lib : Resolver) (p : Proxy) (send : RequestKind → Bool) (d : RequestKind → Delivery)
  (command : Socks5Command) (i : Socks5Instance)

/-- The handshake comes to the connection request, if the replies before it arrive. -/
structure Proxy.Admits : Prop where
  attempts : i.doConnectCount < socks5DoConnectCountMax
  methodSent : send .method = true
  methodVersion : p.methodVersion = socks5Version
  method : p.method = 0 ∨ p.method = 2 ∧ p.Authenticates send i
  request : (proxyRequest command i.dest).serialize lib.toInet ≠ []
  sent : send .proxy = true

/-- The replies before the last one arrive in chunks of their own. -/
def Proxy.EarlyWhole : Prop :=
  p.chunk d .method = p.reply .method ∧ (p.method = 2 → p.chunk d .auth = p.reply .auth)

/-- The instance when the connection is requested. -/
def Proxy.opened : Socks5Instance :=
  { i with
    doConnectCount := i.doConnectCount + 1
    method := createSocks5MethodByType (.ofByte p.method) }

/-- The last request, answered by the first chunk. -/
def Proxy.concluded : Exchange Unit :=
  let rest := (p.answer .proxy).drop ((d .proxy).more + 1)
  let read := p.early ++ p.chunk d .proxy
  match deserialize lib.toInet (p.chunk d .proxy) with
  | none => ⟨(p.opened i).updateErrorInfo .deserializeError, rest, read, none⟩
  | some response =>
    if response.status ≠ 0 then
      ⟨(p.opened i).updateErrorInfo .failToConnectRemote, rest, read, none⟩
    else
      ⟨{ p.opened i with
          proxyBindAddr := bindAddress lib i.proxyBindAddr response
          state := .success }, rest, read, some ()⟩

theorem requestProxy_opened (hrequest : (proxyRequest command i.dest).serialize lib.toInet ≠ [])
    (hsend : send .proxy = true) :
    requestProxy lib (p.channel send d) command ⟨p.opened i, [], p.early, some ()⟩ = some
      (match deserialize lib.toInet (p.chunk d .proxy) with
        | none => ⟨(p.opened i).updateErrorInfo .deserializeError,
            (p.answer .proxy).drop ((d .proxy).more + 1), p.early ++ p.chunk d .proxy, none⟩
        | some response =>
          if response.status ≠ 0 then
            ⟨(p.opened i).updateErrorInfo .failToConnectRemote,
              (p.answer .proxy).drop ((d .proxy).more + 1), p.early ++ p.chunk d .proxy, none⟩
          else ⟨p.opened i, (p.answer .proxy).drop ((d .proxy).more + 1),
            p.early ++ p.chunk d .proxy, some response⟩) := by
  have hdest : (proxyRequest command (p.opened i).dest).serialize lib.toInet ≠ [] := hrequest
  have hpending : (⟨p.opened i, [], p.early, some ()⟩ : Exchange Unit).pending = [] := rfl
  have hrun := requestProxyServer_channel p send d
    (deserialize lib.toInet) hdest hsend hpending
  simp only [requestProxy, hrun, bind_eq_bind, bind_some]
  cases deserialize lib.toInet (p.chunk d .proxy) with
  | none => rfl
  | some response =>
    by_cases hstatus : response.status = 0
    · simp only [hstatus, ne_eq, not_true_eq_false, if_false]
      rfl
    · simp only [hstatus, ne_eq, not_false_eq_true, if_true]
      rfl

section Method

variable (hattempts : i.doConnectCount < socks5DoConnectCountMax) (hsend : send .method = true)
  (hversion : p.methodVersion = socks5Version) (hwhole : p.chunk d .method = p.reply .method)
include hattempts hsend hversion hwhole

/-- `DoConnect` from the point where a method was chosen. -/
theorem doConnect_method (hmethod : createSocks5MethodByType (.ofByte p.method) = some method) :
    doConnect lib (p.channel send d) command i =
      (requestAuth (p.channel send d) method ⟨p.opened i, [], p.reply .method, some ()⟩).bind
        fun a => match a.result with
          | none => some (a.failed Unit)
          | some _ => (requestProxy lib (p.channel send d) command a).bind fun y =>
            match y.result with
            | none => some (y.failed Unit)
            | some response => some
                ⟨{ y.inst with
                    proxyBindAddr := bindAddress lib y.inst.proxyBindAddr response
                    state := .success }, y.pending, y.read, some ()⟩ := by
  have hrun := requestMethod_whole p send d
    (x := ⟨{ i with doConnectCount := i.doConnectCount + 1 }, [], [], none⟩) rfl rfl hsend hversion
    hwhole
  simp only [doConnect, if_neg hattempts.not_ge, hrun, bind_eq_bind, bind_some, hmethod,
    Proxy.opened]
  rfl

/-- A connection request that cannot be written or sent ends the handshake. -/
theorem doConnect_unsent (hmethod : createSocks5MethodByType (.ofByte p.method) = some method)
    (hauth : requestAuth (p.channel send d) method ⟨p.opened i, [], p.reply .method, some ()⟩ =
      some ⟨p.opened i, [], p.early, some ()⟩)
    (h : (proxyRequest command i.dest).serialize lib.toInet = [] ∨ send .proxy = false) :
    ∃ y, doConnect lib (p.channel send d) command i = some y ∧ p.Stops i y := by
  obtain ⟨y, hy, hstops⟩ := requestProxyServer_unsent p send d
    (deserialize lib.toInet) (x := ⟨p.opened i, [], p.early, some ()⟩) (i := i)
    rfl (isPrefix_handshake_of_early p (prefix_refl _)) h
  have hproxy : requestProxy lib (p.channel send d) command
      ⟨p.opened i, [], p.early, some ()⟩ = some y := by
    have hdest : (p.opened i).dest = i.dest := rfl
    simp only [requestProxy, hdest, hy, bind_eq_bind, bind_some, hstops.1]
    rfl
  refine ⟨y.failed Unit, ?_, rfl, hstops.2⟩
  rw [doConnect_method lib p send d command i hattempts hsend hversion hwhole hmethod, hauth,
    bind_some]
  simp only [hproxy, bind_some, hstops.1]

theorem doConnect_stops_other (hzero : p.method ≠ 0) (htwo : p.method ≠ 2) :
    ∃ y, doConnect lib (p.channel send d) command i = some y ∧ p.Stops i y := by
  have hmethod : createSocks5MethodByType (.ofByte p.method) = none := by
    rw [createSocks5MethodByType_ofByte, if_neg hzero, if_neg htwo]
  have hrun := requestMethod_whole p send d
    (x := ⟨{ i with doConnectCount := i.doConnectCount + 1 }, [], [], none⟩) rfl rfl hsend
    hversion hwhole
  refine ⟨⟨(p.opened i).updateErrorInfo .methodNegoError, [], p.reply .method, none⟩, ?_, rfl,
    rfl, isPrefix_handshake_of_method p (prefix_refl _)⟩
  simp only [doConnect, if_neg (Nat.not_le_of_lt hattempts), hrun, bind_eq_bind,
    bind_some, hmethod, Proxy.opened]
  rfl

variable (h : ¬ (p.Admits lib send command i ∧ p.EarlyWhole d))
include h

theorem doConnect_stops_none (hzero : p.method = 0) :
    ∃ y, doConnect lib (p.channel send d) command i = some y ∧ p.Stops i y := by
  have hmethod : createSocks5MethodByType (.ofByte p.method) = some .noneMethod := by
    rw [hzero]
    rfl
  have hearly : p.early = p.reply .method := by
    rw [Proxy.early, hzero]
    rfl
  have hauth : requestAuth (p.channel send d) .noneMethod
      ⟨p.opened i, [], p.reply .method, some ()⟩ = some ⟨p.opened i, [], p.early, some ()⟩ := by
    rw [hearly]
    rfl
  apply doConnect_unsent lib p send d command i hattempts hsend hversion hwhole hmethod hauth
  by_contra hsent
  obtain ⟨hrequest, hproxy⟩ := not_or.mp hsent
  refine h ⟨⟨hattempts, hsend, hversion, Or.inl hzero, hrequest,
    Bool.eq_true_of_not_eq_false hproxy⟩, hwhole, fun htwo => ?_⟩
  rw [hzero] at htwo
  exact absurd htwo (by decide)

theorem doConnect_stops_passwd (htwo : p.method = 2) :
    ∃ y, doConnect lib (p.channel send d) command i = some y ∧ p.Stops i y := by
  have hmethod : createSocks5MethodByType (.ofByte p.method) = some .passwdMethod := by
    rw [htwo]
    rfl
  by_cases hauth : p.Authenticates send (p.opened i) ∧ p.chunk d .auth = p.reply .auth
  · have hrun := requestAuth_whole p send d
      (x := ⟨p.opened i, [], p.reply .method, some ()⟩) rfl hauth.1 hauth.2
    have hearly : p.early = p.reply .method ++ p.reply .auth := by
      rw [Proxy.early, if_pos htwo]
    rw [← hearly] at hrun
    apply doConnect_unsent lib p send d command i hattempts hsend hversion hwhole hmethod hrun
    by_contra hsent
    obtain ⟨hrequest, hproxy⟩ := not_or.mp hsent
    obtain ⟨husername, hpassword, hauthRequest, hauthSent, hauthVersion, hstatus⟩ := hauth.1
    exact h ⟨⟨hattempts, hsend, hversion, Or.inr ⟨htwo, husername, hpassword, hauthRequest,
      hauthSent, hauthVersion, hstatus⟩, hrequest, Bool.eq_true_of_not_eq_false hproxy⟩,
      hwhole, fun _ => hauth.2⟩
  · obtain ⟨y, hy, hstops⟩ := requestAuth_stops p send d
      (x := ⟨p.opened i, [], p.reply .method, some ()⟩) (i := i) rfl rfl rfl htwo hauth
    refine ⟨y.failed Unit, ?_, rfl, hstops.2⟩
    rw [doConnect_method lib p send d command i hattempts hsend hversion hwhole hmethod, hy,
      bind_some]
    simp only [hstops.1]

end Method

/-- If the handshake comes to the connection request, it ends with the first chunk
that answers it. -/
theorem doConnect_concluded (hadmits : p.Admits lib send command i) (hearly : p.EarlyWhole d) :
    doConnect lib (p.channel send d) command i = some (p.concluded lib d i) := by
  have hlast := requestProxy_opened lib p send d command i hadmits.request hadmits.sent
  have hauthRun : ∃ method, createSocks5MethodByType (.ofByte p.method) = some method ∧
      requestAuth (p.channel send d) method ⟨p.opened i, [], p.reply .method, some ()⟩ =
        some ⟨p.opened i, [], p.early, some ()⟩ := by
    obtain hzero | ⟨htwo, hauth⟩ := hadmits.method
    · refine ⟨.noneMethod, by rw [hzero]; rfl, ?_⟩
      rw [Proxy.early, hzero]
      simp only [requestAuth]
      rfl
    · refine ⟨.passwdMethod, by rw [htwo]; rfl, ?_⟩
      rw [Proxy.early, if_pos htwo]
      exact requestAuth_whole p send d rfl
        ⟨hauth.username, hauth.password, hauth.request, hauth.sent, hauth.version, hauth.status⟩
        (hearly.2 htwo)
  obtain ⟨method, hmethod, hauth⟩ := hauthRun
  rw [doConnect_method lib p send d command i hadmits.attempts hadmits.methodSent
    hadmits.methodVersion hearly.1 hmethod, hauth, bind_some]
  simp only [hlast, bind_some, Proxy.concluded]
  cases deserialize lib.toInet (p.chunk d .proxy) with
  | none => rfl
  | some response =>
    by_cases hstatus : response.status = 0
    · simp only [hstatus, ne_eq, not_true_eq_false, if_false]
      rfl
    · simp only [hstatus, ne_eq, not_false_eq_true, if_true]
      rfl

/-- Otherwise it ends before, without success. -/
theorem doConnect_stops (h : ¬ (p.Admits lib send command i ∧ p.EarlyWhole d)) :
    ∃ y, doConnect lib (p.channel send d) command i = some y ∧ p.Stops i y := by
  by_cases hcount : socks5DoConnectCountMax ≤ i.doConnectCount
  · refine ⟨⟨{ i with doConnectCount := i.doConnectCount + 1 }, [], [], none⟩, ?_, rfl, rfl,
      nil_prefix⟩
    simp only [doConnect, if_pos hcount]
  have hattempts : i.doConnectCount < socks5DoConnectCountMax := Nat.lt_of_not_ge hcount
  by_cases hopen : send .method = true ∧ p.methodVersion = socks5Version ∧
      p.chunk d .method = p.reply .method
  · obtain ⟨hsend, hversion, hwhole⟩ := hopen
    by_cases hzero : p.method = 0
    · exact doConnect_stops_none lib p send d command i hattempts hsend hversion hwhole h hzero
    by_cases htwo : p.method = 2
    · exact doConnect_stops_passwd lib p send d command i hattempts hsend hversion hwhole h htwo
    · exact doConnect_stops_other lib p send d command i hattempts hsend hversion hwhole hzero htwo
  · obtain ⟨y, hy, hstops⟩ := requestMethod_stops p send d
      (x := ⟨{ i with doConnectCount := i.doConnectCount + 1 }, [], [], none⟩) (i := i) rfl rfl rfl
      hopen
    refine ⟨y.failed Unit, ?_, rfl, hstops.2⟩
    simp only [doConnect, if_neg hcount, hy, bind_eq_bind, bind_some, hstops.1]
    rfl

end Connect

end Netstack.Socks5
