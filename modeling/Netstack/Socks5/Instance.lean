import Netstack.Socks5.Package

/-!
# The SOCKS5 client

`Socks5Instance::DoConnect` negotiates a method, authenticates if the method asks
for it and requests the connection. Each request is answered by whatever one
`recvfrom` returns, parsed as if it were one complete reply.

## Implementation notes

The loop of `Socks5Utils::Recv` runs over a list of poll rounds; running out of
them is no result. The bytes a handshake takes are recorded (`read`).
-/

namespace Netstack.Socks5

open Foundation Option

inductive Family where
  | ipv4
  | ipv6
  | domainName
  deriving DecidableEq, Repr

structure NetAddress where
  address : Bytes := []
  family : Family := .ipv4
  port : UInt16 := 0
  deriving DecidableEq, Repr

/-- The C library: address conversions, and `getaddrinfo` with the first result
printed. -/
structure Resolver extends Inet where
  getaddrinfo : AddressFamily → Bytes → Option Bytes

/-- A library that resolves no names. -/
def Resolver.numeric : Resolver where
  toInet := .unabbreviated
  getaddrinfo _ _ := none

namespace NetAddress

variable (lib : Resolver)

variable (a : NetAddress)

def getSaFamily : AddressFamily :=
  if a.family = .ipv6 then .inet6 else .inet

def setAddress (address : Bytes) : NetAddress :=
  let parsed := if a.family = .ipv4 then lib.pton4 (cString address)
    else lib.pton6 (cString address)
  if parsed.isSome then { a with address := address }
  else
    match lib.getaddrinfo a.getSaFamily (cString address) with
    | none => a
    | some ipStr => { a with address := ipStr }

/-- `SetAddress` with its second argument `false`. -/
def setAddressUnresolved (address : Bytes) : NetAddress :=
  if a.family = .domainName then { a with address := address } else a.setAddress lib address

end NetAddress

inductive Socks5AuthState where
  | init
  | fail
  | success
  deriving DecidableEq, Repr

/-- The statuses that the client reports. -/
inductive Socks5Status where
  | makeSocketError
  | failToConnectProxy
  | userPassInvalid
  | failToConnectRemote
  | methodNegoError
  | failToSendMsg
  | failToRecvMsg
  | serializeError
  | deserializeError
  deriving DecidableEq, Repr

namespace Socks5Status

def code : Socks5Status → Int
  | makeSocketError => 0xA3
  | failToConnectProxy => 206
  | userPassInvalid => 207
  | failToConnectRemote => 208
  | methodNegoError => 209
  | failToSendMsg => 210
  | failToRecvMsg => 211
  | serializeError => 212
  | deserializeError => 213

/-- The entries of `g_errStatusMap`. -/
def message : Socks5Status → String
  | makeSocketError => "Socks5 make tcp socket error"
  | failToConnectProxy => "Socks5 failed to connect to the proxy server"
  | userPassInvalid => "Socks5 username or password is invalid"
  | failToConnectRemote => "Socks5 failed to connect to the remote server"
  | methodNegoError => "Socks5 failed to negotiate the authentication method"
  | failToSendMsg => "Socks5 failed to send the message"
  | failToRecvMsg => "Socks5 failed to receive the message"
  | serializeError => "Socks5 serialization error"
  | deserializeError => "Socks5 deserialization error"

end Socks5Status

inductive Socks5Method where
  | noneMethod
  | passwdMethod
  deriving DecidableEq, Repr

def invalidSocketFd : Int := -1

structure Socks5Instance where
  socketId : Int := invalidSocketFd
  dest : NetAddress := {}
  username : Bytes := []
  password : Bytes := []
  method : Option Socks5Method := none
  state : Socks5AuthState := .init
  proxyBindAddr : NetAddress := {}
  doConnectCount : Nat := 0
  errorCode : Int := 0
  errorMessage : String := ""
  deriving DecidableEq, Repr

def Socks5Instance.updateErrorInfo (i : Socks5Instance) (status : Socks5Status) : Socks5Instance :=
  { i with errorCode := status.code, errorMessage := status.message }

def Socks5Instance.isConnected (i : Socks5Instance) : Bool := i.state = .success

/-- One round of the receive loop; `arrived more` is a round in which `more + 1` of
the waiting bytes are there to be read, or all of them if they are fewer. -/
inductive PollEvent where
  | pollInterrupted
  | pollTimedOut
  | pollFailed
  | recvRetry
  | recvFailed
  | arrived (more : Nat)
  deriving DecidableEq, Repr

/-- `Socks5Utils::Recv`: the message and the bytes left waiting, or the failure. -/
def recv : List PollEvent → Bytes → Option (Option (Bytes × Bytes))
  | [], _ => none
  | .pollInterrupted :: rounds, pending => recv rounds pending
  | .pollTimedOut :: rounds, pending => recv rounds pending
  | .recvRetry :: rounds, pending => recv rounds pending
  | .pollFailed :: _, _ => some none
  | .recvFailed :: _, _ => some none
  | .arrived _ :: _, [] => some none
  | .arrived more :: _, b :: bs =>
    some (some ((b :: bs).take (more + 1), (b :: bs).drop (more + 1)))

inductive RequestKind where
  | method
  | auth
  | proxy
  deriving DecidableEq, Repr

/-- The proxy and the network during one handshake. -/
structure Channel where
  send : RequestKind → Bool
  answer : RequestKind → Bytes
  rounds : RequestKind → List PollEvent

/-- The state of a handshake between two of its steps. -/
structure Exchange (ρ : Type) where
  inst : Socks5Instance
  pending : Bytes
  read : Bytes
  result : Option ρ

namespace Exchange

variable {ρ : Type}

def failed (x : Exchange ρ) (σ : Type) : Exchange σ := ⟨x.inst, x.pending, x.read, none⟩

def withError (x : Exchange ρ) (status : Socks5Status) (σ : Type) : Exchange σ :=
  ⟨x.inst.updateErrorInfo status, x.pending, x.read, none⟩

def returning {σ : Type} (x : Exchange ρ) (value : σ) : Exchange σ :=
  ⟨x.inst, x.pending, x.read, some value⟩

end Exchange

section Handshake

variable (lib : Resolver) (ch : Channel)

/-- `Socks5Utils::RequestProxyServer`: serialize, send, receive once, deserialize. -/
def requestProxyServer {α ρ : Type} (kind : RequestKind) (msg : Bytes)
    (deserialize : Bytes → Option ρ) (x : Exchange α) : Option (Exchange ρ) :=
  if msg = [] then some (x.withError .serializeError ρ)
  else if ch.send kind = false then some (x.withError .failToSendMsg ρ)
  else
    let sent : Exchange α := { x with pending := x.pending ++ ch.answer kind }
    match recv (ch.rounds kind) sent.pending with
    | none => none
    | some none => some (sent.withError .failToRecvMsg ρ)
    | some (some (text, rest)) =>
      let got : Exchange α := { sent with pending := rest, read := x.read ++ text }
      match deserialize text with
      | none => some (got.withError .deserializeError ρ)
      | some response => some (got.returning response)

def createSocks5MethodByType : Socks5MethodType → Option Socks5Method
  | .noAuth => some .noneMethod
  | .password => some .passwdMethod
  | _ => none

def socks5Methods : List Socks5MethodType := [.noAuth, .password]

def requestMethod {α : Type} (x : Exchange α) : Option (Exchange Unit) := do
  let request : Socks5MethodRequest := { version := socks5Version, methods := socks5Methods }
  let y ← requestProxyServer ch .method request.serialize Socks5MethodResponse.deserialize x
  match y.result with
  | none => pure (y.failed Unit)
  | some response =>
    let method := createSocks5MethodByType (.ofByte response.method)
    pure ({ y with inst := { y.inst with method := method } }.returning ())

def authRequest (i : Socks5Instance) : Socks5AuthRequest where
  version := socks5Subversion
  username := i.username
  password := i.password

/-- `RequestAuth` of the two methods. -/
def requestAuth (method : Socks5Method) (x : Exchange Unit) : Option (Exchange Unit) :=
  match method with
  | .noneMethod => some (x.returning ())
  | .passwdMethod =>
    if x.inst.username = [] ∨ x.inst.password = [] then some (x.withError .userPassInvalid Unit)
    else do
      let y ← requestProxyServer ch .auth (authRequest x.inst).serialize
        Socks5AuthResponse.deserialize x
      match y.result with
      | none => pure (y.failed Unit)
      | some response =>
        if response.status ≠ 0 then pure (y.withError .userPassInvalid Unit)
        else pure (y.returning ())

def addrTypeOfFamily : Family → Socks5AddrType
  | .ipv4 => .ipv4
  | .ipv6 => .ipv6
  | .domainName => .domainName

variable (command : Socks5Command)

def proxyRequest (dest : NetAddress) : Socks5ProxyRequest where
  version := socks5Version
  cmd := command
  reserved := 0
  addrType := addrTypeOfFamily dest.family
  destAddr := dest.address
  destPort := dest.port

/-- `RequestProxy`, the same for both methods. -/
def requestProxy (x : Exchange Unit) :
    Option (Exchange Socks5ProxyResponse) := do
  let y ← requestProxyServer ch .proxy ((proxyRequest command x.inst.dest).serialize lib.toInet)
    (Socks5ProxyResponse.deserialize lib.toInet) x
  match y.result with
  | none => pure y
  | some response =>
    if response.status ≠ 0 then pure (y.withError .failToConnectRemote _)
    else pure y

/-- The bound address is set in the family it had before, then the family of the
response is set. -/
def bindAddress (a : NetAddress) (response : Socks5ProxyResponse) : NetAddress :=
  let named := { a.setAddressUnresolved lib response.destAddr with port := response.destPort }
  match response.addrType with
  | .ipv4 => { named with family := .ipv4 }
  | .ipv6 => { named with family := .ipv6 }
  | .domainName => { named with family := .domainName }
  | .other _ => named

def socks5DoConnectCountMax : Nat := 3

/-- `Socks5Instance::DoConnect` on a socket from which nothing was read yet. -/
def doConnect (i : Socks5Instance) : Option (Exchange Unit) :=
  let x : Exchange Unit := ⟨{ i with doConnectCount := i.doConnectCount + 1 }, [], [], none⟩
  if socks5DoConnectCountMax ≤ i.doConnectCount then some x
  else do
    let m ← requestMethod ch x
    match m.result, m.inst.method with
    | none, _ => pure (m.failed Unit)
    | some _, none => pure (m.withError .methodNegoError Unit)
    | some _, some method =>
      let a ← requestAuth ch method m
      match a.result with
      | none => pure (a.failed Unit)
      | some _ =>
        let p ← requestProxy lib ch command a
        match p.result with
        | none => pure (p.failed Unit)
        | some response =>
          let bound := bindAddress lib p.inst.proxyBindAddr response
          let inst := { p.inst with proxyBindAddr := bound, state := .success }
          pure ({ p with inst := inst }.returning ())

/-- The socket and the state are those of the other instance. -/
structure Socks5Instance.Keeps (i j : Socks5Instance) : Prop where
  socketId : j.socketId = i.socketId
  state : j.state = i.state

theorem Socks5Instance.Keeps.trans {i j k : Socks5Instance} (hij : i.Keeps j) (hjk : j.Keeps k) :
    i.Keeps k :=
  ⟨hjk.socketId.trans hij.socketId, hjk.state.trans hij.state⟩

variable {lib ch}

theorem requestProxyServer_keeps {α ρ : Type} {kind : RequestKind} {msg : Bytes}
    {deserialize : Bytes → Option ρ} {x : Exchange α} {y : Exchange ρ}
    (h : requestProxyServer ch kind msg deserialize x = some y) : x.inst.Keeps y.inst := by
  simp only [requestProxyServer] at h
  split_ifs at h
  · rw [← some.inj h]
    exact ⟨rfl, rfl⟩
  · rw [← some.inj h]
    exact ⟨rfl, rfl⟩
  · split at h
    · cases h
    · rw [← some.inj h]
      exact ⟨rfl, rfl⟩
    · split at h
      · rw [← some.inj h]
        exact ⟨rfl, rfl⟩
      · rw [← some.inj h]
        exact ⟨rfl, rfl⟩

theorem requestMethod_keeps {α : Type} {x : Exchange α} {y : Exchange Unit}
    (h : requestMethod ch x = some y) : x.inst.Keeps y.inst := by
  obtain ⟨z, hz, hy⟩ := bind_eq_some_iff.mp h
  apply (requestProxyServer_keeps hz).trans
  split at hy
  · rw [← some.inj hy]
    exact ⟨rfl, rfl⟩
  · rw [← some.inj hy]
    exact ⟨rfl, rfl⟩

theorem requestAuth_keeps {method : Socks5Method} {x y : Exchange Unit}
    (h : requestAuth ch method x = some y) : x.inst.Keeps y.inst := by
  cases method with
  | noneMethod =>
    rw [← some.inj h]
    exact ⟨rfl, rfl⟩
  | passwdMethod =>
    simp only [requestAuth] at h
    split_ifs at h
    · rw [← some.inj h]
      exact ⟨rfl, rfl⟩
    · obtain ⟨z, hz, hy⟩ := bind_eq_some_iff.mp h
      apply (requestProxyServer_keeps hz).trans
      split at hy
      · rw [← some.inj hy]
        exact ⟨rfl, rfl⟩
      · split_ifs at hy
        · rw [← some.inj hy]
          exact ⟨rfl, rfl⟩
        · rw [← some.inj hy]
          exact ⟨rfl, rfl⟩

theorem requestProxy_keeps {command : Socks5Command} {x : Exchange Unit}
    {y : Exchange Socks5ProxyResponse} (h : requestProxy lib ch command x = some y) :
    x.inst.Keeps y.inst := by
  obtain ⟨z, hz, hy⟩ := bind_eq_some_iff.mp h
  apply (requestProxyServer_keeps hz).trans
  split at hy
  · rw [← some.inj hy]
    exact ⟨rfl, rfl⟩
  · split_ifs at hy
    · rw [← some.inj hy]
      exact ⟨rfl, rfl⟩
    · rw [← some.inj hy]
      exact ⟨rfl, rfl⟩

/-- What every handshake does with the socket and the state: the socket is kept, and
the state too unless the handshake succeeds. -/
structure Socks5Instance.Concludes (i : Socks5Instance) (y : Exchange Unit) : Prop where
  socketId : y.inst.socketId = i.socketId
  failed : y.result = none → y.inst.state = i.state
  succeeded : y.result ≠ none → y.inst.state = .success

theorem Socks5Instance.Keeps.concludes {i : Socks5Instance} {y : Exchange Unit}
    (h : i.Keeps y.inst) (hnone : y.result = none) : i.Concludes y :=
  ⟨h.socketId, fun _ => h.state, fun hne => absurd hnone hne⟩

open Socks5Instance.Keeps

theorem doConnect_concludes {command : Socks5Command} {i : Socks5Instance} {y : Exchange Unit}
    (h : doConnect lib ch command i = some y) : i.Concludes y := by
  simp only [doConnect] at h
  split_ifs at h
  · rw [← some.inj h]
    exact concludes ⟨rfl, rfl⟩ rfl
  obtain ⟨m, hm, h⟩ := bind_eq_some_iff.mp h
  have hmethod := requestMethod_keeps hm
  have hkeeps : i.Keeps m.inst := ⟨hmethod.socketId, hmethod.state⟩
  split at h
  · rw [← some.inj h]
    exact concludes hkeeps rfl
  · rw [← some.inj h]
    exact concludes (hkeeps.trans ⟨rfl, rfl⟩) rfl
  obtain ⟨a, ha, h⟩ := bind_eq_some_iff.mp h
  replace hkeeps := hkeeps.trans (requestAuth_keeps ha)
  split at h
  · rw [← some.inj h]
    exact concludes hkeeps rfl
  obtain ⟨p, hp, h⟩ := bind_eq_some_iff.mp h
  replace hkeeps := hkeeps.trans (requestProxy_keeps hp)
  split at h
  · rw [← some.inj h]
    exact concludes hkeeps rfl
  · rw [← some.inj h]
    refine ⟨hkeeps.socketId, fun hnone => ?_, fun _ => rfl⟩
    cases hnone

end Handshake

end Netstack.Socks5
