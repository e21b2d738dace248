import Netstack.Foundation.Execution
import Netstack.Socks5.Instance

/-!
# The control connection of a UDP association

`Socks5UdpInstance` holds a TCP connection to the proxy. `Connect` makes it, the
receiver reports its loss with `OnProxySocketError`, and `Close` ends it. The
descriptor and the state of the instance are written by different calls.

## Implementation notes

`openFds` are the descriptors that `CreateSocket` made and nobody has closed.
-/

namespace Netstack.Socks5

open Foundation Foundation.Execution List Option

namespace Socks5UdpInstance

structure Control where
  inst : Socks5Instance := {}
  openFds : List Int := []

inductive Call where
  | connect (socket : Option Nat) (keepAlive connected : Bool) (channel : Channel)
  | onProxySocketError
  | close

variable {s t : Control} {call : Call}

namespace Control

variable (s)

def closeSocket : Control :=
  if s.inst.socketId ≠ invalidSocketFd then
    { inst := { s.inst with socketId := invalidSocketFd }
      openFds := s.openFds.filter (· ≠ s.inst.socketId) }
  else s

/-- No result if the descriptor is one that is still open. -/
def createSocket (socket : Option Nat) (keepAlive : Bool) : Option (Bool × Control) :=
  match socket with
  | none =>
    let inst := { s.inst with socketId := invalidSocketFd }
    some (false, { s with inst := inst.updateErrorInfo .makeSocketError })
  | some fd =>
    if (fd : Int) ∈ s.openFds then none
    else
      let made : Control :=
        { inst := { s.inst with socketId := fd }, openFds := (fd : Int) :: s.openFds }
      if keepAlive then some (true, made) else some (false, made.closeSocket)

def connectProxy (connected : Bool) : Bool × Control :=
  if connected then (true, s)
  else (false, { s with inst := s.inst.updateErrorInfo .failToConnectProxy })

def connect (lib : Resolver) (s : Control) (socket : Option Nat) (keepAlive connected : Bool)
    (channel : Channel) : Option (Bool × Control) := do
  let s := { s with inst := { s.inst with errorCode := 0, errorMessage := "" } }
  if s.inst.state = .success then pure (true, s)
  else
    let (created, s) ← s.createSocket socket keepAlive
    if created = false then pure (false, s)
    else
      let (reached, s) := s.connectProxy connected
      if reached = false then pure (false, s.closeSocket)
      else
        let x ← doConnect lib channel .udpAssociate s.inst
        let s := { s with inst := x.inst }
        if x.result = none then pure (false, s.closeSocket) else pure (true, s)

def onProxySocketError : Control :=
  { s with inst := { s.inst with state := .fail } }

def close : Control := s.closeSocket

def step (lib : Resolver) (s : Control) : Call → Option Control
  | .connect socket keepAlive connected channel =>
    (s.connect lib socket keepAlive connected channel).map Prod.snd
  | .onProxySocketError => some s.onProxySocketError
  | .close => some s.close

/-- A connected instance has an open descriptor of its own, and no other descriptor
that it made is open. -/
@[mk_iff]
structure Owns (s : Control) : Prop where
  connected : s.inst.isConnected = true → s.inst.socketId ∈ s.openFds
  only : ∀ fd ∈ s.openFds, fd = s.inst.socketId

/-- The descriptor of the instance is invalid or open, and those that are open are
valid. -/
structure Held (s : Control) : Prop where
  current : s.inst.socketId ≠ invalidSocketFd → s.inst.socketId ∈ s.openFds
  valid : invalidSocketFd ∉ s.openFds

/-- The connection is not closed while it counts as made, and not made again while the
descriptor of the last one is open. -/
def CallOk : Call → Prop
  | .connect _ _ _ _ => s.inst.state = .success ∨ s.inst.socketId = invalidSocketFd
  | .onProxySocketError => True
  | .close => s.inst.state ≠ .success

variable {s}

theorem closeSocket_made {fd : Nat} {fds : List Int} (hid : s.inst.socketId = fd)
    (hfds : s.openFds = (fd : Int) :: fds) (hnew : (fd : Int) ∉ fds) :
    s.closeSocket.inst.socketId = invalidSocketFd ∧ s.closeSocket.openFds = fds ∧
      s.closeSocket.inst.state = s.inst.state := by
  have hvalid : s.inst.socketId ≠ invalidSocketFd := by
    rw [hid, invalidSocketFd]
    omega
  have hrest : fds.filter (fun g => decide (g ≠ (fd : Int))) = fds := by
    apply filter_eq_self.mpr
    grind
  rw [closeSocket, if_pos hvalid]
  grind

/-- The call made no connection and left no descriptor behind, the old one included. -/
structure Abandons (s t : Control) : Prop where
  socketId : t.inst.socketId = invalidSocketFd
  openFds : t.openFds = s.openFds
  state : t.inst.state = s.inst.state

/-- The call made a connection with a new descriptor. -/
structure Acquires (s t : Control) (fd : Nat) : Prop where
  new : (fd : Int) ∉ s.openFds
  socketId : t.inst.socketId = fd
  openFds : t.openFds = (fd : Int) :: s.openFds
  state : t.inst.state = .success

variable {lib : Resolver} {socket : Option Nat} {channel : Channel}

theorem connect_success {keepAlive connected : Bool} (hstate : s.inst.state = .success) :
    s.connect lib socket keepAlive connected channel =
      some (true, { s with inst := { s.inst with errorCode := 0, errorMessage := "" } }) := by
  simp only [connect, hstate, if_true]
  rfl

/-- A call that has to connect abandons the old descriptor, whatever it was. -/
theorem connect_spec {keepAlive connected ok : Bool} (hstate : s.inst.state ≠ .success)
    (h : s.connect lib socket keepAlive connected channel = some (ok, t)) :
    s.Abandons t ∨ ∃ fd, s.Acquires t fd := by
  simp only [connect, if_neg hstate] at h
  cases socket with
  | none =>
    left
    obtain ⟨-, rfl⟩ := Prod.mk.inj (some.inj h)
    exact ⟨rfl, rfl, rfl⟩
  | some fd =>
    by_cases hopen : (fd : Int) ∈ s.openFds
    · simp only [createSocket, if_pos hopen] at h
      cases h
    simp only [createSocket, if_neg hopen] at h
    cases hkeep : keepAlive with
    | false =>
      left
      rw [hkeep] at h
      obtain ⟨-, rfl⟩ := Prod.mk.inj (some.inj h)
      obtain ⟨hid, hfds, hsame⟩ := closeSocket_made
        (s := ⟨{ s.inst with errorCode := 0, errorMessage := "", socketId := fd },
          (fd : Int) :: s.openFds⟩) rfl rfl hopen
      exact ⟨hid, hfds, hsame⟩
    | true =>
      rw [hkeep] at h
      cases hreach : connected with
      | false =>
        left
        rw [hreach] at h
        obtain ⟨-, rfl⟩ := Prod.mk.inj (some.inj h)
        obtain ⟨hid, hfds, hsame⟩ := closeSocket_made
          (s := ⟨Socks5Instance.updateErrorInfo
            { s.inst with errorCode := 0, errorMessage := "", socketId := fd }
            .failToConnectProxy, (fd : Int) :: s.openFds⟩) rfl rfl hopen
        exact ⟨hid, hfds, hsame⟩
      | true =>
        rw [hreach] at h
        simp only [connectProxy, if_true, bind_eq_bind, bind_some,
          Bool.true_eq_false, if_false] at h
        obtain ⟨x, hx, h⟩ := bind_eq_some_iff.mp h
        have hconcludes := doConnect_concludes hx
        by_cases hnone : x.result = none
        · left
          simp only [hnone, if_true] at h
          obtain ⟨-, rfl⟩ := Prod.mk.inj (some.inj h)
          obtain ⟨hid, hfds, hsame⟩ := closeSocket_made
            (s := ⟨x.inst, (fd : Int) :: s.openFds⟩) hconcludes.socketId rfl hopen
          exact ⟨hid, hfds, hsame.trans (hconcludes.failed hnone)⟩
        · right
          simp only [if_neg hnone] at h
          obtain ⟨-, rfl⟩ := Prod.mk.inj (some.inj h)
          exact ⟨fd, hopen, hconcludes.socketId, rfl, hconcludes.succeeded hnone⟩

/-- Every call keeps the descriptor of the instance open or invalid. -/
theorem Held.step (hheld : s.Held) (h : s.step lib call = some t) : t.Held := by
  cases call with
  | connect socket keepAlive connected channel =>
    obtain ⟨⟨ok, t'⟩, hconnect, rfl⟩ := map_eq_some_iff.mp h
    by_cases hstate : s.inst.state = .success
    · rw [connect_success hstate] at hconnect
      obtain ⟨-, rfl⟩ := Prod.mk.inj (some.inj hconnect)
      exact ⟨hheld.current, hheld.valid⟩
    · obtain hleft | ⟨fd, hmade⟩ := connect_spec hstate hconnect
      · refine ⟨fun hne => absurd hleft.socketId hne, ?_⟩
        rw [hleft.openFds]
        exact hheld.valid
      · constructor
        · intro _
          rw [hmade.socketId, hmade.openFds]
          exact mem_cons_self
        · rw [hmade.openFds, mem_cons, not_or]
          refine ⟨?_, hheld.valid⟩
          rw [invalidSocketFd]
          omega
  | onProxySocketError =>
    rw [← some.inj h]
    exact ⟨hheld.current, hheld.valid⟩
  | close =>
    rw [← some.inj h, close, closeSocket]
    split_ifs with hvalid
    · refine ⟨fun hne => absurd rfl hne, fun hmem => hheld.valid ?_⟩
      exact (mem_filter.mp hmem).1
    · exact hheld

theorem no_open_iff (hheld : s.Held) (howns : s.Owns) :
    s.openFds = [] ↔ s.inst.socketId = invalidSocketFd := by
  constructor
  · intro hnil
    by_contra hne
    have hmem := hheld.current hne
    rw [hnil] at hmem
    cases hmem
  · intro hinvalid
    apply eq_nil_iff_forall_not_mem.mpr
    grind [@hheld.valid, @howns.only]

theorem Abandons.owns_iff (h : s.Abandons t) (hheld : s.Held)
    (hstate : s.inst.state ≠ .success) : t.Owns ↔ s.openFds = [] := by
  constructor
  · intro howns
    apply eq_nil_iff_forall_not_mem.mpr
    grind [@howns.only, @h.openFds, @h.socketId, @hheld.valid]
  · intro hnil
    refine ⟨fun hconnected => ?_, fun fd hfd => ?_⟩
    · rw [Socks5Instance.isConnected, decide_eq_true_iff, h.state] at hconnected
      exact absurd hconnected hstate
    · rw [h.openFds, hnil] at hfd
      cases hfd

theorem Acquires.owns_iff {fd : Nat} (h : s.Acquires t fd) : t.Owns ↔ s.openFds = [] := by
  constructor
  · intro howns
    apply eq_nil_iff_forall_not_mem.mpr
    grind [@howns.only, @h.openFds, @h.socketId, @h.new]
  · intro hnil
    refine ⟨fun _ => ?_, fun g hg => ?_⟩
    · rw [h.socketId, h.openFds]
      exact mem_cons_self
    grind [@h.openFds, @h.socketId]

theorem owns_close_iff (hheld : s.Held) (howns : s.Owns) :
    s.close.Owns ↔ s.inst.state ≠ .success := by
  have hconnected : s.inst.state = .success → s.inst.socketId ∈ s.openFds := fun hstate =>
    howns.connected (decide_eq_true hstate)
  by_cases hvalid : s.inst.socketId ≠ invalidSocketFd
  · rw [close, closeSocket, if_pos hvalid]
    constructor
    · intro howns' hstate
      have hmem := howns'.connected (decide_eq_true hstate)
      exact hheld.valid (mem_filter.mp hmem).1
    · intro hstate
      refine ⟨fun h => absurd (of_decide_eq_true h) hstate, fun fd hfd => ?_⟩
      grind [@howns.only]
  · rw [close, closeSocket, if_neg hvalid]
    grind [@hheld.valid]

/-- A call keeps the ownership exactly if it is made at the right time. -/
theorem owns_step_iff (hheld : s.Held) (howns : s.Owns)
    (h : s.step lib call = some t) : t.Owns ↔ s.CallOk call := by
  cases call with
  | connect socket keepAlive connected channel =>
    obtain ⟨⟨ok, t'⟩, hconnect, rfl⟩ := map_eq_some_iff.mp h
    by_cases hstate : s.inst.state = .success
    · rw [connect_success hstate] at hconnect
      obtain ⟨-, rfl⟩ := Prod.mk.inj (some.inj hconnect)
      exact ⟨fun _ => Or.inl hstate, fun _ => ⟨howns.connected, howns.only⟩⟩
    · have hok : s.CallOk (.connect socket keepAlive connected channel) ↔ s.openFds = [] := by
        rw [no_open_iff hheld howns]
        exact or_iff_right hstate
      rw [hok]
      obtain hleft | ⟨fd, hmade⟩ := connect_spec hstate hconnect
      · exact hleft.owns_iff hheld hstate
      · exact hmade.owns_iff
  | onProxySocketError =>
    rw [← some.inj h]
    refine ⟨fun _ => trivial, fun _ => ⟨fun hconnected => ?_, howns.only⟩⟩
    cases hconnected
  | close =>
    rw [← some.inj h]
    exact owns_close_iff hheld howns

/-- A new instance with its destination and options. -/
def fresh (dest : NetAddress) (username password : Bytes) : Control :=
  { inst := { dest := dest, username := username, password := password } }

/-- In every state of a run a connected instance has an open descriptor of its own
and no other descriptor was left open, exactly if no call of the run closes a
connection that counts as made or connects over an open descriptor. -/
theorem owns_throughout_iff (lib : Resolver) (dest : NetAddress) (username password : Bytes)
    (calls : List Call) :
    Throughout (step lib) Owns calls (fresh dest username password) ↔
      Meets (step lib) CallOk calls (fresh dest username password) := by
  apply throughout_iff_meets (J := Held)
  · intro s call t hheld h
    exact hheld.step h
  · intro s call t hheld howns h
    exact owns_step_iff hheld howns h
  · exact ⟨fun hne => absurd rfl hne, not_mem_nil⟩
  · refine ⟨fun hconnected => ?_, fun fd hfd => ?_⟩
    · cases hconnected
    · cases hfd

instance (s : Control) : Decidable s.Owns :=
  decidable_of_iff' _ (owns_iff s)

/-- A proxy that grants the association at 10.0.0.1, port 1080. -/
def grantingChannel : Channel where
  send _ := true
  answer
    | .proxy => [5, 0, 0, 1, 10, 0, 0, 1, 4, 56]
    | _ => [5, 0]
  rounds _ := [.arrived 9]

/-- A closed instance still counts as connected, and a connection made after an error
leaves the descriptor of the first one open. -/
theorem descriptor_lost :
    ¬ Throughout (step .numeric) Owns
        [.connect (some 7) true true grantingChannel, .close]
        (fresh { address := ascii "192.168.1.10", port := 53 } [] []) ∧
      ¬ Throughout (step .numeric) Owns
        [.connect (some 7) true true grantingChannel, .onProxySocketError,
          .connect (some 8) true true grantingChannel]
        (fresh { address := ascii "192.168.1.10", port := 53 } [] []) := by
  decide +kernel

end Control

end Socks5UdpInstance

end Netstack.Socks5
