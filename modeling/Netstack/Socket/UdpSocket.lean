import Netstack.Foundation.Execution
import Netstack.Socket.ExecCommon

/-!
# The descriptors of a UDP socket

`UDPSocket::Bind` makes a new socket in every call, whether or not the object has one already.
`MulticastSocket::AddMembership` makes one if `socketFd_` is not positive, and `0` is a descriptor
as well.

## Implementation notes

A call carries what the system answers in it. `close` releases the descriptor whatever it returns.
-/

namespace Netstack.Socket

open Foundation Foundation.Execution ExecCommonUtils Holder

structure UDPSocket where
  fds : Holder := .fresh
  state : SocketStateBase := {}
  closed : Bool := false
  deriving DecidableEq

namespace UDPSocket

/-- What the system answers in `Bind`. -/
structure Binding where
  permission : Bool := true
  validAddress : Bool := true
  making : Making
  reuse : Except Nat Unit := .ok ()
  sockAddr : Except Nat Unit := .ok ()
  first : Except Nat Unit := .ok ()
  second : Except Nat Unit := .ok ()

/-- What the system answers in `AddMembership`. -/
structure Membership where
  permission : Bool := true
  validAddress : Bool := true
  making : Making
  join : Except Nat Unit := .ok ()
  bound : Except Nat Unit := .ok ()
  /-- The result of `close`, whose `errno` is the one that is reported. -/
  closing : Except Nat Unit := .ok ()

def einval : Nat := 22

/-- The second `bind` is one to a random port. -/
def doBindWithRetry (first second : Except Nat Unit) : Except Nat Unit :=
  match first with
  | .ok () => .ok ()
  | .error errno => if errno ≠ eaddrinuse then .error errno else second

variable (s : UDPSocket)

/-- A new socket is open, and neither bound nor connected. -/
def reset : UDPSocket := { s with state := {} }

/-- `close(socketFd_); socketFd_ = -1;` -/
def release : UDPSocket := { s with fds := s.fds.close }

def bind (b : Binding) : Int × UDPSocket :=
  if b.permission = false then (permissionDeniedCode, s)
  else if b.validAddress = false then (paramErrorCode, s)
  else
    match makeSocket s.fds b.making with
    | (.error errno, fds) => (convertSocketClientErrno errno, { s with fds := fds })
    | (.ok (), fds) =>
      let s := reset { s with fds := fds }
      match (do b.reuse; b.sockAddr; doBindWithRetry b.first b.second) with
      | .error errno => (convertSocketClientErrno errno, s.release)
      | .ok () => (socketErrorOk, { s with state := { s.state with isBound := true } })

def joinAndBind (m : Membership) : Int × UDPSocket :=
  match (do m.join; m.bound) with
  | .error errno =>
    match m.closing with
    | .ok () => (convertSocketClientErrno errno, s.reset.release)
    | .error later => (convertSocketClientErrno later, s.reset.release)
  | .ok () => (socketErrorOk, s.reset)

def addMembership (m : Membership) : Int × UDPSocket :=
  if m.permission = false then (permissionDeniedCode, s)
  else if m.validAddress = false then (convertSocketClientErrno einval, s)
  else if s.fds.current ≤ 0 then
    match makeSocket s.fds m.making with
    | (.error errno, fds) => (convertSocketClientErrno errno, { s with fds := fds })
    | (.ok (), fds) => joinAndBind { s with fds := fds } m
  else joinAndBind s m

def close (permission : Bool) : Int × UDPSocket :=
  if permission = false then (permissionDeniedCode, s)
  else if s.state.isClose then (socketErrorOk, s)
  else if s.fds.current ≤ 0 then (socketFdInvalidCode, s)
  else (socketErrorOk, release { s with state := { isClose := true } })

inductive Call where
  | bind (b : Binding)
  | addMembership (m : Membership)
  | close (permission : Bool)

/-- The descriptor that the kernel hands out in a call is not open. -/
def Call.Fresh : Call → Prop
  | .bind b => b.making.Fresh s.fds
  | .addMembership m => m.making.Fresh s.fds
  | .close _ => True

instance (s : UDPSocket) (call : Call) : Decidable (call.Fresh s) := by
  cases call <;> dsimp only [Call.Fresh] <;> infer_instance

def call : Call → UDPSocket
  | .bind b => { (s.bind b).2 with closed := false }
  | .addMembership m => { (s.addMembership m).2 with closed := false }
  | .close permission =>
    { (s.close permission).2 with closed := decide ((s.close permission).1 = socketErrorOk) }

def step (c : Call) : Option UDPSocket :=
  if c.Fresh s then some (s.call c) else none

/-! ### What a call does with the descriptors -/

/-- The object goes on to make a socket. -/
def Makes : Call → Prop
  | .bind b => b.permission = true ∧ b.validAddress = true
  | .addMembership m => m.permission = true ∧ m.validAddress = true ∧ s.fds.current ≤ 0
  | .close _ => False

/-- A call leaves the descriptors as they are, closes the one that is remembered, or goes on to make
a socket: it is remembered then, or none is. -/
inductive Calls (s : UDPSocket) (c : Call) (t : UDPSocket) : Prop
  | keeps (hmakes : ¬ s.Makes c) (hfds : t.fds = s.fds)
      (hclose : t.state.isClose = true → s.state.isClose = true)
      (hclosed : t.closed = true → s.state.isClose = true)
  | closes (hmakes : ¬ s.Makes c) (hfds : t.fds = s.fds.close)
  | makes (hmakes : s.Makes c) (d : Nat) (hd : d ∉ s.fds.opened) (hfds : t.fds = s.fds.create d)
      (hclose : t.state.isClose = false) (hclosed : t.closed = false)
  | forgets (hmakes : s.Makes c) (hfds : t.fds = s.fds.forget) (hclosed : t.closed = false)

variable {s t : UDPSocket} {c : Call}

theorem calls_bind {b : Binding} (hfresh : b.making.Fresh s.fds) :
    Calls s (.bind b) (s.call (.bind b)) := by
  simp only [call, bind]
  split
  · rename_i hpermission
    exact .keeps (fun h => by simp [h.1] at hpermission) rfl id nofun
  split
  · rename_i hvalid
    exact .keeps (fun h => by simp [h.2] at hvalid) rfl id nofun
  rename_i hpermission hvalid
  have hmakes : s.Makes (.bind b) := ⟨by simpa using hpermission, by simpa using hvalid⟩
  rcases makeSocket_cases hfresh with ⟨-, errno, hmake⟩ | ⟨-, d, hd, hmake⟩
  · simp only [hmake]
    exact .forgets hmakes rfl rfl
  · simp only [hmake]
    split
    · exact .forgets hmakes (close_create hd) rfl
    · exact .makes hmakes d hd rfl rfl rfl

theorem calls_addMembership {m : Membership} (hfresh : m.making.Fresh s.fds) :
    Calls s (.addMembership m) (s.call (.addMembership m)) := by
  simp only [call, addMembership]
  split
  · rename_i hpermission
    exact .keeps (fun h => by simp [h.1] at hpermission) rfl id nofun
  split
  · rename_i hvalid
    exact .keeps (fun h => by simp [h.2.1] at hvalid) rfl id nofun
  rename_i hpermission hvalid
  split
  · rename_i hcurrent
    have hmakes : s.Makes (.addMembership m) :=
      ⟨by simpa using hpermission, by simpa using hvalid, hcurrent⟩
    rcases makeSocket_cases hfresh with ⟨-, errno, hmake⟩ | ⟨-, d, hd, hmake⟩
    · simp only [hmake]
      exact .forgets hmakes rfl rfl
    · simp only [hmake, joinAndBind]
      split
      · split
        · exact .forgets hmakes (close_create hd) rfl
        · exact .forgets hmakes (close_create hd) rfl
      · exact .makes hmakes d hd rfl rfl rfl
  · rename_i hcurrent
    have hmakes : ¬ s.Makes (.addMembership m) := fun h => hcurrent h.2.2
    simp only [joinAndBind]
    split
    · split
      · exact .closes hmakes rfl
      · exact .closes hmakes rfl
    · exact .keeps hmakes rfl nofun nofun

theorem calls_close (permission : Bool) :
    Calls s (.close permission) (s.call (.close permission)) := by
  simp only [call, close]
  split
  · exact .keeps id rfl id nofun
  split
  · rename_i hclose
    exact .keeps id rfl id fun _ => hclose
  split
  · exact .keeps id rfl id nofun
  · exact .closes id rfl

theorem calls_of_step (h : step s c = some t) : Calls s c t := by
  obtain ⟨hfresh, h⟩ := Option.ite_none_right_eq_some.mp h
  cases h
  cases c with
  | bind b => exact calls_bind hfresh
  | addMembership m => exact calls_addMembership hfresh
  | close permission => exact calls_close permission

/-! ### The accounts -/

/-- Every descriptor that the object has made is its current one or closed, and none is open after
a successful `Close`. -/
@[mk_iff]
structure Accounts (s : UDPSocket) : Prop where
  accounted : s.fds.Accounted
  none_open : s.closed = true → s.fds.opened = ∅

/-- The descriptor that the object remembers is open, and a closed object remembers none. -/
structure Idle (s : UDPSocket) : Prop where
  live : s.fds.Live
  idle : s.state.isClose = true → s.fds.current < 0

theorem Idle.step (h : Idle s) (hstep : step s c = some t) : Idle t := by
  cases calls_of_step hstep with
  | keeps _ hfds hback _ =>
    refine ⟨by rw [hfds]; exact h.live, fun hclose => ?_⟩
    rw [hfds]
    exact h.idle (hback hclose)
  | closes _ hfds =>
    have hcurrent : t.fds.current < 0 := by simp [hfds]
    exact ⟨live_of_current_neg hcurrent, fun _ => hcurrent⟩
  | makes _ d _ hfds hopen _ =>
    refine ⟨by rw [hfds]; exact s.fds.live_create d, fun hclose => ?_⟩
    exact absurd hclose (by simp [hopen])
  | forgets _ hfds _ =>
    have hcurrent : t.fds.current < 0 := by simp [hfds]
    exact ⟨live_of_current_neg hcurrent, fun _ => hcurrent⟩

/-- A socket is made only if the object remembers none. -/
def Unheld (s : UDPSocket) (c : Call) : Prop := s.Makes c → s.fds.current < 0

theorem accounts_step_iff (hidle : Idle s) (h : Accounts s) (hstep : step s c = some t) :
    Accounts t ↔ s.Unheld c := by
  have hempty := h.accounted.opened_empty_iff hidle.live
  cases calls_of_step hstep with
  | keeps hmakes hfds _ hclosed =>
    refine iff_of_true ⟨by rw [hfds]; exact h.accounted, fun ht => ?_⟩ (absurd · hmakes)
    rw [hfds, hempty]
    exact hidle.idle (hclosed ht)
  | closes hmakes hfds =>
    have hnone : t.fds.opened = ∅ := by
      rw [hfds]
      exact h.accounted.opened_strip
    exact iff_of_true ⟨accounted_of_opened_empty hnone, fun _ => hnone⟩ (absurd · hmakes)
  | makes hmakes d hd hfds _ hclosed =>
    have haccounted : t.fds.Accounted ↔ s.fds.current < 0 := by
      rw [hfds, accounted_create_iff hd, hempty]
    constructor
    · intro ht _
      exact haccounted.mp ht.accounted
    · intro hunheld
      exact ⟨haccounted.mpr (hunheld hmakes), fun ht => by simp [hclosed] at ht⟩
  | forgets hmakes hfds hclosed =>
    have haccounted : t.fds.Accounted ↔ s.fds.current < 0 := by
      rw [hfds, accounted_forget_iff, hempty]
    constructor
    · intro ht _
      exact haccounted.mp ht.accounted
    · intro hunheld
      exact ⟨haccounted.mpr (hunheld hmakes), fun ht => by simp [hclosed] at ht⟩

/-- The accounts of a UDP socket are right after every call if and only if no call goes on to make a
socket while the object remembers a descriptor. -/
theorem accounts_throughout_iff (calls : List Call) :
    Throughout step Accounts calls {} ↔ Meets step Unheld calls {} :=
  throughout_iff_meets (J := Idle) (fun _ _ _ hs hstep => hs.step hstep)
    (fun _ _ _ hidle hs hstep => accounts_step_iff hidle hs hstep) calls
    ⟨live_of_current_neg (by decide), nofun⟩
    ⟨accounted_of_opened_empty rfl, nofun⟩

section Instances

/-- The socket is made with this descriptor, and everything else succeeds. -/
def making (d : Nat) : Making := { socket := .ok d }

end Instances

instance (s : UDPSocket) : Decidable s.Accounts :=
  decidable_of_iff' _ (accounts_iff s)

/-- The second `Bind` makes descriptor 4, and descriptor 3 stays open after `Close`. -/
theorem second_bind_loses :
    ∃ t, [Call.bind { making := making 3 }, .bind { making := making 4 }, .close true].foldlM step
        {} = some t ∧ t.closed = true ∧ t.fds.opened = {3} ∧ ¬ Accounts t := by
  refine ⟨_, rfl, by decide, by decide, by decide⟩

end UDPSocket

end Netstack.Socket
