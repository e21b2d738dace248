import Netstack.Foundation.Execution
import Netstack.Socket.ExecCommon

/-!
# The life of a TCP client socket

`TCPSocket::Close` does nothing if the state says that the socket is closed. `Bind` resets that
state when it makes a socket, `Connect` does not: a socket that `Connect` has made after `Close`
is never closed.

## Implementation notes

A call carries what the system answers in it. `closed` says that the last call was a `Close` that
returned `SOCKET_ERROR_OK`.
-/

namespace Netstack.Socket

open Foundation Foundation.Execution ExecCommonUtils Holder

structure TCPSocket where
  fds : Holder := .fresh
  state : SocketStateBase := {}
  asyncConnecting : Bool := false
  /-- There is a SOCKS5 instance. -/
  socks5Instance : Bool := false
  /-- The callbacks that the monitor may still make. -/
  watched : Nat := 0
  closed : Bool := false
  deriving DecidableEq

namespace TCPSocket

def eacces : Nat := 13

def eisconn : Nat := 106

def ealready : Nat := 114

def einprogress : Nat := 115

def bindRetryTimes : Nat := 5

/-- What the system answers in `Close`. -/
structure Closing where
  permission : Bool := true
  closes : Bool := true

variable (s : TCPSocket)

def close (c : Closing) : Int × TCPSocket :=
  if c.permission = false then (permissionDeniedCode, s)
  else if s.state.isClose then (socketErrorOk, s)
  else
    let s := { s with socks5Instance := false, state := { s.state with isClose := true } }
    if s.fds.current < 0 then (socketFdInvalidCode, s)
    else if c.closes = false then
      (convertSocketClientErrno unknownError, { s with fds := s.fds.close })
    else
      (socketErrorOk, { s with fds := s.fds.close, state := { isClose := true } })

/-- What the system answers in `Bind`. -/
structure Binding where
  permission : Bool := true
  validAddress : Bool := true
  making : Making
  reuse : Bool := true
  sockAddr : Bool := true
  /-- The results of `bind`, one try after another. -/
  tries : Nat → Except Nat Unit := fun _ => .ok ()
  /-- The result of `bind` with a random port. -/
  randomPort : Except Nat Unit := .ok ()
  closing : Closing := {}
  /-- `errno` when it is converted. -/
  errno : Nat := 0

/-- The loop of `DoBindWithRetry`, from a try on; without a result it goes on behind the loop. -/
def bindLoop (tries : Nat → Except Nat Unit) : Nat → Nat → Option (Except Nat Unit)
  | 0, _ => none
  | left + 1, retry =>
    match tries retry with
    | .ok () => some (.ok ())
    | .error errno =>
      if errno ≠ eaddrinuse then
        if errno ≠ eacces then some (.error errno) else none
      else bindLoop tries left (retry + 1)

def doBindWithRetry (b : Binding) : Except Nat Unit :=
  (bindLoop b.tries (bindRetryTimes + 1) 0).getD b.randomPort

def bindOn (b : Binding) : Int × TCPSocket :=
  if b.reuse = false then (convertSocketClientErrno b.errno, (s.close b.closing).2)
  else if b.sockAddr = false then (paramErrorCode, s)
  else
    match doBindWithRetry b with
    | .error _ => (convertSocketClientErrno b.errno, (s.close b.closing).2)
    | .ok () => (socketErrorOk, { s with state := { s.state with isBound := true } })

def bind (b : Binding) : Int × TCPSocket :=
  if b.permission = false then (permissionDeniedCode, s)
  else if b.validAddress = false then (paramErrorCode, s)
  else if 0 ≤ s.fds.current ∧ s.state.isBound then (socketErrorOk, s)
  else if s.fds.current < 0 then
    match makeSocket s.fds b.making with
    | (.error _, fds) => (systemInternalError, { s with fds := fds })
    | (.ok (), fds) => bindOn { s with fds := fds, state := { s.state with isClose := false } } b
  else bindOn s b

/-- What the system answers in `Connect`. -/
structure Connecting where
  permission : Bool := true
  making : Making
  /-- The connection is one through a SOCKS5 proxy. -/
  proxy : Bool := false
  /-- `InitSocks5TcpInstance` makes an instance. -/
  initInstance : Bool := true
  sockAddr : Except Nat Unit := .ok ()
  connect : Except Nat Unit
  /-- The data for the monitor can be made. -/
  watchData : Bool := true
  /-- The monitor accepts the registration. -/
  registers : Bool := true
  closing : Closing := {}

def handleNonProxyConnection (c : Connecting) : Int × TCPSocket :=
  if s.fds.current < 0 then (convertSocketClientErrno errnoBadFd, s)
  else
    match c.sockAddr with
    | .error _ => (paramErrorCode, s)
    | .ok () =>
      match c.connect with
      | .ok () => (socketErrorOk, { s with asyncConnecting := false })
      | .error errno =>
        if errno = einprogress ∨ errno = ealready then
          (socketErrorOk, { s with asyncConnecting := true })
        else (convertSocketClientErrno errno, s)

def handleTcpProxyOptions (c : Connecting) : Int × TCPSocket :=
  if s.fds.current < 0 then (convertSocketClientErrno errnoBadFd, s)
  else if s.socks5Instance = false ∧ c.initInstance = false then (paramErrorCode, s)
  else
    let s := { s with socks5Instance := true }
    match c.sockAddr with
    | .error errno => (convertSocketClientErrno errno, s)
    | .ok () =>
      match c.connect with
      | .ok () => (socketErrorOk, { s with asyncConnecting := true })
      | .error errno =>
        if errno = eisconn ∨ errno = einprogress ∨ errno = ealready then
          (socketErrorOk, { s with asyncConnecting := true })
        else (convertSocketClientErrno errno, s)

def registerAsyncConnect (c : Connecting) : Int × TCPSocket :=
  if c.watchData = false then (systemInternalError, (s.close c.closing).2)
  else if c.registers = false then (systemInternalError, (s.close c.closing).2)
  else (socketErrorOk, { s with watched := s.watched + 1 })

/-- `Connect` once there is a socket, up to the monitor. -/
def startConnection (c : Connecting) : Int × TCPSocket :=
  if c.proxy then s.handleTcpProxyOptions c else s.handleNonProxyConnection c

def connectOn (c : Connecting) : Int × TCPSocket :=
  let started := s.startConnection c
  if started.1 ≠ socketErrorOk then started
  else if started.2.asyncConnecting then started.2.registerAsyncConnect c
  else (socketErrorOk, { started.2 with state := { started.2.state with isConnected := true } })

def connect (c : Connecting) : Int × TCPSocket :=
  let s := { s with state := { s.state with isConnected := false } }
  if c.permission = false then (permissionDeniedCode, s)
  else if s.fds.current ≤ 0 then
    match makeSocket s.fds c.making with
    | (.error _, fds) => (systemInternalError, { s with fds := fds })
    | (.ok (), fds) => connectOn { s with fds := fds } c
  else connectOn s c

/-- A callback of the monitor. -/
structure Completion where
  errCode : Int
  /-- The authentication with the proxy succeeds. -/
  auth : Bool := true
  closing : Closing := {}

def onAsyncConnectComplete (c : Completion) : TCPSocket :=
  if s.state.isClose ∨ s.fds.current ≤ 0 then s
  else if c.errCode ≠ 0 then (s.close c.closing).2
  else if s.socks5Instance ∧ c.auth = false then
    (close { s with fds := s.fds.strip } c.closing).2
  else { s with state := { s.state with isConnected := true } }

inductive Call where
  | bind (b : Binding)
  | connect (c : Connecting)
  | complete (c : Completion)
  | close (c : Closing)

def call : Call → TCPSocket
  | .bind b => { (s.bind b).2 with closed := false }
  | .connect c => { (s.connect c).2 with closed := false }
  | .complete c =>
    { s.onAsyncConnectComplete c with watched := s.watched - 1, closed := false }
  | .close c => { (s.close c).2 with closed := decide ((s.close c).1 = socketErrorOk) }

/-- The kernel hands out a descriptor that is not open, and the monitor calls back once for each
registration. -/
def Call.Possible : Call → Prop
  | .bind b => b.making.Fresh s.fds
  | .connect c => c.making.Fresh s.fds
  | .complete _ => 0 < s.watched
  | .close _ => True

instance (s : TCPSocket) (call : Call) : Decidable (call.Possible s) := by
  cases call <;> dsimp only [Call.Possible] <;> infer_instance

def step (c : Call) : Option TCPSocket :=
  if c.Possible s then some (s.call c) else none

/-! ### What a call does with the descriptors -/

/-- Neither the descriptors nor whether the state says closed are changed. -/
def Same (s t : TCPSocket) : Prop := t.fds = s.fds ∧ t.state.isClose = s.state.isClose

/-- `Close` changes nothing that matters here, or it is the first one since the socket was opened:
the descriptor is then closed, if there is one. -/
inductive Closes (s t : TCPSocket) : Prop
  | keeps (hsame : Same s t)
  | nothing (hopen : s.state.isClose = false) (hfds : t.fds = s.fds) (hcurrent : s.fds.current < 0)
  | closes (hopen : s.state.isClose = false) (hfds : t.fds = s.fds.close)

variable {s t : TCPSocket} {c : Call}

theorem closes_close (s : TCPSocket) (c : Closing) : Closes s (s.close c).2 := by
  simp only [close]
  split
  · exact .keeps ⟨rfl, rfl⟩
  split
  · exact .keeps ⟨rfl, rfl⟩
  rename_i hopen
  rw [Bool.not_eq_true] at hopen
  split
  · rename_i hcurrent
    exact .nothing hopen rfl hcurrent
  split
  · exact .closes hopen rfl
  · exact .closes hopen rfl

/-- `Close` succeeds if it closes the descriptor, or if the state says closed already. -/
theorem close_ok {c : Closing} (h : (s.close c).1 = socketErrorOk) :
    s.state.isClose = true ∧ (s.close c).2 = s ∨ (s.close c).2.fds = s.fds.close := by
  revert h
  simp only [close]
  split
  · intro h
    cases h
  split
  · rename_i hclose
    exact fun _ => Or.inl ⟨hclose, rfl⟩
  split
  · intro h
    cases h
  grind

theorem Same.closes {u : TCPSocket} (hsame : Same s t) (h : Closes t u) : Closes s u := by
  obtain ⟨hfds, hclose⟩ := hsame
  cases h with
  | keeps h => exact .keeps ⟨h.1.trans hfds, h.2.trans hclose⟩
  | nothing hopen h hcurrent =>
    exact .nothing (hclose.symm.trans hopen) (h.trans hfds) (by rw [← hfds]; exact hcurrent)
  | closes hopen h => exact .closes (hclose.symm.trans hopen) (h.trans (by rw [hfds]))

variable (s)

theorem closes_bindOn (b : Binding) : Closes s (s.bindOn b).2 := by
  rw [bindOn]
  split
  · exact closes_close s b.closing
  split
  · exact .keeps ⟨rfl, rfl⟩
  split
  · exact closes_close s b.closing
  · exact .keeps ⟨rfl, rfl⟩

theorem same_handleNonProxyConnection (c : Connecting) :
    Same s (s.handleNonProxyConnection c).2 := by
  rw [handleNonProxyConnection]
  split
  · exact ⟨rfl, rfl⟩
  split
  · exact ⟨rfl, rfl⟩
  split
  · exact ⟨rfl, rfl⟩
  split
  · exact ⟨rfl, rfl⟩
  · exact ⟨rfl, rfl⟩

theorem same_handleTcpProxyOptions (c : Connecting) : Same s (s.handleTcpProxyOptions c).2 := by
  simp only [handleTcpProxyOptions]
  split
  · exact ⟨rfl, rfl⟩
  split
  · exact ⟨rfl, rfl⟩
  split
  · exact ⟨rfl, rfl⟩
  split
  · exact ⟨rfl, rfl⟩
  split
  · exact ⟨rfl, rfl⟩
  · exact ⟨rfl, rfl⟩

theorem closes_registerAsyncConnect (c : Connecting) : Closes s (s.registerAsyncConnect c).2 := by
  rw [registerAsyncConnect]
  split
  · exact closes_close s c.closing
  split
  · exact closes_close s c.closing
  · exact .keeps ⟨rfl, rfl⟩

theorem closes_connectOn (c : Connecting) : Closes s (s.connectOn c).2 := by
  have hsame : Same s (s.startConnection c).2 := by
    rw [startConnection]
    split
    · exact same_handleTcpProxyOptions s c
    · exact same_handleNonProxyConnection s c
  simp only [connectOn]
  split
  · exact .keeps hsame
  split
  · exact hsame.closes (closes_registerAsyncConnect _ c)
  · exact .keeps ⟨hsame.1, hsame.2⟩

variable {s}

/-- `Connect` goes on to make a socket. -/
def Makes (s : TCPSocket) : Call → Prop
  | .connect c => c.permission = true ∧ s.fds.current ≤ 0
  | _ => False

/-- The system makes the socket that `Connect` asks for. -/
def Call.made : Call → Bool
  | .connect c => c.making.made
  | _ => false

/-- A call leaves the descriptors as they are, leaves none open, or makes one: `Bind` does when it
has none, `Connect` whenever the number is not positive. -/
inductive Calls (s : TCPSocket) (c : Call) (t : TCPSocket) : Prop
  | keeps (hmakes : ¬ s.Makes c) (hsame : Same s t)
      (hclosed : t.closed = true → s.state.isClose = true)
  | releases (hmakes : ¬ s.Makes c) (hopened : s.fds.Accounted → t.fds.opened = ∅)
  | binds (hmakes : ¬ s.Makes c) (d : Nat) (hd : d ∉ s.fds.opened) (hcurrent : s.fds.current < 0)
      (hfds : t.fds = s.fds.create d) (hopen : t.state.isClose = false) (hclosed : t.closed = false)
  | connects (hmakes : s.Makes c) (hmade : c.made = true) (d : Nat) (hd : d ∉ s.fds.opened)
      (hfds : t.fds = s.fds.create d) (hclose : t.state.isClose = s.state.isClose)
      (hclosed : t.closed = false)
  | forgets (hmakes : s.Makes c) (hmade : c.made = true → s.state.isClose = false)
      (hfds : t.fds = s.fds.forget) (hclosed : t.closed = false)

/-- What follows after a part of a call that keeps or closes the descriptor. -/
theorem Closes.calls {u : TCPSocket} (h : Closes s u) (hmakes : ¬ s.Makes c)
    (hfds : t.fds = u.fds) (hclose : t.state.isClose = u.state.isClose)
    (hclosed : t.closed = true → s.state.isClose = true) : Calls s c t := by
  cases h with
  | keeps hsame => exact .keeps hmakes ⟨hfds.trans hsame.1, hclose.trans hsame.2⟩ hclosed
  | nothing _ hsame hcurrent =>
    refine .releases hmakes fun haccounted => ?_
    rw [hfds, hsame]
    exact haccounted.opened_empty hcurrent
  | closes _ hstrip =>
    refine .releases hmakes fun haccounted => ?_
    rw [hfds, hstrip]
    exact haccounted.opened_strip

theorem calls_bind {b : Binding} (hfresh : b.making.Fresh s.fds) :
    Calls s (.bind b) (s.call (.bind b)) := by
  have hkept : Calls s (.bind b) { s with closed := false } := .keeps id ⟨rfl, rfl⟩ nofun
  simp only [call, bind]
  split
  · exact hkept
  split
  · exact hkept
  split
  · exact hkept
  split
  · rename_i hcurrent
    rcases makeSocket_cases hfresh with ⟨-, errno, hmake⟩ | ⟨-, d, hd, hmake⟩
    · simp only [hmake]
      exact .releases id fun haccounted => haccounted.opened_empty hcurrent
    · simp only [hmake]
      cases closes_bindOn
        { s with fds := s.fds.create d, state := { s.state with isClose := false } } b with
      | keeps hsame => exact .binds id d hd hcurrent hsame.1 hsame.2 rfl
      | nothing _ hsame hnone => exact absurd hnone (by simp)
      | closes _ hclosed =>
        refine .releases id fun haccounted => ?_
        simp only [hclosed, close_create hd]
        exact haccounted.opened_empty hcurrent
  · exact (closes_bindOn s b).calls id rfl rfl nofun

theorem calls_connect {k : Connecting} (hfresh : k.making.Fresh s.fds) :
    Calls s (.connect k) (s.call (.connect k)) := by
  simp only [call, connect]
  split
  · rename_i hpermission
    exact .keeps (fun h => by simp [h.1] at hpermission) ⟨rfl, rfl⟩ nofun
  rename_i hpermission
  rw [Bool.not_eq_false] at hpermission
  split
  · rename_i hcurrent
    have hmakes : s.Makes (.connect k) := ⟨hpermission, hcurrent⟩
    rcases makeSocket_cases hfresh with ⟨hmade, errno, hmake⟩ | ⟨hmade, d, hd, hmake⟩
    · simp only [hmake]
      exact .forgets hmakes (fun h => nomatch hmade.symm.trans h) rfl rfl
    · simp only [hmake]
      cases closes_connectOn { s with
        fds := s.fds.create d, state := { s.state with isConnected := false } } k with
      | keeps hsame => exact .connects hmakes hmade d hd hsame.1 hsame.2 rfl
      | nothing _ hsame hnone => exact absurd hnone (by simp)
      | closes hopen hclosed =>
        exact .forgets hmakes (fun _ => hopen) (hclosed.trans (close_create hd)) rfl
  · rename_i hcurrent
    have hmakes : ¬ s.Makes (.connect k) := fun h => hcurrent h.2
    have hsame : Same s { s with state := { s.state with isConnected := false } } := ⟨rfl, rfl⟩
    exact (hsame.closes (closes_connectOn _ k)).calls hmakes rfl rfl nofun

theorem calls_complete (k : Completion) : Calls s (.complete k) (s.call (.complete k)) := by
  simp only [call, onAsyncConnectComplete]
  split
  · exact .keeps id ⟨rfl, rfl⟩ nofun
  split
  · exact (closes_close s k.closing).calls id rfl rfl nofun
  split
  · refine .releases id fun haccounted => ?_
    have hnone : s.fds.strip.opened = ∅ := haccounted.opened_strip
    cases closes_close { s with fds := s.fds.strip } k.closing with
    | keeps hsame => simpa [hsame.1] using hnone
    | nothing _ hsame _ => simpa [hsame] using hnone
    | closes _ hclosed =>
      simp only [hclosed]
      exact (accounted_of_opened_empty hnone).opened_strip
  · exact .keeps id ⟨rfl, rfl⟩ nofun

theorem calls_close (k : Closing) : Calls s (.close k) (s.call (.close k)) := by
  by_cases hok : (s.close k).1 = socketErrorOk
  · rcases close_ok hok with ⟨hclose, hsame⟩ | hfds
    · refine .keeps id ⟨?_, ?_⟩ fun _ => hclose
      · simp only [call, hsame]
      · simp only [call, hsame]
    · refine .releases id fun haccounted => ?_
      simp only [call, hfds]
      exact haccounted.opened_strip
  · exact (closes_close s k).calls id rfl rfl fun h => absurd (of_decide_eq_true h) hok

theorem calls_of_step (h : step s c = some t) : Calls s c t := by
  obtain ⟨hpossible, h⟩ := Option.ite_none_right_eq_some.mp h
  cases h
  cases c with
  | bind b => exact calls_bind hpossible
  | connect k => exact calls_connect hpossible
  | complete k => exact calls_complete k
  | close k => exact calls_close k

/-! ### The life of the socket -/

/-- Every open descriptor is the one that the object holds, so that at most one is open; while there
is one the state does not say closed; none is open after a successful `Close`, and whatever is open
can be closed. -/
structure Lifecycle (s : TCPSocket) : Prop where
  held : s.fds.Accounted
  one_open : s.fds.opened.card ≤ 1
  open_held : s.fds.opened.Nonempty → s.state.isClose = false
  none_open : s.closed = true → s.fds.opened = ∅
  closable : ∀ closes, (s.close { closes := closes }).2.fds.opened = ∅

theorem opened_close (hheld : s.fds.Accounted)
    (hopen : s.fds.opened.Nonempty → s.state.isClose = false) (closes : Bool) :
    (s.close { closes := closes }).2.fds.opened = ∅ := by
  by_cases hclose : s.state.isClose = true
  · grind [close]
  · by_cases hcurrent : s.fds.current < 0
    · have hsame : (s.close { closes := closes }).2.fds = s.fds := by simp [close, hclose, hcurrent]
      rw [hsame]
      exact hheld.opened_empty hcurrent
    · have hfds : (s.close { closes := closes }).2.fds = s.fds.close := by
        cases closes <;> simp [close, hclose, hcurrent]
      rw [hfds]
      exact hheld.opened_strip

theorem lifecycle_iff :
    Lifecycle s ↔ s.fds.Accounted ∧ (s.fds.opened.Nonempty → s.state.isClose = false) ∧
      (s.closed = true → s.fds.opened = ∅) := by
  constructor
  · intro h
    exact ⟨h.held, h.open_held, h.none_open⟩
  · rintro ⟨hheld, hopen, hnone⟩
    exact ⟨hheld, hheld.card_le_one, hopen, hnone, opened_close hheld hopen⟩

instance (s : TCPSocket) : Decidable s.Lifecycle := decidable_of_iff _ lifecycle_iff.symm

theorem lifecycle_of_opened_empty (h : s.fds.opened = ∅) : Lifecycle s := by
  refine lifecycle_iff.mpr ⟨accounted_of_opened_empty h, fun hne => ?_, fun _ => h⟩
  exact absurd h (Finset.nonempty_iff_ne_empty.mp hne)

/-- `Connect` makes a socket only if descriptor 0 is not one of its own, and then the state does not
say closed. -/
def Orderly (s : TCPSocket) (c : Call) : Prop :=
  s.Makes c → 0 ∉ s.fds.opened ∧ (c.made = true → s.state.isClose = false)

/-- Where `Connect` makes a socket, only descriptor 0 can be open. -/
theorem opened_empty_iff_of_makes (hheld : s.fds.Accounted) (hmakes : s.Makes c) :
    s.fds.opened = ∅ ↔ 0 ∉ s.fds.opened := by
  have hcurrent : s.fds.current ≤ 0 := by
    cases c with
    | connect k => exact hmakes.2
    | bind b => exact hmakes.elim
    | complete k => exact hmakes.elim
    | close k => exact hmakes.elim
  constructor
  · intro h
    rw [h]
    exact Finset.notMem_empty 0
  · intro h
    refine Finset.eq_empty_of_forall_notMem fun d hd => ?_
    have heq := hheld d hd
    obtain rfl : d = 0 := by omega
    exact h hd

theorem lifecycle_step_iff (h : Lifecycle s) (hstep : step s c = some t) :
    Lifecycle t ↔ s.Orderly c := by
  cases calls_of_step hstep with
  | keeps hmakes hsame hclosed =>
    refine iff_of_true (lifecycle_iff.mpr ⟨?_, ?_, fun ht => ?_⟩) (absurd · hmakes)
    · rw [hsame.1]
      exact h.held
    · rw [hsame.1, hsame.2]
      exact h.open_held
    · rw [hsame.1]
      grind [@h.open_held]
  | releases hmakes hopened =>
    exact iff_of_true (lifecycle_of_opened_empty (hopened h.held)) (absurd · hmakes)
  | binds hmakes d hd hcurrent hfds hopen hclosed =>
    refine iff_of_true (lifecycle_iff.mpr ⟨?_, fun _ => hopen, fun ht => ?_⟩) (absurd · hmakes)
    · rw [hfds, accounted_create_iff hd]
      exact h.held.opened_empty hcurrent
    · exact nomatch hclosed.symm.trans ht
  | connects hmakes hmade d hd hfds hclose hclosed =>
    have hempty := opened_empty_iff_of_makes h.held hmakes
    rw [lifecycle_iff, hfds, accounted_create_iff hd, hempty, hclose, Orderly]
    constructor
    · rintro ⟨hzero, hopen, -⟩ _
      exact ⟨hzero, fun _ => hopen (Finset.insert_nonempty d _)⟩
    grind
  | forgets hmakes hmade hfds hclosed =>
    have hempty := opened_empty_iff_of_makes h.held hmakes
    constructor
    · intro ht _
      grind [accounted_forget_iff, @ht.held]
    · intro horderly
      refine lifecycle_of_opened_empty ?_
      rw [hfds]
      exact hempty.mpr (horderly hmakes).1

/-- The life of a TCP socket is in order after every call if and only if `Connect` makes a socket
only while descriptor 0 is not an open one of its own and the state does not say closed. -/
theorem lifecycle_throughout_iff (calls : List Call) :
    Throughout step Lifecycle calls {} ↔ Meets step Orderly calls {} :=
  throughout_iff_meets (J := fun _ => True) (fun _ _ _ _ _ => trivial)
    (fun _ _ _ _ hs hstep => lifecycle_step_iff hs hstep) calls trivial
    (lifecycle_of_opened_empty rfl)

/-- The socket that is made by `Connect` after `Close` stays open after the next `Close`. -/
theorem reopened_never_closed :
    ∃ t, [Call.connect { making := { socket := .ok 3 }, connect := .ok () }, .close {},
        .connect { making := { socket := .ok 4 }, connect := .ok () }, .close {}].foldlM step
        {} = some t ∧ t.closed = true ∧ t.fds = { current := 4, opened := {4} } ∧
        ¬ Lifecycle t := by
  refine ⟨_, rfl, by decide, by decide, by decide⟩

end TCPSocket

end Netstack.Socket
