import Netstack.Foundation.Descriptors

/-!
# Error codes and new sockets

The codes that the native sockets return, and `MakeTcpSocket` and `MakeUdpSocket`, whose result is
assigned to `socketFd_`, whatever it was before.

## Implementation notes

An outcome of a system call is its result or its `errno`. A socket that cannot be made non-blocking
is closed again, and the object remembers no descriptor then.
-/

namespace Netstack.Socket

open Foundation

def socketErrorOk : Int := 0

def unknownError : Int := -1

def permissionDeniedCode : Int := 201

def paramErrorCode : Int := 401

def systemInternalError : Int := 2300002

def socketErrorCodeBase : Int := 2301000

def convertSocketClientErrno (errCode : Int) : Int :=
  if errCode = unknownError ∨ errCode = permissionDeniedCode ∨ errCode = paramErrorCode ∨
      errCode = systemInternalError then errCode
  else socketErrorCodeBase + errCode

/-- An error that the system reports is not taken for a success. -/
theorem convertSocketClientErrno_ne_ok (errno : Nat) :
    convertSocketClientErrno errno ≠ socketErrorOk := by
  rw [convertSocketClientErrno]
  split
  · rename_i hown
    simp only [unknownError, permissionDeniedCode, paramErrorCode, systemInternalError] at hown
    simp only [socketErrorOk]
    omega
  · simp only [socketErrorCodeBase, socketErrorOk]
    omega

def socketFdInvalidCode : Int := 2300999

def errnoBadFd : Nat := 9

def eintr : Nat := 4

def eagain : Nat := 11

def enotsock : Nat := 88

def eaddrinuse : Nat := 98

/-- The state of a socket object. -/
structure SocketStateBase where
  isBound : Bool := false
  isClose : Bool := false
  isConnected : Bool := false
  deriving DecidableEq, Repr

namespace ExecCommonUtils

def maxSocketBufferSize : Int := 262144

def defaultBufferSize : Int := 8192

/-- What `getsockopt` says about `SO_RCVBUF`, or `-1`. -/
def recvBufferSize : Option Int → Int
  | some opt => if 0 < opt then opt else -1
  | none => -1

def confirmBufferSize (rcvBuf : Option Int) : Int :=
  if recvBufferSize rcvBuf ≤ 0 ∨ maxSocketBufferSize < recvBufferSize rcvBuf then defaultBufferSize
  else recvBufferSize rcvBuf

theorem confirmBufferSize_bounds (rcvBuf : Option Int) :
    0 < confirmBufferSize rcvBuf ∧ confirmBufferSize rcvBuf ≤ maxSocketBufferSize := by
  rw [confirmBufferSize]
  split
  · exact ⟨by decide, by decide⟩
  grind

/-- What the system answers when a socket is made. -/
structure Making where
  /-- The family is `AF_INET` or `AF_INET6`. -/
  family : Bool := true
  socket : Except Nat Nat
  nonBlock : Except Nat Unit := .ok ()
  /-- `errno` if no call is made. -/
  errno : Nat := 0

/-- `socketFd_ = MakeTcpSocket(..)` and `socketFd_ = MakeUdpSocket(..)`: the `errno` of a failure
and the descriptors after it. -/
def makeSocket (fds : Holder) (m : Making) : Except Nat Unit × Holder :=
  if m.family = false then (.error m.errno, fds.forget)
  else
    match m.socket with
    | .error errno => (.error errno, fds.forget)
    | .ok d =>
      match m.nonBlock with
      | .error errno => (.error errno, (fds.create d).close)
      | .ok () => (.ok (), fds.create d)

/-- The kernel hands out a descriptor that is not open. -/
def Making.Fresh (m : Making) (fds : Holder) : Prop := ∀ d, m.socket = .ok d → d ∉ fds.opened

instance (m : Making) (fds : Holder) : Decidable (m.Fresh fds) :=
  match h : m.socket with
  | .error _ => isTrue fun _ hd => nomatch h.symm.trans hd
  | .ok d =>
    decidable_of_iff (d ∉ fds.opened)
      ⟨fun hfresh _ he => Except.ok.inj (h.symm.trans he) ▸ hfresh, fun hfresh => hfresh d h⟩

/-- The system makes the socket. -/
def Making.made (m : Making) : Bool := m.family && m.socket.isOk && m.nonBlock.isOk

/-- Either no socket was made and none is remembered, or a new one is. -/
theorem makeSocket_cases {fds : Holder} {m : Making} (hfresh : m.Fresh fds) :
    (m.made = false ∧ ∃ errno, makeSocket fds m = (.error errno, fds.forget)) ∨
      (m.made = true ∧ ∃ d, d ∉ fds.opened ∧ makeSocket fds m = (.ok (), fds.create d)) := by
  rw [makeSocket, Making.made]
  split
  · rename_i hfamily
    exact Or.inl ⟨by rw [hfamily]; rfl, m.errno, rfl⟩
  rename_i hfamily
  rw [Bool.not_eq_false] at hfamily
  cases hsocket : m.socket with
  | error errno => exact Or.inl ⟨by rw [hfamily]; rfl, errno, rfl⟩
  | ok d =>
    have hd : d ∉ fds.opened := hfresh d hsocket
    cases m.nonBlock with
    | error errno =>
      refine Or.inl ⟨by rw [hfamily]; rfl, errno, ?_⟩
      simp only [Holder.close_create hd]
    | ok _ => exact Or.inr ⟨by rw [hfamily]; rfl, d, hd, rfl⟩

end ExecCommonUtils

end Netstack.Socket
