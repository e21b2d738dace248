import Netstack.Foundation.Interleaving

/-!
# How the closing of a connection is reported

A connection can be closed by the application, by the thread that handles the client, by the
`Close` of the server and by its destructor, and each closing may call the `onClose` listener.

## Implementation notes

A thread is followed through one call of `Close`, and the one that handles the client through all
that it does when the client is gone. `begun` counts the calls that are bound to report.
-/

namespace Netstack.Socket

open Foundation.Interleaving Option

/-- Who calls `Close` on a connection; `removal` is the second call of a handler. -/
inductive Closer where
  | application
  | server
  | handler
  | removal
  | destructor
  deriving DecidableEq, Repr

namespace TCPSocketConnection

/-- The connection, with what the server has of it. -/
structure Shared where
  socketFd : Int
  inMap : Bool := true
  /-- `ClientHandler` is in its loop. -/
  handled : Bool := true
  destroyed : Bool := false
  /-- The calls of `Close` that have the permission. -/
  begun : Nat := 0
  reported : Nat := 0

inductive Position where
  | entered (closer : Closer)
  | permitted (closer : Closer)
  | closing (closer : Closer)
  | reporting (closer : Closer)
  | returned (closer : Closer)
  | ended
  deriving DecidableEq, Repr

/-- `Close`, and for the handler the rest of `CleanupClientConnection`: `RemoveConnection` calls
`Close` again. The answer is the one of `HasInternetPermission`. -/
def next (s : Shared) : Position → Bool → Option (Shared × Position)
  | .entered closer, granted =>
    if granted then some ({ s with begun := s.begun + 1 }, .permitted closer)
    else some (s, .returned closer)
  | .permitted closer, _ =>
    if 0 ≤ s.socketFd then some (s, .closing closer) else some (s, .reporting closer)
  | .closing closer, _ => some ({ s with socketFd := -1 }, .reporting closer)
  | .reporting closer, _ => some ({ s with reported := s.reported + 1 }, .returned closer)
  | .returned closer, _ =>
    if closer = .handler ∧ s.inMap then some ({ s with inMap := false }, .entered .removal)
    else some (s, .ended)
  | .ended, _ => none

/-- When a thread comes to the connection. The handler does so once: the client is gone and
`CleanupClientConnection` finds the connection, or the handler leaves as the server stops. The
destructor runs when no thread has the connection any more. -/
def starts (c : Config Shared Position) : Position → Option Shared
  | .entered .application => if c.shared.destroyed then none else some c.shared
  | .entered .server => if c.shared.inMap ∧ ¬ c.shared.destroyed then some c.shared else none
  | .entered .handler =>
    if c.shared.handled ∧ c.shared.inMap then some { c.shared with handled := false } else none
  | .entered .destructor =>
    if c.shared.handled ∨ c.shared.destroyed ∨ ∃ k ∈ c.threads, k ≠ .ended then none
    else some { c.shared with destroyed := true }
  | .ended => if c.shared.handled then some { c.shared with handled := false } else none
  | _ => none

/-- A connection that was accepted. -/
def accepted (socketFd : Int) : Config Shared Position := { shared := { socketFd := socketFd } }

/-- A call of `Close` that has the permission is bound to report. -/
def closeReports : Promise Shared Position Bool where
  begun := Shared.begun
  done := Shared.reported
  owed
    | .permitted _ | .closing _ | .reporting _ => 1
    | _ => 0
  begins
    | _, .entered _, granted => granted
    | _, _, _ => false

theorem closeReports_starts {c : Config Shared Position} {k : Position} {s : Shared}
    (h : starts c k = some s) :
    closeReports.owed k = 0 ∧ s.begun = c.shared.begun ∧ s.reported = c.shared.reported := by
  unfold starts at h
  split at h <;> simp only [ite_none_left_eq_some, ite_none_right_eq_some,
    some.injEq, reduceCtorEq] at h
  all_goals
    obtain ⟨-, rfl⟩ := h
    exact ⟨rfl, rfl, rfl⟩

theorem closeReports_next {s t : Shared} {k k' : Position} {granted : Bool}
    (h : next s k granted = some (t, k')) :
    t.begun = s.begun + (closeReports.begins s k granted).toNat ∧
      t.reported + closeReports.owed k' =
        s.reported + closeReports.owed k + (closeReports.begins s k granted).toNat := by
  cases k with
  | entered closer =>
    cases granted with
    | true =>
      cases h
      exact ⟨rfl, rfl⟩
    | false =>
      cases h
      exact ⟨rfl, rfl⟩
  | permitted closer =>
    rw [next] at h
    split at h <;> cases h <;> exact ⟨rfl, rfl⟩
  | closing closer =>
    cases h
    exact ⟨rfl, rfl⟩
  | reporting closer =>
    cases h
    exact ⟨rfl, rfl⟩
  | returned closer =>
    rw [next] at h
    split at h <;> cases h <;> exact ⟨rfl, rfl⟩
  | ended => exact nomatch h

theorem closeReports_respects : closeReports.Respects starts next where
  start := closeReports_starts
  begun h := (closeReports_next h).1
  owed h := (closeReports_next h).2

end TCPSocketConnection

namespace LocalSocketConnection

/-- The connection, with what the server has of it. -/
structure Shared where
  socketFd : Int
  inMap : Bool := true
  destroyed : Bool := false
  /-- The calls of `Close` that have found the socket open, and the ends of the stream that were
  read. -/
  begun : Nat := 0
  reported : Nat := 0

/-- What `recv` gives. -/
inductive Received where
  | data
  | again
  | endOfStream
  | failed
  deriving DecidableEq, Repr

inductive Position where
  | receiving
  | telling
  | entered (closer : Closer)
  | checked (closer : Closer)
  | released (closer : Closer)
  | returned (closer : Closer)
  | ended
  deriving DecidableEq, Repr

/-- The thread of the event loop is at the position. -/
def Position.inLoop : Position → Bool
  | .receiving | .telling => true
  | .entered closer | .checked closer | .released closer | .returned closer => closer = .handler
  | .ended => false

/-- `Close`, and for the thread of the event loop `RecvHandler` from the call of `recv` on, with
`CloseEpollConnection`. -/
def next (s : Shared) : Position → Received → Option (Shared × Position)
  | .receiving, .endOfStream => some ({ s with begun := s.begun + 1 }, .telling)
  | .receiving, .failed => some (s, .entered .handler)
  | .receiving, _ => some (s, .ended)
  | .telling, _ => some ({ s with reported := s.reported + 1 }, .entered .handler)
  | .entered closer, _ =>
    if s.socketFd < 0 then some (s, .returned closer)
    else some ({ s with begun := s.begun + 1 }, .checked closer)
  | .checked closer, _ => some ({ s with socketFd := -1 }, .released closer)
  | .released closer, _ => some ({ s with reported := s.reported + 1 }, .returned closer)
  | .returned closer, _ =>
    if closer = .handler then some ({ s with inMap := false }, .ended) else some (s, .ended)
  | .ended, _ => none

/-- When a thread comes to the connection. The event loop does so if `FindConnectionByFd` finds it,
the destructor runs when no thread has it any more. -/
def starts (c : Config Shared Position) : Position → Option Shared
  | .receiving =>
    if c.shared.inMap ∧ 0 ≤ c.shared.socketFd ∧ ∀ k ∈ c.threads, k.inLoop = false then
      some c.shared
    else none
  | .entered .application => if c.shared.destroyed then none else some c.shared
  | .entered .server => if c.shared.inMap ∧ ¬ c.shared.destroyed then some c.shared else none
  | .entered .destructor =>
    if c.shared.destroyed ∨ ∃ k ∈ c.threads, k ≠ .ended then none
    else some { c.shared with destroyed := true }
  | _ => none

/-- A connection that was accepted. -/
def accepted (socketFd : Int) : Config Shared Position := { shared := { socketFd := socketFd } }

/-- A call of `Close` that has found the socket open and a handler that has read the end of the
stream are bound to report. -/
def closeReports : Promise Shared Position Received where
  begun := Shared.begun
  done := Shared.reported
  owed
    | .telling | .checked _ | .released _ => 1
    | _ => 0
  begins
    | _, .receiving, received => received = .endOfStream
    | s, .entered _, _ => 0 ≤ s.socketFd
    | _, _, _ => false

theorem closeReports_starts {c : Config Shared Position} {k : Position} {s : Shared}
    (h : starts c k = some s) :
    closeReports.owed k = 0 ∧ s.begun = c.shared.begun ∧ s.reported = c.shared.reported := by
  unfold starts at h
  split at h <;> simp only [ite_none_left_eq_some, ite_none_right_eq_some,
    some.injEq, reduceCtorEq] at h
  all_goals
    obtain ⟨-, rfl⟩ := h
    exact ⟨rfl, rfl, rfl⟩

theorem closeReports_next {s t : Shared} {k k' : Position} {received : Received}
    (h : next s k received = some (t, k')) :
    t.begun = s.begun + (closeReports.begins s k received).toNat ∧
      t.reported + closeReports.owed k' =
        s.reported + closeReports.owed k + (closeReports.begins s k received).toNat := by
  cases k with
  | receiving =>
    cases received <;> cases h <;> exact ⟨rfl, rfl⟩
  | telling =>
    cases h
    exact ⟨rfl, rfl⟩
  | entered closer =>
    rw [next] at h
    split at h
    next hclosed =>
      cases h
      have hbegins : closeReports.begins s (.entered closer) received = false :=
        decide_eq_false (by omega)
      rw [hbegins]
      exact ⟨rfl, rfl⟩
    next hopen =>
      cases h
      have hbegins : closeReports.begins s (.entered closer) received = true :=
        decide_eq_true (by omega)
      rw [hbegins]
      exact ⟨rfl, rfl⟩
  | checked closer =>
    cases h
    exact ⟨rfl, rfl⟩
  | released closer =>
    cases h
    exact ⟨rfl, rfl⟩
  | returned closer =>
    rw [next] at h
    split at h <;> cases h <;> exact ⟨rfl, rfl⟩
  | ended => exact nomatch h

theorem closeReports_respects : closeReports.Respects starts next where
  start := closeReports_starts
  begun h := (closeReports_next h).1
  owed h := (closeReports_next h).2

end LocalSocketConnection

/-- The `onClose` listener of a connection is called at most once if, for TCP, at most one call of
`Close` has the permission, and if, for a local socket, at most one call of `Close` finds the socket
open and the handler has not read the end of the stream; when all calls have returned, only then. -/
theorem onClose_atMostOnce_iff (socketFd : Int) :
    (∀ moves : List (Move TCPSocketConnection.Position Bool),
      TCPSocketConnection.closeReports.AtMostOnceIff TCPSocketConnection.starts
        TCPSocketConnection.next moves (TCPSocketConnection.accepted socketFd)) ∧
    ∀ moves : List (Move LocalSocketConnection.Position LocalSocketConnection.Received),
      LocalSocketConnection.closeReports.AtMostOnceIff LocalSocketConnection.starts
        LocalSocketConnection.next moves (LocalSocketConnection.accepted socketFd) := by
  constructor
  · intro moves
    exact TCPSocketConnection.closeReports_respects.atMostOnceIff moves rfl rfl
  · intro moves
    exact LocalSocketConnection.closeReports_respects.atMostOnceIff moves rfl rfl

/-- A client of either kind closes its connection, and nobody else does anything: the handler alone
calls the listener twice. -/
theorem peerClose_reported_twice :
    (∃ c, (.start (.entered .handler) :: List.replicate 9 (.advance 0 true)).foldlM
        (step TCPSocketConnection.starts TCPSocketConnection.next)
        (TCPSocketConnection.accepted 5) = some c ∧
      c.threads = [.ended] ∧ c.shared.inMap = false ∧ c.shared.reported = 2) ∧
    ∃ c, (.start .receiving :: List.replicate 6 (.advance 0 .endOfStream)).foldlM
        (step LocalSocketConnection.starts LocalSocketConnection.next)
        (LocalSocketConnection.accepted 5) = some c ∧
      c.threads = [.ended] ∧ c.shared.inMap = false ∧ c.shared.reported = 2 := by
  refine ⟨⟨_, rfl, ?_⟩, _, rfl, ?_⟩ <;> decide

end Netstack.Socket
