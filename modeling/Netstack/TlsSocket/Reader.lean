import Netstack.Foundation.Execution
import Netstack.Foundation.ByteStrings

/-!
# The reading thread of a TLS socket

`Connect` starts a thread that reads messages while `isRunning_` is set, and sets it itself as its
first statement. `Close` clears the flag and waits for the thread. If it is called before that
statement, it finds nothing to wait for, and the thread runs on after it.

## Implementation notes

A step is one access to the members that the threads share, or one call of the system.
-/

namespace Netstack.TlsSocket.Reader

open Function Foundation Foundation.Execution Option

/-- Where a reading thread is. -/
inductive Phase where
  | none
  /-- `std::thread` has been constructed; nothing has been executed. -/
  | created
  /-- `isRunning_` has been set. -/
  | marked
  /-- Before the test of the loop. -/
  | looping
  | polling (fd : Int)
  /-- Before `recvMutex_`. -/
  | ready
  | locked
  /-- In `Recv`. -/
  | receiving
  /-- In the callback of the application. -/
  | delivering
  | ending
  | over
  deriving DecidableEq, Repr

/-- Where the application is in `Close`. -/
inductive Closing where
  | idle
  | waiting
  | woken
  | locked
  deriving DecidableEq, Repr

inductive Holder where
  | close
  | reader (i : Nat)
  deriving DecidableEq, Repr

structure System where
  sockFd : Int := -1
  isRunning : Bool := false
  isRunOver : Bool := true
  recvMutex : Option Holder := none
  close : Closing := .idle
  /-- `Close` has returned, and `Connect` has not been called since. -/
  closed : Bool := false
  threads : Nat := 0
  readers : Nat → Phase := fun _ => .none
  /-- The messages that were delivered, and whether `Close` had returned before. -/
  messages : List (Bytes × Bool) := []

inductive Polled where
  | failed
  /-- A timeout, or an error that is tried again. -/
  | again
  | ready
  deriving DecidableEq, Repr

inductive Received where
  | failed
  | again
  | closed
  | message (data : Bytes)
  deriving DecidableEq, Repr

/-- The steps of a reading thread. -/
inductive Reading where
  | start
  | mark
  | test
  | poll (answer : Polled)
  | lock
  | check
  | recv (answer : Received)
  | delivered
  | finish
  deriving DecidableEq, Repr

inductive Action where
  | bind (fd : Int)
  | connect
  | close
  | wake
  | lock
  | finish
  | read (i : Nat) (event : Reading)
  deriving DecidableEq, Repr

namespace System

variable (s : System)

variable (i : Nat)

def setReader (phase : Phase) : System :=
  { s with readers := update s.readers i phase }

/-- `ReadMessage` returns, and the mutex is released. -/
def release (phase : Phase) : System :=
  { s.setReader i phase with recvMutex := none }

def received : Received → System
  | .failed => s.release i .ending
  | .again => s.release i .looping
  | .closed => s.release i .ending
  | .message data =>
    { s.setReader i .delivering with messages := s.messages ++ [(data, s.closed)] }

def read : Reading → Option System
  | .start =>
    if s.readers i = .created then some { s.setReader i .marked with isRunning := true } else none
  | .mark =>
    if s.readers i = .marked then some { s.setReader i .looping with isRunOver := false }
    else none
  | .test =>
    if s.readers i = .looping then
      some (s.setReader i (if s.isRunning then .polling s.sockFd else .ending))
    else none
  | .poll answer =>
    match s.readers i, answer with
    | .polling _, .failed => some (s.setReader i .ending)
    | .polling _, .again => some (s.setReader i .looping)
    | .polling fd, .ready => if 0 ≤ fd then some (s.setReader i .ready) else none
    | _, _ => none
  | .lock =>
    if s.readers i = .ready ∧ s.recvMutex = none then
      some { s.setReader i .locked with recvMutex := some (.reader i) }
    else none
  | .check =>
    if s.readers i = .locked then
      some (if s.isRunning then s.setReader i .receiving else s.release i .ending)
    else none
  | .recv answer => if s.readers i = .receiving then some (s.received i answer) else none
  | .delivered => if s.readers i = .delivering then some (s.release i .looping) else none
  | .finish =>
    if s.readers i = .ending then some { s.setReader i .over with isRunOver := true } else none

def step : Action → Option System
  | .bind fd =>
    if s.close = .idle then
      some (if 0 ≤ s.sockFd ∨ fd < 0 then s else { s with sockFd := fd })
    else none
  | .connect =>
    if s.close = .idle ∧ 0 ≤ s.sockFd then
      some { s.setReader s.threads .created with threads := s.threads + 1, closed := false }
    else none
  | .close =>
    if s.close = .idle then some { s with isRunning := false, close := .waiting } else none
  | .wake => if s.close = .waiting ∧ s.isRunOver then some { s with close := .woken } else none
  | .lock =>
    if s.close = .woken ∧ s.recvMutex = none then
      some { s with close := .locked, recvMutex := some .close }
    else none
  | .finish =>
    if s.close = .locked then
      some { s with sockFd := -1, close := .idle, closed := true, recvMutex := none }
    else none
  | .read i event => s.read i event

/-- While `Close` has returned, the flag stays cleared, and no message was delivered after it. -/
def Silent : Prop :=
  (s.closed = true → s.isRunning = false) ∧ ∀ m ∈ s.messages, m.2 = false

/-- A reading thread executes its first statement before `Close` is called. -/
def InTime : Action → Prop
  | .read _ .start => s.close = .idle ∧ s.closed = false
  | _ => True

instance (a : Action) : Decidable (s.InTime a) := by
  unfold InTime
  split <;> infer_instance

end System

/-- A thread in these phases has `recvMutex_`. -/
def Phase.Holding (phase : Phase) : Prop :=
  phase = .locked ∨ phase = .receiving ∨ phase = .delivering

instance (phase : Phase) : Decidable phase.Holding := inferInstanceAs (Decidable (_ ∨ _))

/-- From the call of `Close` on the flag stays cleared. Who is in a section of the mutex holds it,
so that no thread is receiving when `Close` returns. -/
structure Guarded (s : System) : Prop where
  stopped : s.close ≠ .idle ∨ s.closed = true → s.isRunning = false
  holding : ∀ i, (s.readers i).Holding → s.recvMutex = some (.reader i)
  closing : s.close = .locked → s.recvMutex = some .close
  quiet : s.closed = true → ∀ i, s.readers i ≠ .receiving
  onTime : ∀ m ∈ s.messages, m.2 = false

namespace Guarded

variable {s t : System} {i : Nat}

section

variable (h : Guarded s)
include h

theorem silent : s.Silent :=
  ⟨fun hclosed => h.stopped (Or.inr hclosed), h.onTime⟩

theorem setReader (i : Nat) (phase : Phase)
    (hholding : phase.Holding → s.recvMutex = some (.reader i))
    (hquiet : phase = .receiving → s.closed = false) : Guarded (s.setReader i phase) := by
  refine ⟨h.stopped, ?_, h.closing, ?_, h.onTime⟩
  · intro j hj
    by_cases hij : j = i
    · subst hij
      simp only [System.setReader, update_self] at hj
      exact hholding hj
    · simp only [System.setReader, update_of_ne hij] at hj
      exact h.holding j hj
  · intro hclosed j hj
    by_cases hij : j = i
    · subst hij
      simp only [System.setReader, update_self] at hj
      exact Bool.false_ne_true ((hquiet hj).symm.trans hclosed)
    · simp only [System.setReader, update_of_ne hij] at hj
      exact h.quiet hclosed j hj

/-- A thread outside the section moves to another place outside it. -/
theorem outside (i : Nat) (phase : Phase) (hphase : ¬ phase.Holding) :
    Guarded (s.setReader i phase) :=
  h.setReader i phase (fun hholding => (hphase hholding).elim)
    (fun hreceiving => (hphase (Or.inr (Or.inl hreceiving))).elim)

theorem release (hi : (s.readers i).Holding) {phase : Phase}
    (hphase : ¬ phase.Holding) : Guarded (s.release i phase) := by
  have hmutex := h.holding i hi
  have hmoved := h.outside i phase hphase
  refine ⟨h.stopped, ?_, ?_, hmoved.quiet, h.onTime⟩
  · intro j hj
    have hsame := (hmoved.holding j hj).symm.trans hmutex
    obtain rfl := Holder.reader.inj (Option.some.inj hsame)
    simp only [System.release, System.setReader, update_self] at hj
    exact (hphase hj).elim
  · intro hclose
    cases (h.closing hclose).symm.trans hmutex

theorem received (hi : s.readers i = .receiving) (answer : Received) :
    Guarded (s.received i answer) := by
  have hholding : (s.readers i).Holding := Or.inr (Or.inl hi)
  cases answer with
  | failed => exact h.release hholding (by decide)
  | again => exact h.release hholding (by decide)
  | closed => exact h.release hholding (by decide)
  | message data =>
    have hopen : s.closed = false := by
      grind [@h.quiet]
    have hmoved := h.setReader i .delivering (fun _ => h.holding i hholding)
      (fun hphase => by cases hphase)
    refine ⟨hmoved.stopped, hmoved.holding, hmoved.closing, hmoved.quiet, ?_⟩
    intro m hm
    rcases List.mem_append.mp hm with hm | hm
    · exact h.onTime m hm
    grind

theorem read {event : Reading} (hstep : s.read i event = some t)
    (htime : s.InTime (.read i event)) : Guarded t := by
  cases event with
  | start =>
    obtain ⟨-, hstep⟩ := ite_none_right_eq_some.mp hstep
    cases hstep
    have hmoved := h.outside i .marked (by decide)
    obtain ⟨hidle, hopen⟩ := htime
    refine ⟨?_, hmoved.holding, hmoved.closing, hmoved.quiet, hmoved.onTime⟩
    rintro (hclose | hclosed)
    · exact (hclose hidle).elim
    · exact (Bool.false_ne_true (hopen.symm.trans hclosed)).elim
  | mark =>
    obtain ⟨-, hstep⟩ := ite_none_right_eq_some.mp hstep
    cases hstep
    have hmoved := h.outside i .looping (by decide)
    exact ⟨hmoved.stopped, hmoved.holding, hmoved.closing, hmoved.quiet, hmoved.onTime⟩
  | test =>
    obtain ⟨-, hstep⟩ := ite_none_right_eq_some.mp hstep
    cases hstep
    apply h.outside
    split <;> simp [Phase.Holding]
  | poll answer =>
    simp only [System.read] at hstep
    split at hstep
    · cases hstep
      exact h.outside i .ending (by decide)
    · cases hstep
      exact h.outside i .looping (by decide)
    · obtain ⟨-, hstep⟩ := ite_none_right_eq_some.mp hstep
      cases hstep
      exact h.outside i .ready (by decide)
    · cases hstep
  | lock =>
    obtain ⟨⟨-, hfree⟩, hstep⟩ := ite_none_right_eq_some.mp hstep
    cases hstep
    refine ⟨h.stopped, ?_, ?_, ?_, h.onTime⟩
    · intro j hj
      by_cases hij : j = i
      · rw [hij]
      · simp only [System.setReader, update_of_ne hij] at hj
        cases hfree.symm.trans (h.holding j hj)
    · intro hclose
      cases hfree.symm.trans (h.closing hclose)
    · intro hclosed j hj
      by_cases hij : j = i
      · subst hij
        simp [System.setReader] at hj
      · simp only [System.setReader, update_of_ne hij] at hj
        exact h.quiet hclosed j hj
  | check =>
    obtain ⟨hi, hstep⟩ := ite_none_right_eq_some.mp hstep
    cases hstep
    split
    · refine h.setReader i _ (fun _ => h.holding i (Or.inl hi)) (fun _ => ?_)
      grind [@h.stopped]
    · exact h.release (Or.inl hi) (by decide)
  | recv answer =>
    obtain ⟨hi, hstep⟩ := ite_none_right_eq_some.mp hstep
    grind [@h.received]
  | delivered =>
    obtain ⟨hi, hstep⟩ := ite_none_right_eq_some.mp hstep
    cases hstep
    exact h.release (Or.inr (Or.inr hi)) (by decide)
  | finish =>
    obtain ⟨-, hstep⟩ := ite_none_right_eq_some.mp hstep
    cases hstep
    have hmoved := h.outside i .over (by decide)
    exact ⟨hmoved.stopped, hmoved.holding, hmoved.closing, hmoved.quiet, hmoved.onTime⟩

theorem step {a : Action} (hstep : s.step a = some t) (htime : s.InTime a) : Guarded t := by
  cases a with
  | bind fd =>
    obtain ⟨-, hstep⟩ := ite_none_right_eq_some.mp hstep
    cases hstep
    split
    · exact h
    · exact ⟨h.stopped, h.holding, h.closing, h.quiet, h.onTime⟩
  | connect =>
    obtain ⟨⟨hidle, -⟩, hstep⟩ := ite_none_right_eq_some.mp hstep
    cases hstep
    have hmoved := h.outside s.threads .created (by decide)
    refine ⟨?_, hmoved.holding, hmoved.closing, ?_, hmoved.onTime⟩
    · rintro (hclose | hclosed)
      · exact (hclose hidle).elim
      · cases hclosed
    · intro hclosed
      cases hclosed
  | close =>
    obtain ⟨-, hstep⟩ := ite_none_right_eq_some.mp hstep
    cases hstep
    exact ⟨fun _ => rfl, h.holding, nofun, h.quiet, h.onTime⟩
  | wake =>
    obtain ⟨⟨hwaiting, -⟩, hstep⟩ := ite_none_right_eq_some.mp hstep
    cases hstep
    refine ⟨fun _ => h.stopped (Or.inl ?_), h.holding, nofun, h.quiet, h.onTime⟩
    rw [hwaiting]
    decide
  | lock =>
    obtain ⟨⟨hwoken, hfree⟩, hstep⟩ := ite_none_right_eq_some.mp hstep
    cases hstep
    refine ⟨fun _ => h.stopped (Or.inl ?_), ?_, fun _ => rfl, h.quiet, h.onTime⟩
    · rw [hwoken]
      decide
    grind [@h.holding]
  | finish =>
    obtain ⟨hlocked, hstep⟩ := ite_none_right_eq_some.mp hstep
    cases hstep
    have hmutex := h.closing hlocked
    refine ⟨fun _ => h.stopped (Or.inl ?_), ?_, nofun, ?_, h.onTime⟩
    · rw [hlocked]
      decide
    · intro i hi
      cases hmutex.symm.trans (h.holding i hi)
    · intro _ i hi
      cases hmutex.symm.trans (h.holding i (Or.inr (Or.inl hi)))
  | read i event => exact h.read hstep htime

end

theorem start : Guarded {} where
  stopped := fun _ => rfl
  holding := fun _ hi => by simp [Phase.Holding] at hi
  closing := fun hlocked => by cases hlocked
  quiet := fun hclosed => by cases hclosed
  onTime := fun _ hm => by cases hm

end Guarded

namespace System

/-- If no thread executes its first statement between a call of `Close` and the next `Connect`, then
in every state of the run the flag is cleared while `Close` has returned, and no message is
delivered then. -/
theorem closed_silent (history : List Action) (hmeets : Meets step InTime history {}) :
    Throughout step Silent history {} :=
  throughout_of_meets (J := Guarded) (fun _ _ _ h htime hstep => h.step hstep htime)
    (fun _ h => h.silent) history Guarded.start hmeets

section Instances

/-- A socket is connected, reads a message and is closed. -/
def readAndClosed : List Action :=
  [.bind 3, .connect, .read 0 .start, .read 0 .mark, .read 0 .test, .read 0 (.poll .ready),
    .read 0 .lock, .read 0 .check, .read 0 (.recv (.message [104, 105])), .close,
    .read 0 .delivered, .read 0 .test, .read 0 .finish, .wake, .lock, .finish]

/-- The thread starts when `Close` has looked at `isRunOver_`, and receives when it has returned. -/
def startedLate : List Action :=
  [.bind 3, .connect, .close, .wake, .read 0 .start, .read 0 .mark, .read 0 .test,
    .read 0 (.poll .ready), .lock, .finish, .read 0 .lock, .read 0 .check,
    .read 0 (.recv (.message [104, 105]))]

end Instances

theorem readAndClosed_silent :
    (∃ s, readAndClosed.foldlM step {} = some s ∧ s.closed = true ∧
      s.messages = [([104, 105], false)]) ∧
    Throughout step Silent readAndClosed {} :=
  ⟨by decide +kernel, closed_silent readAndClosed (by decide +kernel)⟩

theorem startedLate_delivers :
    (∃ s, startedLate.foldlM step {} = some s ∧ s.closed = true ∧ s.isRunning = true ∧
      s.messages = [([104, 105], true)]) ∧
    ¬ Throughout step Silent startedLate {} := by
  refine (and_iff_left_of_imp ?_).mpr (by decide +kernel)
  rintro ⟨s, hs, hclosed, hrunning, -⟩ hthrough
  have hstopped := (hthrough.finish hs).1 hclosed
  exact Bool.false_ne_true (hstopped.symm.trans hrunning)

end System

end Netstack.TlsSocket.Reader
