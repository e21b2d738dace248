import Mathlib.Data.List.TakeWhile
import Netstack.Foundation.Execution

/-!
# The connect monitor

`ConnectMonitor` waits for sockets that are connecting. A socket is registered with epoll and in
`pendings_` with its deadline; one thread takes the registration out and calls its `onComplete`.
All of this goes by the number of the descriptor, which may stand for another socket by then.

## Implementation notes

A step is what is done under the lock or by one system call. An event of epoll carries the
registration that was added. `deadlines_` and `deadlineIters_` are one list.
-/

namespace Netstack.Socket

open Function Foundation.Execution List Option

def einprogress : Nat := 115

def ebadf : Nat := 9

def maxEvents : Nat := 64

structure Registration where
  fd : Nat := 0
  socket : Nat := 0
  deadline : Nat := 0

/-- What has become of a registration. -/
inductive Place where
  | fresh
  | registering
  | pending
  | unregistered
  | replaced
  | completing
  | completed
  deriving DecidableEq, Repr

/-- An event of epoll. -/
structure Ready where
  fd : Nat
  id : Nat
  socket : Nat

/-- Why the thread completes what is pending under a number: an event, with the socket for which
`getsockopt` gave the error, or a deadline. -/
structure Cause where
  event : Option Ready := none
  asked : Option Nat := none
  err : Nat := 0

def Cause.errCode (cause : Cause) : Nat :=
  match cause.event with
  | none => einprogress
  | some _ => if cause.err = 0 then 0 else einprogress

/-- A call of `onComplete`. -/
structure Completion where
  id : Nat
  registration : Registration
  cause : Cause
  time : Nat

/-- The registration was completed for its own reason. -/
def Completion.Own (c : Completion) : Prop :=
  (c.cause.errCode = 0 → c.cause.event.map (·.socket) = some c.registration.socket ∧
    c.cause.asked = some c.registration.socket ∧ c.cause.err = 0) ∧
  (c.cause.errCode = einprogress → c.registration.deadline ≤ c.time ∨
    (c.cause.asked = some c.registration.socket ∧ c.cause.err ≠ 0))

variable {c : Completion}

theorem Completion.own_of_ready (event : Ready) (err : Nat)
    (hcause : c.cause = { event := some event, asked := some c.registration.socket, err := err })
    (hsocket : event.socket = c.registration.socket) : c.Own := by
  simp only [Own, hcause, Cause.errCode, map_some, hsocket, true_and]
  by_cases herr : err = 0 <;> simp [herr, einprogress]

theorem Completion.own_of_timeout (hcause : c.cause = {})
    (hdeadline : c.registration.deadline ≤ c.time) : c.Own := by
  refine ⟨fun hcode => ?_, fun _ => .inl hdeadline⟩
  rw [hcause] at hcode
  exact nomatch hcode

/-- Where the thread is. -/
inductive Stage where
  | waiting
  | handling
  | asked (event : Ready) (socket : Option Nat) (err : Nat)
  | expiring
  | deleting (fd : Nat) (completion : Completion)
  | telling (completion : Completion)

namespace Stage

def completion : Stage → Option Completion
  | .deleting _ c | .telling c => some c
  | _ => none

def event : Stage → List Ready
  | .asked event _ _ => [event]
  | _ => []

/-- No events are left to be handled. -/
def late : Stage → Bool
  | .waiting | .expiring => true
  | .deleting _ c | .telling c => c.cause.event.isNone
  | _ => false

end Stage

/-- The loop that a completion is part of. -/
def Cause.back (cause : Cause) : Stage :=
  if cause.event.isNone then .expiring else .handling

structure ConnectMonitor where
  now : Nat := 0
  /-- The socket behind each open descriptor. -/
  sockets : Nat → Option Nat := fun _ => none
  socketCounter : Nat := 0
  registrations : Nat → Registration := fun _ => {}
  registrationCounter : Nat := 0
  place : Nat → Place := fun _ => .fresh
  /-- What epoll watches, and whether it still reports it. -/
  interest : Nat → Option (Nat × Bool) := fun _ => none
  pendings : Nat → Option Nat := fun _ => none
  deadlines : List (Nat × Nat) := []
  /-- The numbers that calls of `Unregister` have still to take from epoll. -/
  unregistering : List Nat := []
  stage : Stage := .waiting
  ready : List Ready := []
  timedOut : List Nat := []
  completions : List Completion := []
  /-- The registrations of the events that were handled. -/
  consumed : List Nat := []

variable {fd id : Nat} {t : ConnectMonitor} {event : Ready}

namespace ConnectMonitor

inductive Event where
  | pass (time : Nat)
  | openSocket (fd : Nat)
  | closeSocket (fd : Nat)
  /-- `Register` adds the descriptor to epoll. -/
  | add (fd deadline : Nat)
  /-- `Register` has the lock. -/
  | store (id : Nat)
  /-- `Unregister` has the lock. -/
  | take (fd : Nat)
  /-- `Unregister` takes the descriptor from epoll. -/
  | delete (fd : Nat)
  | epollWait (fds : List Nat)
  /-- `HandleReady` calls `getsockopt`. -/
  | ask (err : Nat)
  /-- The thread does what comes next. -/
  | advance

def eraseDeadline (fd : Nat) (deadlines : List (Nat × Nat)) : List (Nat × Nat) :=
  deadlines.filter (·.2 ≠ fd)

/-- Entries with the same deadline stay in the order in which they came. -/
def emplaceDeadline (deadline fd : Nat) (deadlines : List (Nat × Nat)) : List (Nat × Nat) :=
  deadlines.takeWhile (·.1 ≤ deadline) ++ (deadline, fd) ::
    deadlines.dropWhile (·.1 ≤ deadline)

variable (s : ConnectMonitor)

/-- The number is taken out of `pendings_` and of the deadlines. -/
def withdraw (fd : Nat) (place : Place) : ConnectMonitor :=
  match s.pendings fd with
  | none => { s with deadlines := eraseDeadline fd s.deadlines }
  | some id =>
    { s with
      deadlines := eraseDeadline fd s.deadlines
      pendings := update s.pendings fd none
      place := update s.place id place }

def insert (id : Nat) : ConnectMonitor :=
  let r := s.registrations id
  { s with
    deadlines := emplaceDeadline r.deadline r.fd s.deadlines
    pendings := update s.pendings r.fd (some id)
    place := update s.place id .pending }

/-- What was pending under the number is replaced. -/
def storeRegistration (id : Nat) : ConnectMonitor :=
  (s.withdraw (s.registrations id).fd .replaced).insert id

def takeRegistration (fd : Nat) : ConnectMonitor :=
  match s.pendings fd with
  | none => s
  | some _ => { s.withdraw fd .unregistered with unregistering := fd :: s.unregistering }

def epollWait (fds : List Nat) : ConnectMonitor :=
  { s with
    ready := fds.filterMap fun fd => (s.interest fd).map fun p =>
      { fd := fd, id := p.1, socket := (s.registrations p.1).socket }
    interest := fun fd => if fd ∈ fds then (s.interest fd).map fun p => (p.1, false)
      else s.interest fd
    stage := .handling }

/-- `CompleteConnect` up to the end of the lock. -/
def completeConnect (fd : Nat) (cause : Cause) : ConnectMonitor :=
  match s.pendings fd with
  | none =>
    { s.withdraw fd .completing with
      consumed := s.consumed ++ (cause.event.map (·.id)).toList
      stage := cause.back }
  | some id =>
    { s.withdraw fd .completing with
      stage := .deleting fd
        { id := id, registration := s.registrations id, cause := cause, time := s.now } }

/-- `CheckTimeouts` up to the end of the lock. -/
def checkTimeouts : ConnectMonitor :=
  { s with
    deadlines := s.deadlines.dropWhile (·.1 ≤ s.now)
    timedOut := ((s.deadlines.takeWhile (·.1 ≤ s.now)).map (·.2)).filter
      fun fd => (s.pendings fd).isSome
    stage := .expiring }

def tell (c : Completion) : ConnectMonitor :=
  { s with
    completions := s.completions ++ [c]
    place := update s.place c.id .completed
    consumed := s.consumed ++ (c.cause.event.map (·.id)).toList
    stage := c.cause.back }

def advance : Stage → Option ConnectMonitor
  | .waiting => none
  | .handling => if s.ready.isEmpty then some s.checkTimeouts else none
  | .asked event socket err =>
    some (s.completeConnect event.fd { event := some event, asked := socket, err := err })
  | .expiring =>
    match s.timedOut with
    | [] => some { s with stage := .waiting }
    | fd :: timedOut => some ({ s with timedOut := timedOut }.completeConnect fd {})
  | .deleting fd c =>
    some { s with interest := update s.interest fd none, stage := .telling c }
  | .telling c => some (s.tell c)

def step : Event → Option ConnectMonitor
  | .pass time => some { s with now := s.now + time }
  | .openSocket fd =>
    if s.sockets fd = none then
      some { s with
        sockets := update s.sockets fd (some s.socketCounter)
        socketCounter := s.socketCounter + 1 }
    else none
  | .closeSocket fd =>
    some { s with
      sockets := update s.sockets fd none
      interest := update s.interest fd none }
  | .add fd deadline =>
    match s.sockets fd, s.interest fd with
    | some socket, none =>
      some { s with
        registrations := update s.registrations s.registrationCounter
          { fd := fd, socket := socket, deadline := deadline }
        place := update s.place s.registrationCounter .registering
        interest := update s.interest fd (some (s.registrationCounter, true))
        registrationCounter := s.registrationCounter + 1 }
    | _, _ => some s
  | .store id => if s.place id = .registering then some (s.storeRegistration id) else none
  | .take fd => some (s.takeRegistration fd)
  | .delete fd =>
    if fd ∈ s.unregistering then
      some { s with
        interest := update s.interest fd none
        unregistering := s.unregistering.erase fd }
    else none
  | .epollWait fds =>
    match s.stage with
    | .waiting =>
      if fds.length ≤ maxEvents ∧ fds.Nodup ∧
          ∀ fd ∈ fds, (s.interest fd).any (·.2) = true then
        some (s.epollWait fds)
      else none
    | _ => none
  | .ask err =>
    match s.stage, s.ready with
    | .handling, event :: ready =>
      some { s with
        ready := ready
        stage := .asked event (s.sockets event.fd)
          (if s.sockets event.fd = none then ebadf else err) }
    | _, _ => none
  | .advance => s.advance s.stage

/-- Every registration is completed at most once and for its own reason, and the registration of an
event that was handled was completed, unless it was unregistered. -/
structure Faithful (s : ConnectMonitor) : Prop where
  once : (s.completions.map (·.id)).Nodup
  own : ∀ c ∈ s.completions, c.Own
  heard : ∀ id ∈ s.consumed, s.place id = .unregistered ∨ s.place id = .completed

/-- The events that the thread has still to handle. -/
def events : List Ready := s.stage.event ++ s.ready

/-- What keeps the thread from mistaking one registration for another: an event is fetched when its
registration is pending, a registration is stored when the thread is not working on its number, and
a descriptor that is pending is closed when no event of its number is to be handled. -/
def Unmistaken : Event → Prop
  | .epollWait fds => ∀ fd ∈ fds, ∀ p ∈ s.interest fd, s.pendings fd = some p.1
  | .store id => (s.registrations id).fd ∉ s.events.map (·.fd) ++ s.timedOut
  | .closeSocket fd => s.pendings fd = none ∨ fd ∉ s.events.map (·.fd)
  | _ => True

instance (s : ConnectMonitor) (event : Event) : Decidable (s.Unmistaken event) := by
  cases event <;> dsimp only [Unmistaken] <;> infer_instance

/-- What is known of an event that is to be handled: its registration is pending and its socket is
still behind the number, or nothing is pending there and the registration is settled. -/
def Current (event : Ready) : Prop :=
  (s.pendings event.fd = some event.id ∧ s.sockets event.fd = some event.socket ∧
    event.socket = (s.registrations event.id).socket) ∨
  (s.pendings event.fd = none ∧
    (s.place event.id = .unregistered ∨ s.place event.id = .completed))

/-- What holds as long as the thread has mistaken nothing. -/
structure Kept (s : ConnectMonitor) : Prop where
  fresh : ∀ id, s.registrationCounter ≤ id → s.place id = .fresh
  interest : ∀ {fd p}, s.interest fd = some p →
    s.sockets fd = some (s.registrations p.1).socket ∧ s.place p.1 ≠ .fresh
  pending : ∀ {fd id}, s.pendings fd = some id →
    (s.registrations id).fd = fd ∧ s.place id = .pending
  deadline : ∀ {deadline fd}, (deadline, fd) ∈ s.deadlines →
    ∃ id, s.pendings fd = some id ∧ (s.registrations id).deadline = deadline
  current : ∀ event ∈ s.events, s.Current event
  distinct : (s.events.map (·.fd)).Nodup
  asked : ∀ {event socket err}, s.stage = .asked event socket err →
    s.pendings event.fd = some event.id → socket = some event.socket
  late : s.stage.late = true → s.ready = []
  timedOut : ∀ fd ∈ s.timedOut, ∀ id, s.pendings fd = some id →
    (s.registrations id).deadline ≤ s.now
  completing : ∀ c, s.stage.completion = some c →
    s.place c.id = .completing ∧ c.Own ∧ ∀ event ∈ c.cause.event, event.id = c.id
  completed : ∀ c ∈ s.completions, s.place c.id = .completed
  once : (s.completions.map (·.id)).Nodup
  own : ∀ c ∈ s.completions, c.Own
  heard : ∀ id ∈ s.consumed, s.place id = .unregistered ∨ s.place id = .completed

theorem kept_start : Kept {} where
  fresh _ _ := rfl
  interest := nofun
  pending := nofun
  deadline := nofun
  current := nofun
  distinct := nodup_nil
  asked := nofun
  late _ := rfl
  timedOut := nofun
  completing := nofun
  completed := nofun
  once := nodup_nil
  own := nofun
  heard := nofun

theorem Kept.faithful {s : ConnectMonitor} (h : Kept s) : Faithful s :=
  ⟨h.once, h.own, h.heard⟩

section Deadlines

variable {entry : Nat × Nat} {deadlines : List (Nat × Nat)}

@[grind =] theorem mem_eraseDeadline :
    entry ∈ eraseDeadline fd deadlines ↔ entry ∈ deadlines ∧ entry.2 ≠ fd := by
  simp [eraseDeadline]

@[grind =] theorem mem_emplaceDeadline {deadline : Nat} :
    entry ∈ emplaceDeadline deadline fd deadlines ↔
      entry = (deadline, fd) ∨ entry ∈ deadlines := by
  have hparts := takeWhile_append_dropWhile (p := fun e : Nat × Nat => e.1 ≤ deadline)
    (l := deadlines)
  rw [emplaceDeadline, mem_append, mem_cons]
  conv_rhs => rw [← hparts, mem_append]
  tauto

end Deadlines

section Step

variable {s}

theorem withdraw_of_none (hp : s.pendings fd = none) (place : Place) :
    s.withdraw fd place = { s with deadlines := eraseDeadline fd s.deadlines } := by
  rw [withdraw, hp]

theorem withdraw_of_some (hp : s.pendings fd = some id) (place : Place) : s.withdraw fd place =
      { s with
        deadlines := eraseDeadline fd s.deadlines
        pendings := update s.pendings fd none
        place := update s.place id place } := by
  rw [withdraw, hp]

section

variable (h : Kept s)
include h

theorem Kept.pass (time : Nat) : Kept { s with now := s.now + time } :=
  { h with
    timedOut := fun fd hfd id hid => (h.timedOut fd hfd id hid).trans (Nat.le_add_right _ _) }

theorem Kept.openSocket (hfree : s.sockets fd = none) (socket : Nat) (socketCounter : Nat) :
    Kept { s with
      sockets := update s.sockets fd (some socket)
      socketCounter := socketCounter } := by
  refine { h with interest := ?_, current := ?_ }
  · intro fd' p hp
    grind [@h.interest]
  · intro event hevent
    have hcurrent := h.current event hevent
    grind [Current]

theorem Kept.forgetInterest (fd : Nat) : Kept { s with interest := update s.interest fd none } := by
  have hinterest := @h.interest
  exact { h with interest := by grind }

theorem Kept.closeSocket (hcond : s.Unmistaken (.closeSocket fd)) : Kept { s with
      sockets := update s.sockets fd none
      interest := update s.interest fd none } := by
  refine { h with interest := ?_, current := ?_ }
  · have hinterest := @h.interest
    grind
  · intro event hevent
    have hcurrent := h.current event hevent
    have hfd : event.fd ∈ s.events.map (·.fd) := mem_map_of_mem hevent
    grind [Current, Unmistaken]

/-- The number of a new registration is none of those that are known. -/
theorem Kept.add {socket : Nat} (hsocket : s.sockets fd = some socket) (deadline : Nat) :
    Kept { s with
      registrations := update s.registrations s.registrationCounter
        { fd := fd, socket := socket, deadline := deadline }
      place := update s.place s.registrationCounter .registering
      interest := update s.interest fd (some (s.registrationCounter, true))
      registrationCounter := s.registrationCounter + 1 } := by
  have hcounter := h.fresh s.registrationCounter le_rfl
  have hpending := @h.pending
  refine { h with fresh := ?_, interest := ?_, pending := ?_, deadline := ?_, current := ?_,
                  timedOut := ?_, completing := ?_, completed := ?_, heard := ?_ }
  · have hfresh := h.fresh
    grind
  · have hinterest := @h.interest
    grind
  · grind
  · have hdeadline := @h.deadline
    grind
  · intro event hevent
    have hcurrent := h.current event hevent
    grind [Current]
  · have htimedOut := h.timedOut
    grind
  · have hcompleting := h.completing
    grind
  · have hcompleted := h.completed
    grind
  · have hheard := h.heard
    grind

/-- What is pending under a number is taken out. If the thread still has an event of the number, it
must be known to be unregistered. -/
theorem Kept.withdraw (fd : Nat) (place : Place) (hfresh : place ≠ .fresh)
    (hevents : ∀ event ∈ s.events, event.fd = fd → place = .unregistered) :
    Kept (s.withdraw fd place) := by
  have hdeadline := @h.deadline
  cases hp : s.pendings fd with
  | none =>
    rw [withdraw_of_none hp]
    exact { h with deadline := by grind }
  | some id =>
    rw [withdraw_of_some hp]
    have hpending := @h.pending
    refine { h with fresh := ?_, interest := ?_, pending := ?_, deadline := ?_, current := ?_,
                    asked := ?_, timedOut := ?_, completing := ?_, completed := ?_, heard := ?_ }
    · have hnew := h.fresh
      grind
    · have hinterest := @h.interest
      grind
    · grind
    · grind
    · intro event hevent
      have hcurrent := h.current event hevent
      have hunregistered := hevents event hevent
      grind [Current]
    · have hasked := @h.asked
      grind
    · have htimedOut := h.timedOut
      grind
    · have hcompleting := h.completing
      grind
    · have hcompleted := h.completed
      grind
    · have hheard := h.heard
      grind

/-- A registration gets a number under which nothing is pending and that the thread is not working
on. -/
theorem Kept.insert (hid : s.place id = .registering)
    (hnone : s.pendings (s.registrations id).fd = none)
    (hevents : ∀ event ∈ s.events, event.fd ≠ (s.registrations id).fd)
    (htimedOut : (s.registrations id).fd ∉ s.timedOut) : Kept (s.insert id) := by
  have hpending := @h.pending
  simp only [ConnectMonitor.insert]
  refine { h with fresh := ?_, interest := ?_, pending := ?_, deadline := ?_, current := ?_,
                  asked := ?_, timedOut := ?_, completing := ?_, completed := ?_, heard := ?_ }
  · have hnew := h.fresh
    grind
  · have hinterest := @h.interest
    grind
  · grind
  · have hdeadline := @h.deadline
    grind
  · intro event hevent
    have hcurrent := h.current event hevent
    have hne := hevents event hevent
    grind [Current]
  · grind [events, Stage.event, @h.asked]
  · have hold := h.timedOut
    grind
  · have hcompleting := h.completing
    grind
  · have hcompleted := h.completed
    grind
  · have hheard := h.heard
    grind

end

/-- What a withdrawal leaves as it is. -/
theorem withdraw_frame (s : ConnectMonitor) (fd : Nat) (place : Place) :
    (s.withdraw fd place).pendings fd = none ∧
      (s.withdraw fd place).registrations = s.registrations ∧
      (s.withdraw fd place).events = s.events ∧ (s.withdraw fd place).timedOut = s.timedOut := by
  cases hp : s.pendings fd with
  | none =>
    rw [withdraw_of_none hp]
    exact ⟨hp, rfl, rfl, rfl⟩
  | some id =>
    rw [withdraw_of_some hp]
    exact ⟨update_self _ _ _, rfl, rfl, rfl⟩

variable (h : Kept s)
include h

theorem Kept.store (hid : s.place id = .registering)
    (hcond : s.Unmistaken (.store id)) : Kept (s.storeRegistration id) := by
  obtain ⟨hevents, htimedOut⟩ := not_or.mp (mt mem_append.mpr hcond)
  have hfd : ∀ event ∈ s.events, event.fd ≠ (s.registrations id).fd := by
    grind
  have hwithdrawn := h.withdraw (s.registrations id).fd .replaced nofun
    fun event hevent heq => absurd heq (hfd event hevent)
  obtain ⟨hnone, hregs, hsame, htimed⟩ :=
    withdraw_frame s (s.registrations id).fd .replaced
  refine hwithdrawn.insert ?_ ?_ ?_ ?_
  · cases hp : s.pendings (s.registrations id).fd with
    | none =>
      rw [withdraw_of_none hp]
      exact hid
    | some old =>
      rw [withdraw_of_some hp]
      grind [@h.pending]
  · rw [hregs]
    exact hnone
  · rw [hregs, hsame]
    exact hfd
  · rw [hregs, htimed]
    exact htimedOut

theorem Kept.take (fd : Nat) : Kept (s.takeRegistration fd) := by
  rw [takeRegistration]
  split
  · exact h
  · have hwithdrawn := h.withdraw fd .unregistered nofun fun _ _ _ => rfl
    exact { hwithdrawn with }

/-- Events that were fetched are current as long as their registrations were pending. -/
theorem Kept.epollWait {fds : List Nat} (hnodup : fds.Nodup)
    (hcond : s.Unmistaken (.epollWait fds)) : Kept (s.epollWait fds) := by
  have hinterest := @h.interest
  refine { h with interest := ?_, current := ?_, distinct := ?_, asked := nofun, late := nofun,
                  completing := nofun }
  · intro fd p hp
    simp only [ConnectMonitor.epollWait] at hp
    split at hp
    · obtain ⟨q, hq, rfl⟩ := map_eq_some_iff.mp hp
      have hwatched := hinterest hq
      exact hwatched
    · exact hinterest hp
  · intro event hevent
    obtain ⟨fd, hfd, hmap⟩ := mem_filterMap.mp hevent
    obtain ⟨p, hp, rfl⟩ := map_eq_some_iff.mp hmap
    exact .inl ⟨hcond fd hfd p hp, (hinterest hp).1, rfl⟩
  · change (((s.epollWait fds).ready).map (·.fd)).Nodup
    refine hnodup.sublist ?_
    have hfds : ((s.epollWait fds).ready).map (·.fd) =
        fds.filter fun fd => (s.interest fd).isSome := by
      simp only [ConnectMonitor.epollWait, map_filterMap]
      rw [← filterMap_eq_filter]
      refine filterMap_congr fun fd _ => ?_
      cases hinterest : s.interest fd <;> simp [Option.guard, hinterest]
    rw [hfds]
    exact filter_sublist

theorem Kept.ask {ready : List Ready} (hstage : s.stage = .handling)
    (hready : s.ready = event :: ready) (err : Nat) :
    Kept { s with
      ready := ready
      stage := .asked event (s.sockets event.fd) err } := by
  have hevents : s.events = event :: ready := by
    rw [events, hstage, hready]
    rfl
  refine { h with current := ?_, distinct := ?_, asked := ?_, late := nofun, completing := nofun }
  · intro event' hevent'
    exact h.current event' (hevents.symm ▸ hevent')
  · have hdistinct := h.distinct
    rw [hevents] at hdistinct
    exact hdistinct
  · intro event' socket err' hstage' hp
    obtain ⟨rfl, rfl, -⟩ := Stage.asked.inj hstage'
    rcases h.current event (hevents ▸ mem_cons_self) with ⟨-, hsocket, -⟩ | ⟨hnone, -⟩
    · exact hsocket
    · exact nomatch hnone.symm.trans hp

/-- The thread goes to a stage in which it has no event in hand. -/
theorem Kept.moveStage (stage : Stage) (hevent : stage.event = [])
    (hlate : stage.late = true → s.ready = [])
    (hcompleting : ∀ c, stage.completion = some c →
      s.place c.id = .completing ∧ c.Own ∧ ∀ event ∈ c.cause.event, event.id = c.id) :
    Kept { s with stage := stage } := by
  have hevents : { s with stage := stage }.events = s.ready := by
    rw [events, hevent]
    rfl
  refine { h with current := ?_, distinct := ?_, asked := ?_, late := hlate,
                  completing := hcompleting }
  · intro event hmem
    rw [hevents] at hmem
    exact h.current event (mem_append_right _ hmem)
  · rw [hevents]
    exact h.distinct.sublist ((sublist_append_right _ _).map _)
  · intro event socket err hstage
    have hasked : stage = .asked event socket err := hstage
    rw [hasked] at hevent
    exact nomatch hevent

/-- The event that was asked about is handled. -/
theorem Kept.completeReady {socket : Option Nat} {err : Nat}
    (hstage : s.stage = .asked event socket err) :
    Kept (s.completeConnect event.fd { event := some event, asked := socket, err := err }) := by
  have hevents : s.events = event :: s.ready := by
    rw [events, hstage]
    rfl
  have hcurrent := h.current event (hevents ▸ mem_cons_self)
  have hdistinct := h.distinct
  rw [hevents, map_cons, nodup_cons] at hdistinct
  have hdropped : Kept { s with stage := .handling } :=
    h.moveStage .handling rfl nofun nofun
  have hwithdrawn := hdropped.withdraw event.fd .completing nofun fun event' hevent' heq =>
    absurd (heq ▸ mem_map_of_mem hevent') hdistinct.1
  rcases hcurrent with ⟨hp, -, hsocket⟩ | ⟨hp, hdone⟩
  · rw [completeConnect, hp]
    have hasked := h.asked hstage hp
    rw [withdraw_of_some (s := { s with stage := .handling }) hp] at hwithdrawn
    rw [withdraw_of_some hp]
    refine hwithdrawn.moveStage (.deleting event.fd _) rfl nofun ?_
    rintro c ⟨⟩
    refine ⟨update_self _ _ _, ?_, ?_⟩
    · exact Completion.own_of_ready event err (by rw [hasked, hsocket]) hsocket
    · rintro event' ⟨⟩
      rfl
  · rw [completeConnect, hp]
    rw [withdraw_of_none (s := { s with stage := .handling }) hp] at hwithdrawn
    rw [withdraw_of_none hp]
    refine { hwithdrawn with heard := ?_ }
    grind [@h.heard]

/-- A number whose deadline has passed is completed. -/
theorem Kept.completeTimedOut {timedOut : List Nat}
    (hstage : s.stage = .expiring) (htimedOut : s.timedOut = fd :: timedOut) :
    Kept ({ s with timedOut := timedOut }.completeConnect fd {}) := by
  have hready : s.ready = [] := h.late (by rw [hstage]; rfl)
  have hevents : s.events = [] := by
    rw [events, hstage, hready]
    rfl
  have hrest : Kept { s with timedOut := timedOut } := by
    refine { h with timedOut := fun fd' hmem => h.timedOut fd' ?_ }
    rw [htimedOut]
    exact mem_cons_of_mem _ hmem
  have hwithdrawn := hrest.withdraw fd .completing nofun fun event hevent _ => by
    have hevent' : event ∈ s.events := hevent
    rw [hevents] at hevent'
    exact nomatch hevent'
  cases hp : s.pendings fd with
  | none =>
    have hp' : { s with timedOut := timedOut }.pendings fd = none := hp
    rw [completeConnect, hp']
    rw [withdraw_of_none hp'] at hwithdrawn ⊢
    have hback := hwithdrawn.moveStage .expiring rfl (fun _ => hready) nofun
    exact { hback with heard := fun id hmem => h.heard id (by simpa using hmem) }
  | some id =>
    have hp' : { s with timedOut := timedOut }.pendings fd = some id := hp
    have hdeadline := h.timedOut fd (by rw [htimedOut]; exact mem_cons_self) id hp
    rw [completeConnect, hp']
    rw [withdraw_of_some hp'] at hwithdrawn ⊢
    refine hwithdrawn.moveStage (.deleting fd _) rfl (fun _ => hready) ?_
    rintro c ⟨⟩
    exact ⟨update_self _ _ _, Completion.own_of_timeout rfl hdeadline, nofun⟩

theorem Kept.checkTimeouts (hready : s.ready = []) : Kept s.checkTimeouts := by
  have hmoved := h.moveStage .expiring rfl (fun _ => hready) nofun
  refine { hmoved with deadline := ?_, timedOut := ?_ }
  · intro deadline fd hentry
    exact h.deadline ((dropWhile_sublist _).subset hentry)
  · intro fd hfd id hp
    obtain ⟨⟨deadline, fd⟩, hentry, rfl⟩ := mem_map.mp (mem_of_mem_filter hfd)
    have hdue := mem_takeWhile_imp hentry
    obtain ⟨id', hp', hid'⟩ := h.deadline ((takeWhile_sublist _).subset hentry)
    obtain rfl : id' = id := Option.some.inj (hp'.symm.trans hp)
    exact hid'.trans_le (of_decide_eq_true hdue)

theorem Kept.tell (hstage : s.stage = .telling c) : Kept (s.tell c) := by
  obtain ⟨hcompleting, hown, hevent⟩ := h.completing c (by rw [hstage]; rfl)
  have hmoved : Kept { s with stage := c.cause.back } := by
    refine h.moveStage c.cause.back ?_ ?_ ?_
    · grind [Cause.back, Stage.event]
    · have hlate := h.late
      grind [Cause.back, Stage.late]
    · grind [Cause.back, Stage.completion]
  simp only [ConnectMonitor.tell]
  refine { hmoved with fresh := ?_, interest := ?_, pending := ?_, current := ?_, completing := ?_,
                       completed := ?_, once := ?_, own := ?_, heard := ?_ }
  · have hnew := h.fresh
    grind
  · have hinterest := @h.interest
    grind
  · have hpending := @h.pending
    grind
  · intro event hmem
    have hcurrent := hmoved.current event hmem
    grind [Current]
  · grind [Cause.back, Stage.completion]
  · have hcompleted := h.completed
    grind
  · have hcompleted := h.completed
    have honce := h.once
    grind
  · have hold := h.own
    grind
  · intro id hid
    have hheard := h.heard id
    rcases mem_append.mp hid with hid | hid
    · grind
    · obtain ⟨event, hmem, rfl⟩ := map_eq_some_iff.mp (mem_toList.mp hid)
      rw [hevent event hmem]
      exact .inr (update_self _ _ _)

theorem Kept.advance (hstep : s.advance s.stage = some t) : Kept t := by
  cases hstage : s.stage with
  | waiting =>
    rw [hstage] at hstep
    exact nomatch hstep
  | handling =>
    rw [hstage] at hstep
    obtain ⟨hready, hcheck⟩ := ite_none_right_eq_some.mp hstep
    grind [@h.checkTimeouts]
  | asked event socket err =>
    rw [hstage] at hstep
    cases hstep
    exact h.completeReady hstage
  | expiring =>
    rw [hstage, ConnectMonitor.advance] at hstep
    split at hstep
    · cases hstep
      exact h.moveStage .waiting rfl (fun _ => h.late (by rw [hstage]; rfl)) nofun
    grind [@h.completeTimedOut]
  | deleting fd c =>
    rw [hstage] at hstep
    cases hstep
    refine (h.forgetInterest fd).moveStage (.telling c) rfl ?_ ?_
    · intro hlate
      exact h.late (by rw [hstage]; exact hlate)
    · rintro c' ⟨⟩
      exact h.completing c (by rw [hstage]; rfl)
  | telling c =>
    rw [hstage] at hstep
    cases hstep
    exact h.tell hstage

theorem Kept.step {event : Event} (hcond : s.Unmistaken event)
    (hstep : s.step event = some t) : Kept t := by
  cases event with
  | pass time =>
    cases hstep
    exact h.pass time
  | openSocket fd =>
    obtain ⟨hfree, hopen⟩ := ite_none_right_eq_some.mp hstep
    grind [@h.openSocket]
  | closeSocket fd =>
    cases hstep
    exact h.closeSocket hcond
  | add fd deadline =>
    rw [ConnectMonitor.step] at hstep
    grind [@h.add]
  | store id =>
    obtain ⟨hid, hstore⟩ := ite_none_right_eq_some.mp hstep
    grind [@h.store]
  | take fd =>
    cases hstep
    exact h.take fd
  | delete fd =>
    obtain ⟨-, hdelete⟩ := ite_none_right_eq_some.mp hstep
    cases hdelete
    have hforgotten := h.forgetInterest fd
    exact { hforgotten with }
  | epollWait fds =>
    grind [ConnectMonitor.step, @h.epollWait]
  | ask err =>
    rw [ConnectMonitor.step] at hstep
    grind [@h.ask]
  | advance => exact h.advance hstep

end Step

/-- As long as the thread can mistake nothing, every registration is completed at most once and for
its own reason, and no event of a registration is lost. -/
theorem faithful_of_unmistaken (events : List Event)
    (hunmistaken : Meets step Unmistaken events {}) : Throughout step Faithful events {} :=
  throughout_of_meets (fun _ _ _ h hcond hstep => h.step hcond hstep) (fun _ h => h.faithful) events
    kept_start hunmistaken

/-- One socket is connected, and the deadline of the next one under the same number passes. -/
def connectedThenTimedOut : List Event :=
  [.openSocket 7, .add 7 10, .store 0, .epollWait [7], .ask 0, .advance, .advance, .advance,
    .advance, .advance, .closeSocket 7, .openSocket 7, .add 7 20, .store 1, .pass 20,
    .epollWait [], .advance, .advance, .advance, .advance]

theorem connectedThenTimedOut_faithful :
    (connectedThenTimedOut.foldlM step {}).any
        (fun s => s.completions.map (fun c => (c.id, c.cause.errCode)) =
          [(0, 0), (1, einprogress)]) = true ∧
      Throughout step Faithful connectedThenTimedOut {} :=
  ⟨by decide, faithful_of_unmistaken connectedThenTimedOut (by decide)⟩

/-- A deadline is passed on to the socket that has the number next, so is an event, and an event
that comes before the registration is stored is lost. -/
theorem number_mistaken :
    (∃ s, [Event.openSocket 7, .add 7 5, .store 0, .pass 5, .epollWait [], .advance, .take 7,
        .delete 7, .closeSocket 7, .openSocket 7, .add 7 100, .store 1, .advance, .advance,
        .advance].foldlM step {} = some s ∧
      s.completions.map (fun c => (c.id, c.cause.errCode, c.registration.deadline, c.time)) =
        [(1, einprogress, 100, 5)] ∧ ¬ Faithful s) ∧
    (∃ s, [Event.openSocket 7, .add 7 50, .store 0, .epollWait [7], .take 7, .delete 7,
        .closeSocket 7, .openSocket 7, .add 7 100, .store 1, .ask 0, .advance, .advance,
        .advance].foldlM step {} = some s ∧
      s.completions.map (fun c => (c.id, c.cause.errCode, c.registration.socket)) = [(1, 0, 1)] ∧
      s.completions.map (fun c => c.cause.event.map (·.socket)) = [some 0] ∧ ¬ Faithful s) ∧
    ∃ s, [Event.openSocket 7, .add 7 50, .epollWait [7], .ask 0, .advance, .store 0].foldlM step
        {} = some s ∧
      s.consumed = [0] ∧ s.place 0 = .pending ∧ ¬ Faithful s := by
  refine ⟨⟨_, rfl, by decide, ?_⟩, ⟨_, rfl, by decide, by decide, ?_⟩, _, rfl, rfl, rfl, ?_⟩
  · intro h
    rcases (h.own _ mem_cons_self).2 rfl with hdeadline | ⟨hasked, -⟩
    · exact absurd hdeadline (by decide)
    · exact nomatch hasked
  · intro h
    exact absurd ((h.own _ mem_cons_self).1 rfl).1 (by decide)
  · intro h
    rcases h.heard 0 mem_cons_self with hplace | hplace
    · exact nomatch hplace
    · exact nomatch hplace

end ConnectMonitor

end Netstack.Socket
