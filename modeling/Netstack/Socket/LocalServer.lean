import Netstack.Foundation.DescriptorTables
import Netstack.Socket.ServerConnections

/-!
# The descriptors of a local server

The event loop of `LocalSocketServer` accepts clients and receives from them. The descriptor of a
client is closed when the client has closed its end, when `recv` fails, or by the application.

## Implementation notes

`none` stands for the `socketFd_` of -1. `refused` has how many connections were open when a client
was refused. A client id comes again after 2^32 clients; a connection that loses its entry to a new
one is destroyed, as the application does not keep it.
-/

namespace Netstack.Socket

open Function Foundation Foundation.Execution List

def maxClients : Nat := 1024

structure LocalSocketServer where
  connectionMap : List UInt32 := []
  clientCounter : UInt32 := 0
  /-- The `socketFd_` of each connection. -/
  socketFd : UInt32 → Option Nat := fun _ => none
  table : DescriptorTable := {}
  /-- The numbers that epoll watches. -/
  interest : Nat → Bool := fun _ => false
  /-- The events that are still to be handled. -/
  batch : List Nat := []
  refused : List Nat := []

namespace LocalSocketServer

open LocalSocketConnection

variable (s : LocalSocketServer)

/-- `close`; epoll does not watch a descriptor that is closed. -/
def closeFd (fd : Nat) : LocalSocketServer :=
  { s with table := s.table.close fd, interest := update s.interest fd false }

/-- `LocalSocketConnection::Close`. -/
def closeConnection (clientId : UInt32) : LocalSocketServer :=
  match s.socketFd clientId with
  | none => s
  | some fd => { s.closeFd fd with socketFd := update s.socketFd clientId none }

def removeConnection (clientId : UInt32) : LocalSocketServer :=
  { s with connectionMap := s.connectionMap.erase clientId }

/-- The connection is closed and loses its entry. -/
def discard (clientId : UInt32) : LocalSocketServer :=
  (s.closeConnection clientId).removeConnection clientId

/-- The destructor of a connection under the same id closes it. -/
def addConnection (clientId : UInt32) : LocalSocketServer :=
  let s := s.discard clientId
  { s with clientCounter := clientId, connectionMap := clientId :: s.connectionMap }

/-- `RegisterEpollEvent` and `SetSocketFd`. -/
def watch (clientId : UInt32) (fd : Nat) : LocalSocketServer :=
  { s with
    interest := update s.interest fd true
    socketFd := update s.socketFd clientId (some fd) }

/-- The entries whose connection has a socket that is open. -/
def openConnections : List UInt32 :=
  s.connectionMap.filter fun clientId =>
    (s.socketFd clientId).any fun fd => s.table.IsOpen fd

def acceptHandler (fd : Nat) (registered : Bool) : LocalSocketServer :=
  if maxClients ≤ s.connectionMap.length then
    { s.closeFd fd with refused := s.refused ++ [s.openConnections.length] }
  else
    let clientId := s.clientCounter + 1
    let s := s.addConnection clientId
    if registered then s.watch clientId fd
    else s.discard clientId

def findConnectionByFd (fd : Nat) : Option UInt32 :=
  s.connectionMap.find? fun clientId => s.socketFd clientId = some fd

def closeEpollConnection (fd : Nat) (clientId : UInt32) : LocalSocketServer :=
  { s with interest := update s.interest fd false }.discard clientId

def recvHandler (fd : Nat) (received : Received) : LocalSocketServer :=
  match s.findConnectionByFd fd with
  | none => { s with interest := update s.interest fd false }.closeFd fd
  | some clientId =>
    match received with
    | .endOfStream | .failed => s.closeEpollConnection fd clientId
    | .data | .again => s

inductive Event where
  /-- `epoll_wait` gives these numbers. -/
  | wait (batch : List Nat)
  /-- `accept` gives a number, or fails. -/
  | accept (fd : Option Nat) (registered : Bool)
  | receive (received : Received)
  /-- The application calls `Close` on a connection. -/
  | close (clientId : UInt32)

def step : Event → Option LocalSocketServer
  | .wait batch =>
    if s.batch = [] ∧ batch.Nodup ∧ ∀ fd ∈ batch, s.interest fd = true then
      some { s with batch := batch }
    else none
  | .accept none _ => some s
  | .accept (some fd) registered =>
    if s.table.IsOpen fd then none
    else some ({ s with table := s.table.assign fd }.acceptHandler fd registered)
  | .receive received =>
    match s.batch with
    | [] => none
    | fd :: batch => some ({ s with batch := batch }.recvHandler fd received)
  | .close clientId => some (s.closeConnection clientId)

/-- The number that an entry of the map holds. -/
def held (clientId : UInt32) : Option Nat :=
  if clientId ∈ s.connectionMap then s.socketFd clientId else none

/-- Every descriptor that was accepted is held by exactly one entry of the map or was closed exactly
once, the entries of the map are open, and clients were refused only with all places taken. -/
structure Orderly (s : LocalSocketServer) : Prop where
  owned : s.table.Owned s.held
  isOpen : ∀ clientId ∈ s.connectionMap, clientId ∈ s.openConnections
  full : ∀ n ∈ s.refused, maxClients ≤ n

structure Consistent (s : LocalSocketServer) : Prop where
  table : s.table.WellFormed
  nodup : s.connectionMap.Nodup
  listed : ∀ {clientId fd}, s.socketFd clientId = some fd → clientId ∈ s.connectionMap
  watched : ∀ fd, s.interest fd = true → s.table.last fd ≠ none
  waiting : ∀ fd ∈ s.batch, s.table.last fd ≠ none

/-- What keeps the descriptors in order: epoll takes every client that is not refused, each event is
handled while a connection has its number, which one that lost its entry to a new client has not,
and the application closes no connection that is open. -/
def Careful : Event → Prop
  | .accept (some _) registered => registered = true ∨ maxClients ≤ s.connectionMap.length
  | .receive _ => ∀ fd ∈ s.batch.head?, s.findConnectionByFd fd ≠ none
  | .close clientId => s.socketFd clientId = none
  | _ => True

variable {clientId : UInt32} {fd : Nat} {event : Event} {t : LocalSocketServer}

section Consistent

variable {s}

theorem consistent_start : Consistent {} where
  table := DescriptorTable.wellFormed_empty
  nodup := nodup_nil
  listed := nofun
  watched := nofun
  waiting := nofun

theorem Consistent.held_eq (hc : Consistent s) : s.held = s.socketFd := by
  funext clientId
  rw [held]
  split
  · rfl
  · next hlisted =>
      cases hfd : s.socketFd clientId with
      | none => rfl
      | some fd => exact absurd (hc.listed hfd) hlisted

theorem mem_openConnections : clientId ∈ s.openConnections ↔
      clientId ∈ s.connectionMap ∧ ∃ fd, s.socketFd clientId = some fd ∧ s.table.IsOpen fd := by
  simp [openConnections, Option.any_eq_true]

/-- A connection that is consistent with its server is open if it has a socket. -/
theorem Consistent.orderly_iff (hc : Consistent s) :
    Orderly s ↔ s.table.Owned s.socketFd ∧
      (∀ clientId ∈ s.connectionMap, ∃ fd, s.socketFd clientId = some fd) ∧
      ∀ n ∈ s.refused, maxClients ≤ n := by
  constructor
  · intro hs
    refine ⟨hc.held_eq ▸ hs.owned, fun clientId hmem => ?_, hs.full⟩
    obtain ⟨-, fd, hfd, -⟩ := mem_openConnections.mp (hs.isOpen clientId hmem)
    exact ⟨fd, hfd⟩
  · rintro ⟨howned, hsocket, hfull⟩
    refine ⟨hc.held_eq.symm ▸ howned, fun clientId hmem => ?_, hfull⟩
    obtain ⟨fd, hfd⟩ := hsocket clientId hmem
    exact mem_openConnections.mpr ⟨hmem, fd, hfd, howned.isOpen clientId fd hfd⟩

theorem orderly_start : Orderly {} :=
  consistent_start.orderly_iff.mpr
    ⟨DescriptorTable.owned_empty _ fun _ => rfl, nofun, nofun⟩

end Consistent

/-- The client under the number is refused. -/
def refuseClient (s : LocalSocketServer) (fd : Nat) : LocalSocketServer :=
  { s with
    table := (s.table.assign fd).close fd
    interest := update s.interest fd false
    refused := s.refused ++ [{ s with table := s.table.assign fd }.openConnections.length] }

/-- The client under the number gets an entry. -/
def takeClient (s : LocalSocketServer) (clientId : UInt32) (fd : Nat) : LocalSocketServer :=
  { s with
    connectionMap := clientId :: s.connectionMap
    clientCounter := clientId
    socketFd := update s.socketFd clientId (some fd)
    table := s.table.assign fd
    interest := update s.interest fd true }

/-- The client under the number gets no entry. -/
def loseClient (s : LocalSocketServer) (clientId : UInt32) (fd : Nat) : LocalSocketServer :=
  { s with clientCounter := clientId, table := s.table.assign fd }

/-- The socket of a connection is closed, and its entry stays. -/
def emptyClient (s : LocalSocketServer) (clientId : UInt32) (fd : Nat) : LocalSocketServer :=
  { s with
    socketFd := update s.socketFd clientId none
    table := s.table.close fd
    interest := update s.interest fd false }

/-- The socket of a connection is closed, and its entry is removed. -/
def dropClient (s : LocalSocketServer) (clientId : UInt32) (fd : Nat) : LocalSocketServer :=
  (s.emptyClient clientId fd).removeConnection clientId

/-- What an event does to a consistent server whose descriptors are in order. -/
inductive Does (s : LocalSocketServer) : Event → LocalSocketServer → Prop
  | wait {batch : List Nat} (hwatched : ∀ fd ∈ batch, s.interest fd = true) :
      Does s (.wait batch) { s with batch := batch }
  | acceptFails (registered : Bool) : Does s (.accept none registered) s
  | refuse {fd : Nat} (registered : Bool) (hfree : ¬ s.table.IsOpen fd)
      (hfull : maxClients ≤ s.connectionMap.length) :
      Does s (.accept (some fd) registered) (s.refuseClient fd)
  | accept {fd : Nat} (hfree : ¬ s.table.IsOpen fd) :
      Does s (.accept (some fd) true)
        ((s.discard (s.clientCounter + 1)).takeClient (s.clientCounter + 1) fd)
  | lose {fd : Nat} (hfree : ¬ s.table.IsOpen fd) (hroom : ¬ maxClients ≤ s.connectionMap.length) :
      Does s (.accept (some fd) false)
        ((s.discard (s.clientCounter + 1)).loseClient (s.clientCounter + 1) fd)
  | receive (received : Received) {fd : Nat} {batch : List Nat} (hbatch : s.batch = fd :: batch)
      (hfound : s.findConnectionByFd fd ≠ none) :
      Does s (.receive received) { s with batch := batch }
  | hangUp (received : Received) {fd : Nat} {clientId : UInt32} {batch : List Nat}
      (hbatch : s.batch = fd :: batch) (hfound : s.findConnectionByFd fd = some clientId) :
      Does s (.receive received) ({ s with batch := batch }.dropClient clientId fd)
  | miss (received : Received) {fd : Nat} {batch : List Nat} (hbatch : s.batch = fd :: batch)
      (hnone : s.findConnectionByFd fd = none) :
      Does s (.receive received) ({ s with batch := batch }.closeFd fd)
  | closeAgain {clientId : UInt32} (hfd : s.socketFd clientId = none) : Does s (.close clientId) s
  | close {clientId : UInt32} {fd : Nat} (hfd : s.socketFd clientId = some fd) :
      Does s (.close clientId) (s.emptyClient clientId fd)

section Inversion

variable {s : LocalSocketServer}

theorem closeConnection_of_none (h : s.socketFd clientId = none) :
    s.closeConnection clientId = s := by
  rw [closeConnection, h]

theorem socketFd_discard (s : LocalSocketServer) (clientId : UInt32) :
    (s.discard clientId).socketFd clientId = none := by
  rw [discard, removeConnection, closeConnection]
  split
  · assumption
  · exact update_self ..

theorem closeConnection_of_some (h : s.socketFd clientId = some fd) :
    s.closeConnection clientId = s.emptyClient clientId fd := by
  rw [closeConnection, h]
  rfl

theorem discard_of_some (h : s.socketFd clientId = some fd) :
    s.discard clientId = s.dropClient clientId fd := by
  rw [discard, closeConnection_of_some h, dropClient]

theorem closeEpollConnection_of_some (h : s.socketFd clientId = some fd) :
    s.closeEpollConnection fd clientId = s.dropClient clientId fd := by
  have hdiscard := discard_of_some (s := { s with interest := update s.interest fd false }) h
  rw [closeEpollConnection, hdiscard, dropClient, dropClient]
  simp only [emptyClient, update_idem]

theorem socketFd_of_find (h : s.findConnectionByFd fd = some clientId) :
    s.socketFd clientId = some fd := by
  have hhas := List.find?_some h
  exact of_decide_eq_true hhas

/-- A connection that has no socket has no entry. -/
theorem Orderly.discard_of_none (hs : Orderly s) (hc : Consistent s)
    (h : s.socketFd clientId = none) : s.discard clientId = s := by
  rw [discard, closeConnection_of_none h, removeConnection, erase_of_not_mem]
  intro hmem
  obtain ⟨-, hsocket, -⟩ := hc.orderly_iff.mp hs
  obtain ⟨fd, hfd⟩ := hsocket clientId hmem
  exact nomatch h.symm.trans hfd

/-- The number of a new client is not the one of the connection that loses its entry. -/
theorem Orderly.discard_assign (hs : Orderly s) (hc : Consistent s) (hfree : ¬ s.table.IsOpen fd)
    (clientId : UInt32) : { s with table := s.table.assign fd }.discard clientId =
      { s.discard clientId with table := (s.discard clientId).table.assign fd } := by
  obtain ⟨howned, -, -⟩ := hc.orderly_iff.mp hs
  cases hfd : s.socketFd clientId with
  | none =>
    have hassigned := closeConnection_of_none (s := { s with table := s.table.assign fd }) hfd
    rw [discard, hassigned, discard, closeConnection_of_none hfd]
    rfl
  | some fd' =>
    have hassigned := discard_of_some (s := { s with table := s.table.assign fd }) hfd
    rw [hassigned, discard_of_some hfd]
    simp only [dropClient, removeConnection, emptyClient,
      DescriptorTable.assign_close_of_ne (howned.ne_of_held hfree hfd)]

theorem does_of_step (hc : Consistent s) (hs : Orderly s) (h : s.step event = some t) :
    Does s event t := by
  cases event with
  | wait batch =>
    obtain ⟨⟨-, -, hwatched⟩, hwait⟩ := Option.ite_none_right_eq_some.mp h
    cases hwait
    exact .wait hwatched
  | accept fd registered =>
    cases fd with
    | none =>
      cases h
      exact .acceptFails registered
    | some fd =>
      obtain ⟨hfree, haccept⟩ := Option.ite_none_left_eq_some.mp h
      cases haccept
      have hdiscard := hs.discard_assign hc hfree (s.clientCounter + 1)
      rw [acceptHandler]
      split
      · next hfull => exact .refuse registered hfree hfull
      · next hroom =>
          simp only [addConnection, hdiscard]
          cases registered with
          | true => exact .accept hfree
          | false =>
            rw [if_neg Bool.false_ne_true, discard,
              closeConnection_of_none (by exact s.socketFd_discard (s.clientCounter + 1)),
              removeConnection, erase_cons_head]
            exact .lose hfree hroom
  | receive received =>
    rw [step] at h
    split at h
    · exact nomatch h
    · next fd batch hbatch =>
        cases h
        rw [recvHandler]
        cases hfound : s.findConnectionByFd fd with
        | none =>
          have hfound' : { s with batch := batch }.findConnectionByFd fd = none := hfound
          rw [hfound']
          simp only [closeFd, update_idem]
          exact .miss received hbatch hfound
        | some clientId =>
          have hfound' : { s with batch := batch }.findConnectionByFd fd = some clientId := hfound
          have hclose := closeEpollConnection_of_some (s := { s with batch := batch })
            (socketFd_of_find hfound)
          rw [hfound']
          cases received with
          | data => exact .receive .data hbatch (hfound ▸ nofun)
          | again => exact .receive .again hbatch (hfound ▸ nofun)
          | endOfStream =>
            simp only [hclose]
            exact .hangUp .endOfStream hbatch hfound
          | failed =>
            simp only [hclose]
            exact .hangUp .failed hbatch hfound
  | close clientId =>
    cases h
    cases hfd : s.socketFd clientId with
    | none =>
      rw [closeConnection_of_none hfd]
      exact .closeAgain hfd
    | some fd =>
      rw [closeConnection_of_some hfd]
      exact .close hfd

end Inversion

section Step

variable {s : LocalSocketServer}

section

variable (hc : Consistent s)
include hc

theorem Consistent.refuse (fd : Nat) : Consistent (s.refuseClient fd) := by
  have hwatched := hc.watched
  have hwaiting := hc.waiting
  simp only [refuseClient]
  refine { hc with table := (hc.table.assign fd).close fd, watched := ?_, waiting := ?_ }
  · grind
  · grind

theorem Consistent.take (hnew : clientId ∉ s.connectionMap) (fd : Nat) :
    Consistent (s.takeClient clientId fd) := by
  have hnodup := hc.nodup
  have hlisted := @hc.listed
  have hwatched := hc.watched
  have hwaiting := hc.waiting
  simp only [takeClient]
  refine ⟨hc.table.assign fd, ?_, ?_, ?_, ?_⟩
  · grind
  · grind
  · grind
  · grind

theorem Consistent.drop (clientId : UInt32) (fd : Nat) : Consistent (s.dropClient clientId fd) := by
  have hlisted := @hc.listed
  have hwatched := hc.watched
  have hwaiting := hc.waiting
  simp only [dropClient, removeConnection, emptyClient]
  refine ⟨hc.table.close fd, hc.nodup.erase _, ?_, ?_, ?_⟩
  · grind
  · grind
  · grind

theorem Consistent.tail {batch : List Nat} (hbatch : s.batch = fd :: batch) :
    Consistent { s with batch := batch } := by
  refine { hc with waiting := fun fd' hfd' => hc.waiting fd' ?_ }
  rw [hbatch]
  exact mem_cons_of_mem _ hfd'

end

section

variable (hs : Orderly s)
include hs

namespace Orderly

variable (hc : Consistent s)
include hc

theorem refuse (hfree : ¬ s.table.IsOpen fd) (hfull : maxClients ≤ s.connectionMap.length) :
    Orderly (s.refuseClient fd) := by
  obtain ⟨howned, hsocket, hrefused⟩ := hc.orderly_iff.mp hs
  have hopen : { s with table := s.table.assign fd }.openConnections = s.connectionMap := by
    refine filter_eq_self.mpr fun clientId hmem => ?_
    obtain ⟨fd', hfd'⟩ := hsocket clientId hmem
    have hstill := (howned.isOpen clientId fd' hfd').assign (howned.ne_of_held hfree hfd')
    grind
  refine (hc.refuse fd).orderly_iff.mpr
    ⟨howned.assign_close hc.table hfree, hsocket, fun n hn => ?_⟩
  rcases mem_append.mp hn with hn | hn
  · exact hrefused n hn
  · rw [mem_singleton.mp hn, hopen]
    exact hfull

theorem take (hfree : ¬ s.table.IsOpen fd) (hnone : s.socketFd clientId = none) :
    Consistent (s.takeClient clientId fd) ∧ Orderly (s.takeClient clientId fd) := by
  obtain ⟨howned, hsocket, hrefused⟩ := hc.orderly_iff.mp hs
  have hnew : clientId ∉ s.connectionMap := by
    intro hmem
    obtain ⟨fd', hfd'⟩ := hsocket _ hmem
    exact nomatch hnone.symm.trans hfd'
  refine ⟨hc.take hnew fd, (hc.take hnew fd).orderly_iff.mpr
    ⟨howned.assign hc.table hfree hnone, fun clientId' hmem => ?_, hrefused⟩⟩
  by_cases hid : clientId' = clientId
  · exact ⟨fd, hid ▸ update_self _ _ _⟩
  · obtain ⟨fd', hfd'⟩ := hsocket clientId' ((mem_cons.mp hmem).resolve_left hid)
    exact ⟨fd', (update_of_ne hid _ _).trans hfd'⟩

theorem drop (hfd : s.socketFd clientId = some fd) : Orderly (s.dropClient clientId fd) := by
  obtain ⟨howned, hsocket, hrefused⟩ := hc.orderly_iff.mp hs
  refine (hc.drop clientId fd).orderly_iff.mpr
    ⟨howned.close hc.table hfd, fun clientId' hmem => ?_, hrefused⟩
  obtain ⟨hid, hlisted⟩ := (List.Nodup.mem_erase_iff hc.nodup).mp hmem
  obtain ⟨fd', hfd'⟩ := hsocket clientId' hlisted
  exact ⟨fd', (update_of_ne hid _ _).trans hfd'⟩

/-- A connection that is destroyed for a new one leaves the descriptors in order. -/
theorem discard (hfree : ¬ s.table.IsOpen fd) (clientId : UInt32) :
    Consistent (s.discard clientId) ∧ Orderly (s.discard clientId) ∧
      ¬ (s.discard clientId).table.IsOpen fd := by
  cases hfd : s.socketFd clientId with
  | none =>
    rw [hs.discard_of_none hc hfd]
    exact ⟨hc, hs, hfree⟩
  | some fd' =>
    rw [discard_of_some hfd]
    exact ⟨hc.drop clientId fd', hs.drop hc hfd, fun hopen => hfree hopen.of_close⟩

/-- A descriptor that epoll does not take is in no entry and is not closed. -/
theorem not_orderly_lose (hfree : ¬ s.table.IsOpen fd) (clientId : UInt32) :
    ¬ Orderly (s.loseClient clientId fd) :=
  fun ht => hs.owned.not_owned_assign hc.table hfree ht.owned

/-- A number that no connection has is closed again. -/
theorem not_orderly_miss (hlast : s.table.last fd ≠ none)
    (hnone : s.findConnectionByFd fd = none) : ¬ Orderly (s.closeFd fd) := by
  have hheld (clientId : UInt32) : s.held clientId ≠ some fd := by
    grind [findConnectionByFd, held]
  exact fun ht => hs.owned.not_owned_close hc.table hlast hheld ht.owned

end Orderly

end

/-- The entry of a connection that the application closes stays in the map. -/
theorem Consistent.not_orderly_empty (hc : Consistent s)
    (hfd : s.socketFd clientId = some fd) : ¬ Orderly (s.emptyClient clientId fd) := by
  intro ht
  obtain ⟨-, fd', hfd', -⟩ := mem_openConnections.mp (ht.isOpen clientId (hc.listed hfd))
  simp only [emptyClient, update_self] at hfd'
  exact nomatch hfd'

end Step

/-- A step keeps the descriptors in order exactly if it is careful, and then the server is
consistent. -/
theorem orderly_step {s : LocalSocketServer} (hc : Consistent s)
    (hs : Orderly s) (hstep : s.step event = some t) :
    (Orderly t ↔ s.Careful event) ∧ (Orderly t → Consistent t) := by
  cases does_of_step hc hs hstep with
  | wait hwatched =>
    exact ⟨iff_of_true ⟨hs.owned, hs.isOpen, hs.full⟩ trivial,
      fun _ => { hc with waiting := fun fd hfd => hc.watched fd (hwatched fd hfd) }⟩
  | acceptFails => exact ⟨iff_of_true hs trivial, fun _ => hc⟩
  | refuse registered hfree hfull =>
    exact ⟨iff_of_true (hs.refuse hc hfree hfull) (.inr hfull), fun _ => hc.refuse _⟩
  | accept hfree =>
    obtain ⟨hc', hs', hfree'⟩ := hs.discard hc hfree (s.clientCounter + 1)
    obtain ⟨hc'', hs''⟩ := hs'.take hc' hfree' (s.socketFd_discard (s.clientCounter + 1))
    exact ⟨iff_of_true hs'' (.inl rfl), fun _ => hc''⟩
  | lose hfree hroom =>
    obtain ⟨hc', hs', hfree'⟩ := hs.discard hc hfree (s.clientCounter + 1)
    have hnot := hs'.not_orderly_lose hc' hfree' (s.clientCounter + 1)
    refine ⟨iff_of_false hnot ?_, fun ht => absurd ht hnot⟩
    rintro (hregistered | hfull)
    · exact nomatch hregistered
    · exact hroom hfull
  | receive received hbatch hfound =>
    refine ⟨iff_of_true ⟨hs.owned, hs.isOpen, hs.full⟩ fun fd hfd => ?_, fun _ => hc.tail hbatch⟩
    rw [hbatch] at hfd
    obtain rfl := Option.some.inj hfd
    exact hfound
  | @hangUp received fd clientId batch hbatch hfound =>
    have hs' : Orderly { s with batch := batch } := ⟨hs.owned, hs.isOpen, hs.full⟩
    refine ⟨iff_of_true (hs'.drop (hc.tail hbatch) (socketFd_of_find hfound)) fun fd' hfd => ?_,
      fun _ => (hc.tail hbatch).drop clientId fd⟩
    rw [hbatch] at hfd
    obtain rfl := Option.some.inj hfd
    exact hfound ▸ nofun
  | @miss received fd batch hbatch hnone =>
    have hs' : Orderly { s with batch := batch } := ⟨hs.owned, hs.isOpen, hs.full⟩
    have hlast := hc.waiting fd (by rw [hbatch]; exact mem_cons_self)
    have hnot := hs'.not_orderly_miss (hc.tail hbatch) hlast hnone
    refine ⟨iff_of_false hnot fun hcareful => ?_, fun ht => absurd ht hnot⟩
    exact hcareful fd (by rw [hbatch]; rfl) hnone
  | closeAgain hfd => exact ⟨iff_of_true hs hfd, fun _ => hc⟩
  | close hfd =>
    have hnot := hc.not_orderly_empty hfd
    refine ⟨iff_of_false hnot fun hnone => ?_, fun ht => absurd ht hnot⟩
    cases hfd.symm.trans hnone

/-- The descriptors are in order in every state of a run if and only if epoll takes every client
that is not refused, every event is handled while a connection has its number, and the application
closes no connection that is open. -/
theorem orderly_throughout_iff (events : List Event) :
    Throughout step Orderly events {} ↔ Meets step Careful events {} :=
  throughout_iff_meets_of_both (fun _ _ _ hc hs hstep => (orderly_step hc hs hstep).2)
    (fun _ _ _ hc hs hstep => (orderly_step hc hs hstep).1) events consistent_start orderly_start

/-- A descriptor that epoll does not take stays open and is in no entry; a connection that the
application closes stays in the map, and if the client has sent something its number is closed
again. -/
theorem descriptors_out_of_order :
    (∃ s, step {} (.accept (some 7) false) = some s ∧ s.connectionMap = [] ∧ s.table.IsOpen 7 ∧
      ¬ Orderly s) ∧
    ∃ s, [Event.accept (some 7) true, .wait [7], .close 1, .receive .data].foldlM step {} =
        some s ∧ s.connectionMap = [1] ∧ s.socketFd 1 = none ∧ s.table.closes 0 = 2 ∧
      ¬ Orderly s := by
  refine ⟨⟨_, rfl, rfl, by decide, ?_⟩, _, rfl, rfl, rfl, rfl, ?_⟩
  · exact orderly_start.not_orderly_lose consistent_start (by decide) 1
  · intro h
    obtain ⟨-, fd, hfd, -⟩ := mem_openConnections.mp (h.isOpen 1 mem_cons_self)
    exact nomatch hfd

end LocalSocketServer

end Netstack.Socket
