import Netstack.Foundation.Execution
import Netstack.TlsServer.Connections

/-!
# The servers of one process

All servers count their clients with one counter, but each has an array and a map of its own. A
server puts a new client at the entry after the last client of any server, and refuses one if all
servers together have too many.
-/

namespace Netstack.TlsServer

open Function Foundation.Execution List List.Perm

variable {s t : Server} {index n userCounter : Nat} {e : Event}

namespace Server

/-- The descriptors of entries `1..n` of the array. -/
def descriptors (s : Server) (n : Nat) : List Int := (range' 1 n).map fun i => (s.fds i).fd

/-- The clients in the array are the connections of the server, and it has refused a client only
when it had too many itself. -/
structure Own (s : Server) : Prop where
  descriptors : (s.descriptors s.live.length).Perm (s.clientIdConnections.map Prod.snd)
  refusals : ∀ count ∈ s.refusals, count = userLimit

/-- The counter counts the connections of this server when it accepts or drops a client. Besides,
the id of a new client is not taken, the listening socket has no connection, and the application
closes none. -/
def Alone (userCounter : Nat) (s : Server) : Event → Prop
  | .accept _ handshake =>
    handshake = true → userCounter = s.live.length ∧
      ∀ c ∈ s.clientIdConnections, c.1 ≠ userCounter + 1
  | .close clientID => ∀ c ∈ s.clientIdConnections, c.1 ≠ clientID
  | e => ∀ index ∈ s.drops e,
      if index = 0 then ¬ s.connected (s.fds 0).fd else userCounter = s.live.length

instance (userCounter : Nat) (s : Server) (e : Event) : Decidable (s.Alone userCounter e) := by
  induction e using Event.casesOn <;> dsimp only [Alone] <;> infer_instance

/-! ### Entries and connections -/

theorem Own.live_eq (h : s.Own) : s.live = s.clientIdConnections := by
  apply filter_sublist.eq_of_length
  have hlength := h.descriptors.length_eq
  rwa [Server.descriptors, length_map, length_range', length_map] at hlength

theorem descriptors_congr (h : s.SameClients t) (n : Nat) : t.descriptors n = s.descriptors n := by
  refine map_congr_left fun i hi => ?_
  have hi := mem_range'_1.mp hi
  rw [h i (by omega)]

theorem descriptors_succ (s : Server) (n : Nat) :
    s.descriptors (n + 1) = s.descriptors n ++ [(s.fds (n + 1)).fd] := by
  rw [descriptors, range'_1_concat, map_append, map_singleton, Nat.add_comm 1 n,
    descriptors]

/-- The last entry takes the place of the one that is dropped. -/
theorem descriptors_dropped (hindex : index ≠ 0)
    (hle : index ≤ n + 1) (hfds : t.fds = s.dropped (n + 1) index) :
    (s.descriptors (n + 1)).Perm ((s.fds index).fd :: t.descriptors n) := by
  have hentry : ∀ i ∈ range' 1 n, (t.fds i).fd =
      if i = index then (s.fds (n + 1)).fd else (s.fds i).fd := by
    intro i hi
    have hi := mem_range'_1.mp hi
    rw [hfds, dropped_apply s hindex, if_neg (by omega), apply_ite PollFd.fd]
  have hmap : t.descriptors n = (range' 1 n).map fun i =>
      if i = index then (s.fds (n + 1)).fd else (s.fds i).fd := map_congr_left hentry
  rw [descriptors_succ, hmap]
  refine (perm_append_singleton _ _).trans ?_
  rcases Nat.eq_or_lt_of_le hle with rfl | hlt
  · refine cons _ (of_eq (map_congr_left fun i hi => ?_))
    grind
  · have hmem : index ∈ range' 1 n := mem_range'_1.mpr (by omega)
    have hperm := perm_cons_erase hmem
    have hrest : ((range' 1 n).erase index).map (fun i => (s.fds i).fd) =
        ((range' 1 n).erase index).map fun i =>
          if i = index then (s.fds (n + 1)).fd else (s.fds i).fd := by
      refine map_congr_left fun i hi => ?_
      have hne := (List.Nodup.mem_erase_iff nodup_range').mp hi
      rw [if_neg hne.1]
    refine ((hperm.map _).cons _).trans ?_
    grind

theorem connections_erased {cs : List Connection} {fd : Int} (h : fd ∈ cs.map Prod.snd) :
    (cs.map Prod.snd).Perm (fd :: (cs.eraseP fun c => c.2 = fd).map Prod.snd) := by
  refine (perm_cons_erase h).trans (cons fd ?_)
  rw [erase_eq_eraseP', eraseP_map]
  rfl

/-! ### What an operation keeps -/

theorem le_of_drops {isOpen : Int → Prop}
    (hpossible : e.Possible userCounter isOpen) (h : s.drops e = some index) :
    index ≤ userCounter := by
  cases e with
  | hangUp i =>
    cases h
    exact hpossible
  | recv i len =>
    obtain ⟨-, h⟩ := Option.ite_none_left_eq_some.mp h
    cases h
    exact hpossible
  | listen _ | accept _ _ | close _ => cases h

theorem Alone.of_drops (h : s.Alone userCounter e) (hdrops : s.drops e = some index) :
    if index = 0 then ¬ s.connected (s.fds 0).fd else userCounter = s.live.length := by
  cases e with
  | hangUp i => exact h index hdrops
  | recv i len => exact h index hdrops
  | listen _ | accept _ _ | close _ => cases hdrops

theorem Own.accept {connectFD : Int} (h : s.Own) (hfd : 0 ≤ connectFD)
    (hids : ∀ c ∈ s.clientIdConnections, c.1 ≠ s.live.length + 1)
    (hfds : t.fds =
      update s.fds (s.live.length + 1) { fd := connectFD, events := true })
    (hmap : t.clientIdConnections =
      assign (s.live.length + 1) connectFD s.clientIdConnections)
    (hrefusals : t.refusals = s.refusals) : t.Own := by
  have hperm := assign_perm hids connectFD
  rw [← hmap] at hperm
  have hlive : t.live.length = s.live.length + 1 := by
    have hnew : isLive (s.live.length + 1, connectFD) = true := isLive_iff.mpr (by omega)
    have hlength := (hperm.filter isLive).length_eq
    rwa [filter_cons_of_pos hnew, length_cons] at hlength
  refine ⟨?_, hrefusals ▸ h.refusals⟩
  have hsame : t.descriptors s.live.length = s.descriptors s.live.length := by
    refine map_congr_left fun i hi => ?_
    have hi := mem_range'_1.mp hi
    rw [hfds, update_of_ne (by omega)]
  rw [hlive, descriptors_succ, hsame, hfds, update_self]
  refine (perm_append_singleton _ _).trans ?_
  exact (h.descriptors.cons connectFD).trans (hperm.map Prod.snd).symm

theorem Own.removed (h : s.Own) (hindex : index ≠ 0)
    (hle : index ≤ s.live.length) (hfds : t.fds = s.dropped s.live.length index)
    (hmap : t.clientIdConnections =
      s.clientIdConnections.eraseP fun c => c.2 = (s.fds index).fd)
    (hrefusals : t.refusals = s.refusals) : t.Own := by
  obtain ⟨n, hn⟩ := Nat.exists_eq_succ_of_ne_zero (Nat.ne_of_gt (Nat.lt_of_lt_of_le
    (Nat.pos_of_ne_zero hindex) hle))
  have hdescriptors := h.descriptors
  rw [hn] at hfds hle hdescriptors
  have hdropped := descriptors_dropped hindex hle hfds
  have hmem : (s.fds index).fd ∈ s.clientIdConnections.map Prod.snd :=
    hdescriptors.subset (hdropped.symm.subset mem_cons_self)
  have hperm : (t.descriptors n).Perm (t.clientIdConnections.map Prod.snd) := by
    rw [← perm_cons (s.fds index).fd, hmap]
    grind [connections_erased]
  have hlive : t.live = t.clientIdConnections := by
    grind [live, @h.live_eq]
  refine ⟨?_, hrefusals ▸ h.refusals⟩
  have hlength := hperm.length_eq
  rw [Server.descriptors, length_map, length_range', length_map] at hlength
  rwa [hlive, ← hlength]

theorem Own.same (h : s.Own) (hsame : s.SameClients t)
    (hmap : t.clientIdConnections = s.clientIdConnections)
    (hrefusals : ∀ count ∈ t.refusals, count = userLimit) : t.Own := by
  have hlive : t.live = s.live := by rw [live, hmap, live]
  refine ⟨?_, hrefusals⟩
  rw [hlive, hmap, descriptors_congr hsame]
  exact h.descriptors

/-- What a server does alone keeps its array and its map together. -/
theorem Own.effect {isOpen : Int → Prop}
    (h : s.Own) (hlimit : userCounter ≤ userLimit) (hpossible : e.Possible userCounter isOpen)
    (halone : s.Alone userCounter e) (heffect : Effect userCounter s e n t) : t.Own := by
  cases heffect with
  | kept hsame hmap hrefusals =>
    refine h.same hsame hmap ?_
    rcases hrefusals with hrefusals | ⟨⟨connectFD, rfl⟩, hfull, hrefusals⟩
    · exact hrefusals ▸ h.refusals
    · rw [hrefusals, forall_mem_append, forall_mem_singleton]
      refine ⟨h.refusals, ?_⟩
      rw [← (halone rfl).1]
      exact le_antisymm hlimit hfull
  | added connectFD he hroom hfds hmap hrefusals =>
    subst he
    obtain ⟨rfl, hids⟩ := halone rfl
    exact h.accept hpossible.1 hids hfds hmap hrefusals
  | unlisted he hsame hmap hrefusals =>
    have hnone : ¬ s.connected (s.fds 0).fd := halone.of_drops he
    refine h.same hsame ?_ (hrefusals ▸ h.refusals)
    rw [hmap]
    refine eraseP_of_forall_not fun c hc hfd => hnone ⟨c, hc, ?_⟩
    simpa using hfd
  | removed index he hindex hfds hmap hrefusals =>
    have hown := halone.of_drops he
    rw [if_neg hindex] at hown
    subst hown
    exact h.removed hindex (le_of_drops hpossible he) hfds hmap hrefusals
  | closed clientID he =>
    subst he
    refine h.same (fun _ _ => rfl) ?_ h.refusals
    refine (map_congr_left fun c hc => ?_).trans (map_id _)
    rw [if_neg (halone c hc)]
    rfl

theorem own_start : Own {} where
  descriptors := List.Perm.refl _
  refusals := nofun

end Server

/-! ### A process with several servers -/

structure Process (m : Nat) where
  userCounter : Nat := 0
  servers : Fin m → Server := fun _ => {}

namespace Process

variable {m : Nat}

variable (p : Process m)

/-- A connection of some server is on this descriptor. -/
def isOpen (fd : Int) : Prop := ∃ k, (p.servers k).isOpen fd

instance (p : Process m) (fd : Int) : Decidable (p.isOpen fd) :=
  inferInstanceAs (Decidable (∃ k, (p.servers k).isOpen fd))

/-- A server handles an event. -/
def after (k : Fin m) (e : Event) : Process m :=
  { userCounter := ((p.servers k).handle p.userCounter e).1
    servers := update p.servers k ((p.servers k).handle p.userCounter e).2 }

def step (operation : Fin m × Event) : Option (Process m) :=
  if operation.2.Possible p.userCounter p.isOpen then some (p.after operation.1 operation.2)
  else none

def Own : Prop := ∀ k, (p.servers k).Own

/-- The server that handles the event does so alone. -/
def Alone (operation : Fin m × Event) : Prop :=
  (p.servers operation.1).Alone p.userCounter operation.2

instance (p : Process m) (operation : Fin m × Event) : Decidable (p.Alone operation) :=
  inferInstanceAs (Decidable ((p.servers operation.1).Alone p.userCounter operation.2))

/-- No server counts beyond the limit. -/
theorem userCounter_le
    (hlimit : userCounter ≤ userLimit) (h : s.Effect userCounter e n t) : n ≤ userLimit := by
  cases h with
  | kept hsame hmap hrefusals => exact hlimit
  | added connectFD he hroom hfds hmap hrefusals => exact hroom
  | unlisted he hsame hmap hrefusals => exact hlimit
  | removed index he hindex hfds hmap hrefusals => exact (Nat.sub_le _ _).trans hlimit
  | closed clientID he => exact hlimit

theorem own_step {p q : Process m} {operation : Fin m × Event}
    (h : p.userCounter ≤ userLimit ∧ p.Own) (halone : p.Alone operation)
    (hstep : p.step operation = some q) : q.userCounter ≤ userLimit ∧ q.Own := by
  obtain ⟨k, e⟩ := operation
  obtain ⟨hpossible, hstep⟩ := Option.ite_none_right_eq_some.mp hstep
  cases hstep
  have heffect := (p.servers k).effect_handle p.userCounter e
  refine ⟨userCounter_le h.1 heffect, fun j => ?_⟩
  by_cases hj : j = k
  · subst hj
    simp only [after, update_self]
    exact (h.2 j).effect h.1 hpossible halone heffect
  · simp only [after, update_of_ne hj]
    exact h.2 j

/-- If each server is alone whenever it accepts or drops a client, every server's array and map stay
together, and no server refuses a client because of another. -/
theorem servers_independent (history : List (Fin m × Event))
    (h : Meets step Alone history ({} : Process m)) :
    Throughout step Own history ({} : Process m) :=
  throughout_of_meets (fun _ _ _ => own_step) (fun _ hp => hp.2) history
    ⟨Nat.zero_le _, fun _ => Server.own_start⟩ h

/-- The second server takes over when the clients of the first have left. -/
theorem secondServer_follows : let history : List (Fin 2 × Event) :=
      [(0, .listen 3), (1, .listen 4), (0, .accept 5 true), (0, .accept 6 true), (0, .recv 1 0),
        (0, .hangUp 1), (1, .accept 7 true)]
    Meets step Alone history {} ∧ Throughout step Own history {} := by
  intro history
  have h : Meets step Alone history {} := by decide +kernel
  exact ⟨h, servers_independent history h⟩

/-- Both servers have one client. The second server has put its own at entry 2. -/
theorem secondServer_misplaces :
    ∃ p : Process 2, [((0 : Fin 2), Event.listen 3), (1, .listen 4), (0, .accept 5 true),
      (1, .accept 6 true)].foldlM step {} = some p ∧ ¬ p.Own := by
  refine Exists.imp (fun (p : Process 2) =>
    And.imp_right (mt fun hown : p.Own => (hown 1).descriptors)) ?_
  decide +kernel

end Process

end Netstack.TlsServer
