import Netstack.TlsServer.PollLoop

/-!
# One round of the poll thread

A round is right if every client is looked at once with its own events, those and only those
connections are removed that hung up or failed, and every other client that has sent something is
read once.

## Implementation notes

At most one client comes in during a round, because only entry 0 is the listening socket.
-/

namespace Netstack.TlsServer

open Foundation.Execution List Pass Server

/-! ### The listening socket -/

namespace Server

/-- The descriptor of the client that comes in, if there is one. -/
def newcomer (s : Server) (userCounter : Nat) : Option (Int × Bool) → Option Int
  | some (connectFD, true) =>
    if ((s.fds 0).fd = s.listenSocketFd ∧ (s.fds 0).revents.pollIn = true) ∧
        userCounter < userLimit then
      some connectFD
    else none
  | _ => none

/-- The clients after the loop has looked at the listening socket. -/
def entrants (s : Server) (userCounter : Nat) (accepted : Option (Int × Bool)) : List Entry :=
  s.clients userCounter ++ (s.newcomer userCounter accepted).toList.map fun fd =>
    (fd, ({} : Revents))

end Server

/-- What is known of the array, the map and the descriptors when `poll` has returned. -/
structure Polled (userCounter : Nat) (s : Server) (accepted : Option (Int × Bool)) : Prop where
  /-- Entry 0 is for the listening socket only. -/
  listening : ∀ i ≤ userCounter, i ≠ 0 → (s.fds i).fd ≠ s.listenSocketFd
  /-- Nothing is reported for a negative descriptor. -/
  ignored : ∀ i ≤ userCounter, (s.fds i).fd < 0 → (s.fds i).revents = {}
  separate : ¬ s.isOpen (s.fds 0).fd
  sound : s.Sound
  fresh : ∀ connectFD handshake, accepted = some (connectFD, handshake) →
    0 ≤ connectFD ∧ connectFD ≠ s.listenSocketFd ∧ ¬ s.isOpen connectFD

/-- The loop has looked at entry 0. -/
structure First (userCounter : Nat) (s : Server) (accepted : Option (Int × Bool)) (q : Pass) :
    Prop where
  i : q.i = 1
  visits : q.visits = [s.entry 0]
  ahead : q.ahead = s.entrants userCounter accepted
  listening : q.server.listenSocketFd = s.listenSocketFd
  reads : q.server.reads = s.reads
  map : q.server.clientIdConnections =
    match s.newcomer userCounter accepted with
    | none => s.clientIdConnections
    | some fd => assign (userCounter + 1) fd s.clientIdConnections

variable {userCounter : Nat} {s : Server} {accepted : Option (Int × Bool)} {q : Pass}

/-- A descriptor that reports something is that of a live connection, if it is of any. -/
theorem Polled.isOpen_of_connected {i : Nat} (h : Polled userCounter s accepted)
    (hi : i ≤ userCounter)
    (hreport : (s.fds i).revents ≠ {}) (hconnected : s.connected (s.fds i).fd) :
    s.isOpen (s.fds i).fd := by
  obtain ⟨c, hc, hfd⟩ := hconnected
  refine ⟨c, mem_filter.mpr ⟨hc, isLive_iff.mpr ?_⟩, hfd⟩
  intro hclosed
  exact hreport (h.ignored i hi (by omega))

theorem first_same (hnewcomer : s.newcomer userCounter accepted = none) (hi : q.i = 1)
    (hcounter : q.userCounter = userCounter) (hvisits : q.visits = [s.entry 0])
    (hentry : ∀ j, j ≠ 0 → q.server.entry j = s.entry j)
    (hlistening : q.server.listenSocketFd = s.listenSocketFd) (hreads : q.server.reads = s.reads)
    (hmap : q.server.clientIdConnections = s.clientIdConnections) :
    First userCounter s accepted q where
  i := hi
  visits := hvisits
  ahead := by
    rw [Pass.ahead, hi, hcounter, entrants, hnewcomer, clients,
      Nat.add_sub_cancel]
    refine (map_congr_left fun j hj => ?_).trans (append_nil _).symm
    have hj := mem_range'_1.mp hj
    exact hentry j (by omega)
  listening := hlistening
  reads := hreads
  map := by rw [hnewcomer, hmap]

/-- No connection is removed with the entry of the listening socket. -/
theorem first_hangUp (hnewcomer : s.newcomer userCounter accepted = none)
    (hnone : ¬ s.connected (s.fds 0).fd) (hi : q.i = 1) (hcounter : q.userCounter = userCounter)
    (hvisits : q.visits = [s.entry 0]) (hserver : q.server = (s.hangUp userCounter 0).server) :
    First userCounter s accepted q := by
  refine first_same hnewcomer hi hcounter hvisits (fun j hj => ?_) ?_ ?_ ?_
  · rw [hserver]
    simp only [entry, hangUp, dropFdFromPollList, if_true, setFd,
      Function.update_of_ne hj]
    rfl
  · rw [hserver]
    rfl
  · rw [hserver]
    rfl
  · rw [hserver]
    refine eraseP_of_forall_not fun c hc hfd => hnone ⟨c, hc, ?_⟩
    simpa using hfd

/-- A client comes in and gets the entry after the last. -/
theorem first_accept {connectFD : Int}
    (hnewcomer : s.newcomer userCounter (some (connectFD, true)) = some connectFD) (hi : q.i = 1)
    (hcounter : q.userCounter = userCounter + 1) (hvisits : q.visits = [s.entry 0])
    (hserver : q.server =
      (s.setFd (userCounter + 1) { fd := connectFD, events := true }).addConnect
        (userCounter + 1) connectFD) : First userCounter s (some (connectFD, true)) q where
  i := hi
  visits := hvisits
  ahead := by
    rw [Pass.ahead, hi, hcounter, Nat.add_sub_cancel, range'_1_concat, map_append,
      hserver, entrants, hnewcomer, clients]
    congr 1
    · refine map_congr_left fun j hj => ?_
      have hj := mem_range'_1.mp hj
      have hne : j ≠ userCounter + 1 := by omega
      simp only [entry, addConnect, setFd, Function.update_of_ne hne]
    · simp only [map_singleton, entry, addConnect, setFd,
        Nat.add_comm 1 userCounter, Function.update_self]
      rfl
  listening := by rw [hserver]; rfl
  reads := by rw [hserver]; rfl
  map := by rw [hnewcomer, hserver]; rfl

theorem first_turn (recv : Int → Int) (h : Polled userCounter s accepted) :
    First userCounter s accepted (turn accepted recv { userCounter, server := s }) := by
  by_cases hlisten : (s.fds 0).fd = s.listenSocketFd ∧ (s.fds 0).revents.pollIn = true
  · simp only [turn, if_pos hlisten]
    obtain _ | ⟨connectFD, _ | _⟩ := accepted
    · exact first_same rfl rfl rfl rfl (fun _ _ => rfl) rfl rfl rfl
    · exact first_same rfl rfl rfl rfl (fun _ _ => rfl) rfl rfl rfl
    · simp only [accept, processTcpAccept, setTlsConnectionSecureOptions,
        Bool.not_true, Bool.false_eq_true, if_false]
      by_cases hlimit : userLimit ≤ userCounter
      · simp only [if_pos hlimit]
        refine first_same (if_neg ?_) rfl rfl rfl (fun _ _ => rfl) rfl rfl rfl
        exact fun hnew => (not_lt.mpr hlimit) hnew.2
      · simp only [if_neg hlimit]
        exact first_accept (if_pos ⟨hlisten, not_le.mp hlimit⟩) rfl rfl rfl rfl
  have hnewcomer : s.newcomer userCounter accepted = none := by
    rw [newcomer.eq_def]
    grind
  have hnone (hreport : (s.fds 0).revents ≠ {}) : ¬ s.connected (s.fds 0).fd := fun hconnected =>
    h.separate (h.isOpen_of_connected (Nat.zero_le _) hreport hconnected)
  by_cases hhung : (s.fds 0).revents.hungUp = true
  · simp only [turn, if_neg hlisten, if_pos hhung]
    refine first_hangUp hnewcomer (hnone ?_) rfl rfl rfl rfl
    intro hidle
    rw [hidle] at hhung
    cases hhung
  have hhung := Bool.eq_false_iff.mpr hhung
  by_cases hin : (s.fds 0).revents.pollIn = true
  · have hnone := hnone fun hidle => by
      rw [hidle] at hin
      cases hin
    simp only [turn, if_neg hlisten, hhung, Bool.false_eq_true, if_false, if_pos hin,
      recvRemoteInfo_eq, hnone, and_false, append_nil]
    exact first_hangUp hnewcomer hnone rfl rfl rfl rfl
  · simp only [turn, if_neg hlisten, hhung, Bool.false_eq_true, if_false, if_neg hin]
    grind [first_same]

/-! ### The round -/

/-- The right things were done about the clients in a round. -/
structure Right (userCounter : Nat) (s : Server) (accepted : Option (Int × Bool))
    (recv : Int → Int) (p : Pass) : Prop where
  /-- No descriptor is skipped, or treated with the events of another. -/
  treated : p.visits.Perm (s.entry 0 :: s.entrants userCounter accepted)
  removed : ∀ c ∈ s.live, c ∉ p.server.live ↔ ∃ e ∈ s.clients userCounter,
    e.1 = c.2 ∧ (e.2.hungUp = true ∨ e.2.readable = true ∧ recv e.1 ≤ 0)
  read : ∀ fd, p.server.reads.count fd = s.reads.count fd +
    if ∃ e ∈ s.clients userCounter, e.1 = fd ∧ e.2.readable = true then 1 else 0

/-- The clients report in such an order that the moves in the array do no harm, and the client that
comes in does not get the id of another. -/
structure Orderly (userCounter : Nat) (s : Server) (accepted : Option (Int × Bool))
    (recv : Int → Int) : Prop where
  /-- Receiving fails for the last client only, and after a hang-up there is only the same. -/
  inOrder : (s.entrants userCounter accepted).Pairwise fun e x =>
    (e.2.readable = true → 0 < recv e.1) ∧ (e.2.hungUp = true → x.2 = e.2)
  connected : ∀ e ∈ s.clients userCounter, e.2.readable = true →
    s.connected e.1 ∨ s.newcomer userCounter accepted = some e.1
  once : (((s.clients userCounter).filter fun e => e.2.readable).map Prod.fst).Nodup
  unclaimed : s.newcomer userCounter accepted ≠ none → ∀ c ∈ s.live, c.1 ≠ userCounter + 1

variable {e : Entry}

theorem mem_clients : e ∈ s.clients userCounter ↔ ∃ i, i ≠ 0 ∧ i ≤ userCounter ∧ s.entry i = e := by
  rw [clients, mem_map]
  grind

variable {fd : Int}

theorem newcomer_eq_some (h : s.newcomer userCounter accepted = some fd) :
    accepted = some (fd, true) := by
  rw [newcomer.eq_def] at h
  grind

variable {c : Connection} {recv : Int → Int} {r : Pass} {es : List Entry} {t : Server}

section Round

theorem received_entrants : received q.server (s.entrants userCounter accepted) =
    received q.server (s.clients userCounter) := by
  rw [received, entrants, filter_append, received]
  cases s.newcomer userCounter accepted with
  | none => rw [Option.toList_none, map_nil, filter_nil, append_nil]
  | some fd =>
    rw [Option.toList_some, map_singleton, filter_cons_of_neg Bool.noConfusion,
      filter_nil, append_nil]

theorem mem_received :
    fd ∈ received t es ↔ (∃ e ∈ es, e.1 = fd ∧ e.2.readable = true) ∧ t.connected fd := by
  simp only [received, mem_map, mem_filter, Bool.and_eq_true, decide_eq_true_eq]
  grind

/-- Each readable descriptor is read once. -/
theorem count_received_iff :
    (∀ fd, (received t es).count fd =
        if ∃ e ∈ es, e.1 = fd ∧ e.2.readable = true then 1 else 0) ↔
      (∀ e ∈ es, e.2.readable = true → t.connected e.1) ∧
        ((es.filter fun e => e.2.readable).map Prod.fst).Nodup := by
  have hall (hconnected : ∀ e ∈ es, e.2.readable = true → t.connected e.1) :
      received t es = (es.filter fun e => e.2.readable).map Prod.fst := by
    rw [received]
    refine congrArg _ (filter_congr fun e he => ?_)
    by_cases hreadable : e.2.readable = true
    · rw [hreadable, decide_eq_true (hconnected e he hreadable)]
      rfl
    · rw [Bool.eq_false_iff.mpr hreadable]
      rfl
  constructor
  · intro hcount
    have hconnected : ∀ e ∈ es, e.2.readable = true → t.connected e.1 := by
      intro e he hreadable
      have hone := hcount e.1
      rw [if_pos ⟨e, he, rfl, hreadable⟩] at hone
      have hpos : 0 < (received t es).count e.1 := by omega
      exact (mem_received.mp (count_pos_iff.mp hpos)).2
    refine ⟨hconnected, nodup_iff_count_le_one.mpr fun fd => ?_⟩
    rw [← hall hconnected, hcount]
    split
    · exact le_rfl
    · exact Nat.zero_le 1
  · rintro ⟨hconnected, hnodup⟩ fd
    have hiff : fd ∈ received t es ↔ _ := mem_received
    grind

theorem mem_entrants : e ∈ s.entrants userCounter accepted ↔
    e ∈ s.clients userCounter ∨ ∃ fd, s.newcomer userCounter accepted = some fd ∧ (fd, {}) = e := by
  rw [entrants, mem_append, mem_map]
  simp only [Option.mem_toList]

theorem mem_clients_of_mem_entrants (he : e ∈ s.entrants userCounter accepted)
    (hreport : e.2.hungUp = true ∨ e.2.readable = true) : e ∈ s.clients userCounter := by
  rcases mem_entrants.mp he with he | ⟨fd, -, rfl⟩
  · exact he
  · rcases hreport with hreport | hreport
    · cases hreport
    · cases hreport

section

variable (hfirst : First userCounter s accepted q)
include hfirst

theorem First.connected_of (hconnected : q.server.connected fd) :
    s.connected fd ∨ s.newcomer userCounter accepted = some fd := by
  obtain ⟨c, hc, hfd⟩ := hconnected
  have hmap := hfirst.map
  cases hnew : s.newcomer userCounter accepted with
  | none =>
    rw [hnew] at hmap
    exact Or.inl ⟨c, by rwa [hmap] at hc, hfd⟩
  | some fd' =>
    rw [hnew] at hmap
    rw [hmap] at hc
    rcases mem_assign hc with rfl | hc
    · exact Or.inr (congrArg some hfd)
    · exact Or.inl ⟨c, hc, hfd⟩

/-- The connections stay if the new client does not get the id of one. -/
theorem First.mem_live
    (hunclaimed : s.newcomer userCounter accepted ≠ none → ∀ c ∈ s.live, c.1 ≠ userCounter + 1)
    (hc : c ∈ s.live) : c ∈ q.server.live := by
  have hmap := hfirst.map
  cases hnew : s.newcomer userCounter accepted with
  | none =>
    rw [hnew] at hmap
    rwa [live, hmap]
  | some fd =>
    rw [hnew] at hmap
    obtain ⟨hmem, hlive⟩ := mem_filter.mp hc
    rw [live, hmap]
    refine mem_filter.mpr ⟨mem_assign_of_mem hmem (hunclaimed ?_ c hc) fd, hlive⟩
    rw [hnew]
    exact Option.some_ne_none fd

/-- A connection is removed for what its own descriptor reports. -/
theorem First.gone_iff (houtcome : Pass.Outcome recv q r) (hc : c ∈ q.server.live) :
    c ∉ r.server.live ↔ ∃ e ∈ s.clients userCounter,
      e.1 = c.2 ∧ (e.2.hungUp = true ∨ e.2.readable = true ∧ recv e.1 ≤ 0) := by
  rw [houtcome.live, hfirst.ahead, and_iff_right hc]
  constructor
  · intro hgone
    by_contra hnone
    refine hgone fun e he hfd => ⟨Bool.eq_false_iff.mpr fun hhung => ?_, fun hfails => ?_⟩
    · exact hnone ⟨e, mem_clients_of_mem_entrants he (Or.inl hhung), hfd, Or.inl hhung⟩
    · have hconnected : q.server.connected e.1 := ⟨c, (mem_filter.mp hc).1, hfd.symm⟩
      have hrecv : recv e.1 ≤ 0 := not_lt.mp fun hpos => hfails.2 ⟨hpos, hconnected⟩
      exact hnone ⟨e, mem_clients_of_mem_entrants he (Or.inr hfails.1), hfd,
        Or.inr ⟨hfails.1, hrecv⟩⟩
  · rintro ⟨e, he, hfd, hbad⟩ hall
    obtain ⟨hhung, hfails⟩ := hall e (mem_entrants.mpr (Or.inl he)) hfd
    rcases hbad with hbad | ⟨hreadable, hrecv⟩
    · rw [hbad] at hhung
      cases hhung
    · exact hfails ⟨hreadable, fun hpos => (not_lt.mpr hrecv) hpos.1⟩

theorem First.count_reads (houtcome : Pass.Outcome recv q r) (fd : Int) : r.server.reads.count fd =
      s.reads.count fd + (received q.server (s.clients userCounter)).count fd := by
  rw [houtcome.reads, hfirst.reads, hfirst.ahead, received_entrants, count_append]

variable (h : Polled userCounter s accepted)
include h

theorem First.apart : (q.server.live.map Prod.snd).Nodup := by
  have hmap := hfirst.map
  cases hnew : s.newcomer userCounter accepted with
  | none =>
    rw [hnew] at hmap
    rw [live, hmap]
    exact h.sound.apart
  | some fd =>
    rw [hnew] at hmap
    obtain ⟨hpos, -, hfresh⟩ := h.fresh fd true (newcomer_eq_some hnew)
    rw [live, hmap]
    exact apart_assign hpos (fun c hc hfd => hfresh ⟨c, hc, hfd⟩) h.sound.apart

/-- A connection whose id the new client gets is replaced. -/
theorem First.not_mem_live (hnew : s.newcomer userCounter accepted = some fd) (hc : c ∈ s.live)
    (hid : c.1 = userCounter + 1) : c ∉ q.server.live := by
  intro hlive
  have hmap := hfirst.map
  rw [hnew] at hmap
  rw [live, hmap] at hlive
  obtain rfl := eq_of_mem_assign h.sound.sorted (mem_filter.mp hlive).1 hid
  exact (h.fresh fd true (newcomer_eq_some hnew)).2.2 ⟨_, hc, rfl⟩

/-- The clients that are ready to be read have connections when the loop gets to them. -/
theorem First.connected
    (hunclaimed : s.newcomer userCounter accepted ≠ none → ∀ c ∈ s.live, c.1 ≠ userCounter + 1)
    (he : e ∈ s.clients userCounter) (hreadable : e.2.readable = true)
    (hconnected : s.connected e.1 ∨ s.newcomer userCounter accepted = some e.1) :
    q.server.connected e.1 := by
  rcases hconnected with hconnected | hnew
  · obtain ⟨i, -, hi, rfl⟩ := mem_clients.mp he
    have hreport : (s.fds i).revents ≠ {} := by
      intro hidle
      rw [entry, hidle] at hreadable
      cases hreadable
    obtain ⟨c, hc, hfd⟩ := h.isOpen_of_connected hi hreport hconnected
    exact ⟨c, (mem_filter.mp (hfirst.mem_live hunclaimed hc)).1, hfd⟩
  · have hmap := hfirst.map
    rw [hnew] at hmap
    refine ⟨(userCounter + 1, e.1), ?_, rfl⟩
    rw [hmap]
    exact mem_assign_self _ _ _

theorem orderly_of_right (hcourse : Pass.Course recv q r)
    (hright : Right userCounter s accepted recv r) : Orderly userCounter s accepted recv := by
  have hapart := hfirst.apart h
  have hvisits : r.visits.Perm (q.visits ++ q.ahead) := by
    rw [hfirst.visits, hfirst.ahead]
    exact hright.treated
  have hordered := hcourse.ordered hapart hvisits
  have houtcome := hcourse.outcome hapart hordered
  rw [hfirst.ahead] at hordered
  obtain ⟨hconnected, honce⟩ := count_received_iff.mp fun fd => by
    have hread := hright.read fd
    rw [hfirst.count_reads houtcome] at hread
    exact Nat.add_left_cancel hread
  constructor
  · refine hordered.imp fun hbefore => ⟨fun hreadable => ?_, hbefore.2⟩
    by_contra hrecv
    exact hbefore.1 ⟨hreadable, fun hpos => hrecv hpos.1⟩
  · grind [@hfirst.connected_of]
  · exact honce
  · intro hnew c hc hid
    obtain ⟨fd, hnew⟩ := Option.ne_none_iff_exists'.mp hnew
    have hgone : c ∉ r.server.live := fun hlive =>
      hfirst.not_mem_live h hnew hc hid ((houtcome.live c).mp hlive).1
    obtain ⟨e, he, -, hbad⟩ := (hright.removed c hc).mp hgone
    rw [entrants, hnew] at hordered
    obtain ⟨hfails, hsame⟩ := (pairwise_append.mp hordered).2.2 e he (fd, {})
      (mem_singleton.mpr rfl)
    rcases hbad with hhung | ⟨hreadable, hrecv⟩
    · rw [← hsame hhung] at hhung
      cases hhung
    · exact hfails ⟨hreadable, fun hpos => (not_lt.mpr hrecv) hpos.1⟩

theorem right_of_orderly (hcourse : Pass.Course recv q r)
    (horderly : Orderly userCounter s accepted recv) : Right userCounter s accepted recv r := by
  have hconnected : ∀ e ∈ s.clients userCounter, e.2.readable = true → q.server.connected e.1 :=
    fun e he hreadable => hfirst.connected h horderly.unclaimed he hreadable
      (horderly.connected e he hreadable)
  have hordered : q.ahead.Pairwise (Pass.Before recv q.server) := by
    rw [hfirst.ahead]
    refine horderly.inOrder.imp_of_mem fun {e x} he _ hbefore => ⟨fun hfails => ?_, hbefore.2⟩
    have hmem := mem_clients_of_mem_entrants he (Or.inr hfails.1)
    exact hfails.2 ⟨hbefore.1 hfails.1, hconnected e hmem hfails.1⟩
  have houtcome := hcourse.outcome (hfirst.apart h) hordered
  constructor
  · have hvisits := houtcome.visits
    rwa [hfirst.visits, hfirst.ahead] at hvisits
  · exact fun c hc => hfirst.gone_iff houtcome (hfirst.mem_live horderly.unclaimed hc)
  · intro fd
    rw [hfirst.count_reads houtcome, count_received_iff.mpr ⟨hconnected, horderly.once⟩ fd]

end

theorem pollRound_course (recv : Int → Int) (h : Polled userCounter s accepted) :
    ∃ q r, First userCounter s accepted q ∧ Pass.Course recv q r ∧
      pollRound accepted recv userCounter s = some r := by
  have hfirst := first_turn recv h
  have hclients : ∀ fd ∈ (s.entrants userCounter accepted).map Prod.fst,
      fd ≠ s.listenSocketFd := by
    intro fd hfd
    obtain ⟨e, he, rfl⟩ := mem_map.mp hfd
    rcases mem_entrants.mp he with he | ⟨fd, hnew, rfl⟩
    · obtain ⟨i, hpos, hi, rfl⟩ := mem_clients.mp he
      exact h.listening i hi hpos
    · exact (h.fresh fd true (newcomer_eq_some hnew)).2.1
  have hlength : (s.entrants userCounter accepted).length ≤ userCounter + 1 := by
    rw [entrants, length_append, length_map, clients, length_map,
      length_range']
    exact Nat.add_le_add_left Option.length_toList_le _
  obtain ⟨r, hr, hcourse⟩ := course_of_whileLoop accepted recv
    (hfirst.i ▸ Nat.one_ne_zero) (by rwa [hfirst.ahead, hfirst.listening])
    (hfirst.ahead ▸ hlength)
  refine ⟨_, r, hfirst, hcourse, ?_⟩
  rw [pollRound, whileLoop_round _ _ (goesOn_of_le (Nat.zero_le _)), hr]

/-- A round removes and reads what it should, exactly if the clients are in order. -/
theorem round_right_iff (recv : Int → Int) (h : Polled userCounter s accepted) :
    ∃ p, pollRound accepted recv userCounter s = some p ∧
      (Right userCounter s accepted recv p ↔ Orderly userCounter s accepted recv) := by
  obtain ⟨q, r, hfirst, hcourse, hr⟩ := pollRound_course recv h
  grind [orderly_of_right, right_of_orderly]

end Round

/-- A server with two clients that report these events. -/
def twoClients (first second : Revents) : Server where
  listenSocketFd := 3
  fds
    | 0 => { fd := 3, events := true }
    | 1 => { fd := 4, events := true, revents := first }
    | _ => { fd := 5, events := true, revents := second }
  clientIdConnections := [(1, 4), (2, 5)]

/-- The first client is read, and then the second is removed. -/
theorem secondHangUp_right :
    let s := twoClients { pollIn := true } { hangUp := true }
    Polled 2 s none ∧ Orderly 2 s none (fun _ => 1) ∧
      ∃ p, pollRound none (fun _ => 1) 2 s = some p ∧ Right 2 s none (fun _ => 1) p := by
  intro s
  have hpolled : Polled 2 s none :=
    ⟨by decide, by decide, by decide, ⟨by decide, by decide⟩, nofun⟩
  have horderly : Orderly 2 s none (fun _ => 1) :=
    ⟨by decide, by decide, by decide, nofun⟩
  obtain ⟨p, hp, hright⟩ := round_right_iff (fun _ => 1) hpolled
  exact ⟨hpolled, horderly, p, hp, hright.mpr horderly⟩

/-- The first client hangs up, and the second is removed as well. -/
theorem firstHangUp_removes_second :
    let s := twoClients { hangUp := true } {}
    ∃ p, pollRound none (fun _ => 1) 2 s = some p ∧ ¬ Right 2 s none (fun _ => 1) p := by
  intro s
  have hend : ∃ p, pollRound none (fun _ => 1) 2 s = some p ∧ (2, 5) ∉ p.server.live := by
    decide +kernel
  obtain ⟨p, hp, hgone⟩ := hend
  refine ⟨p, hp, fun hright => ?_⟩
  have hbad := (hright.removed (2, 5) (by decide)).mp hgone
  revert hbad
  decide

end Netstack.TlsServer
