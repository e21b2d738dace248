import Netstack.Foundation.Execution
import Netstack.TlsServer.Connections

/-!
# The loop of the poll thread

After `poll` the thread goes through the array once. An entry that is dropped is replaced with the
last one, which keeps the events of the entry it replaces. After a hang-up the same entry is looked
at again, after a receive that fails the next one.

## Implementation notes

`visits` records the descriptor and the events of each entry that the thread looks at.
-/

namespace Netstack.TlsServer

open Foundation.Execution List Server

namespace Revents

def hungUp (r : Revents) : Bool := r.hangUp || r.error

/-- There is something to receive, and no hang-up. -/
def readable (r : Revents) : Bool := r.pollIn && !r.hungUp

theorem hungUp_of_readable {r : Revents} (h : r.readable = true) : r.hungUp = false := by
  simpa using (Bool.and_eq_true_iff.mp h).2

end Revents

/-- A descriptor and the events that `poll` reports for it. -/
abbrev Entry := Int × Revents

def Server.entry (s : Server) (i : Nat) : Entry := ((s.fds i).fd, (s.fds i).revents)

def Server.clients (s : Server) (userCounter : Nat) : List Entry :=
  (range' 1 userCounter).map s.entry

/-! ### The loop -/

structure Pass where
  i : Nat := 0
  userCounter : Nat
  server : Server
  exitLoop : Bool := false
  visits : List Entry := []

namespace Pass

/-- The entries that the loop has not reached. -/
def ahead (p : Pass) : List Entry :=
  (range' p.i (p.userCounter + 1 - p.i)).map p.server.entry

section Round

variable (accepted : Option (Int × Bool)) (recv : Int → Int)

/-- `accepted` is the descriptor that `accept` gives and the result of the handshake on it. -/
def accept (p : Pass) : Nat × Server :=
  match accepted with
  | none => (p.userCounter, p.server)
  | some (connectFD, handshake) =>
    p.server.processTcpAccept p.userCounter connectFD handshake

/-- The body of the loop; `recv` is what `Recv` returns on a descriptor. -/
def turn (p : Pass) : Pass :=
  let entry := p.server.fds p.i
  let visits := p.visits ++ [p.server.entry p.i]
  if entry.fd = p.server.listenSocketFd ∧ entry.revents.pollIn = true then
    { p with
      i := p.i + 1
      userCounter := (p.accept accepted).1
      server := (p.accept accepted).2
      visits }
  else if entry.revents.hungUp then
    let d := p.server.hangUp p.userCounter p.i
    { i := d.index + 1
      userCounter := d.userCounter
      server := d.server
      exitLoop := d.exitLoop
      visits }
  else if entry.revents.pollIn then
    let d := p.server.recvRemoteInfo p.userCounter p.i (recv entry.fd)
    { i := p.i + 1
      userCounter := d.userCounter
      server := d.server
      exitLoop := d.exitLoop
      visits }
  else { p with i := p.i + 1, visits }

/-- The condition of the loop. -/
def goesOn (p : Pass) : Bool := p.i < p.userCounter + 1

/-- The loop over the array; one client may come in while it runs. -/
def pollRound (userCounter : Nat) (s : Server) : Option Pass :=
  whileLoop goesOn (turn accepted recv) (userCounter + 2) { userCounter, server := s }

end Round

end Pass

/-! ### Entries ahead of the loop -/

variable (r : Revents)

/-- The last entry is moved to the front, and gets these events. -/
def shifted (tail : List Entry) : List Entry :=
  match tail.getLast? with
  | none => []
  | some x => (x.1, r) :: tail.dropLast

@[simp] theorem shifted_nil : shifted r [] = [] := rfl

@[simp] theorem shifted_concat (mid : List Entry) (x : Entry) :
    shifted r (mid ++ [x]) = (x.1, r) :: mid := by
  rw [shifted, getLast?_concat, dropLast_concat]

theorem shifted_perm (tail : List Entry) :
    ((shifted r tail).map Prod.fst).Perm (tail.map Prod.fst) := by
  rcases eq_nil_or_concat tail with rfl | ⟨mid, x, rfl⟩
  · exact List.Perm.refl _
  · rw [concat_eq_append, shifted_concat, map_append, map_cons]
    grind

theorem entry_hangUp (s : Server) {userCounter index : Nat} (hindex : index ≠ 0) (j : Nat) :
    (s.hangUp userCounter index).server.entry j =
      if j = userCounter then (-1, (s.fds userCounter).revents)
      else if j = index then ((s.fds userCounter).fd, (s.fds index).revents)
      else s.entry j := by
  have hfds : (s.hangUp userCounter index).server.fds = s.dropped userCounter index := by
    simp only [hangUp, dropped, dropFdFromPollList, if_neg hindex]
    rfl
  rw [entry, hfds, s.dropped_apply hindex]
  split
  · rename_i hlast
    rw [hlast]
  split
  · rename_i hj
    rw [hj]
  · rfl

variable {p q r : Pass} {e : Entry} {tail : List Entry} {s t : Server}

namespace Pass

/-- The entries after the one the loop is at. -/
def behind (p : Pass) : List Entry :=
  (range' (p.i + 1) (p.userCounter - p.i)).map p.server.entry

theorem ahead_cons (h : p.i ≤ p.userCounter) : p.ahead = p.server.entry p.i :: p.behind := by
  rw [ahead, show p.userCounter + 1 - p.i = p.userCounter - p.i + 1 by omega, range'_succ,
    map_cons, behind]

theorem ahead_eq_nil : p.ahead = [] ↔ p.userCounter < p.i := by
  rw [ahead, map_eq_nil_iff, range'_eq_nil_iff]
  omega

theorem goesOn_of_le (h : p.i ≤ p.userCounter) : p.goesOn = true :=
  decide_eq_true (Nat.lt_succ_of_le h)

theorem goesOn_of_ahead (h : p.ahead = []) : p.goesOn = false :=
  decide_eq_false (not_lt.mpr (ahead_eq_nil.mp h))

/-- An entry that is not dropped is left behind. -/
theorem ahead_next (hi : q.i = p.i + 1) (hcounter : q.userCounter = p.userCounter)
    (hentry : q.server.entry = p.server.entry) : q.ahead = p.behind := by
  rw [ahead, behind, hi, hcounter, hentry, Nat.add_sub_add_right]

/-- The entry the loop is at is dropped from the array. -/
structure Drops (p q : Pass) : Prop where
  counter : q.userCounter = p.userCounter - 1
  entry : ∀ j, q.server.entry j =
    if j = p.userCounter then (-1, (p.server.fds p.userCounter).revents)
    else if j = p.i then ((p.server.fds p.userCounter).fd, (p.server.fds p.i).revents)
    else p.server.entry j

/-- The entries between the one that is dropped and the last stay. -/
theorem Drops.map_entry (h : Drops p q) {k : Nat} (hk : p.i + 1 + k ≤ p.userCounter) :
    (range' (p.i + 1) k).map q.server.entry =
      (range' (p.i + 1) k).map p.server.entry := by
  refine map_congr_left fun j hj => ?_
  grind [@h.entry]

/-- After a hang-up the loop stays at the entry. -/
theorem Drops.ahead_again (h : Drops p q) (hpos : p.i ≠ 0)
    (hle : p.i ≤ p.userCounter) (hi : q.i = p.i) :
    q.ahead = shifted (p.server.fds p.i).revents p.behind := by
  rcases Nat.eq_or_lt_of_le hle with hlast | hlt
  · rw [behind, ← hlast, Nat.sub_self, range'_zero, map_nil, shifted_nil,
      ahead_eq_nil, h.counter]
    omega
  · obtain ⟨k, hk⟩ := Nat.exists_eq_add_of_lt hlt
    have hbehind : p.behind =
        (range' (p.i + 1) k).map p.server.entry ++ [p.server.entry p.userCounter] := by
      rw [behind, show p.userCounter - p.i = k + 1 by omega, range'_1_concat,
        map_append, map_singleton, show p.i + 1 + k = p.userCounter by omega]
    rw [hbehind, shifted_concat, ahead, h.counter, hi,
      show p.userCounter - 1 + 1 - p.i = k + 1 by omega, range'_succ, map_cons,
      h.map_entry (by omega), h.entry, if_neg (by omega), if_pos rfl]
    rfl

/-- After a receive that fails the loop goes on. -/
theorem Drops.ahead_next (h : Drops p q) (hi : q.i = p.i + 1) : q.ahead = p.behind.dropLast := by
  rw [ahead, h.counter, hi]
  cases hk : p.userCounter - p.i with
  | zero =>
    grind [behind]
  | succ k =>
    rw [behind, hk, show p.userCounter - 1 + 1 - (p.i + 1) = k by omega,
      range'_1_concat, map_append, map_singleton, dropLast_concat]
    exact h.map_entry (by omega)

/-! ### What the loop does about a client -/

/-- There is something to receive from the client, but it fails. -/
def Fails (recv : Int → Int) (s : Server) (e : Entry) : Prop :=
  e.2.readable = true ∧ ¬ (0 < recv e.1 ∧ s.connected e.1)

/-- The loop has looked at a client. -/
structure Looks (p q : Pass) (e : Entry) : Prop where
  visits : q.visits = p.visits ++ [e]
  listening : q.server.listenSocketFd = p.server.listenSocketFd
  client : q.i ≠ 0

/-- What a round of the loop does about the client at its entry, and about those behind it. -/
inductive Turn (recv : Int → Int) (p q : Pass) (e : Entry) (tail : List Entry) : Prop
  | hungUp (hlooks : Looks p q e) (he : e.2.hungUp = true) (hahead : q.ahead = shifted e.2 tail)
      (hmap : q.server.clientIdConnections =
        p.server.clientIdConnections.eraseP fun c => c.2 = e.1)
      (hreads : q.server.reads = p.server.reads)
  | failed (hlooks : Looks p q e) (he : Fails recv p.server e) (hahead : q.ahead = tail.dropLast)
      (hmap : q.server.clientIdConnections =
        p.server.clientIdConnections.eraseP fun c => c.2 = e.1)
      (hreads : q.server.reads =
        p.server.reads ++ if p.server.connected e.1 then [e.1] else [])
  | passed (hlooks : Looks p q e) (hhungUp : e.2.hungUp = false)
      (hfails : ¬ Fails recv p.server e) (hahead : q.ahead = tail)
      (hmap : q.server.clientIdConnections = p.server.clientIdConnections)
      (hreads : q.server.reads = p.server.reads ++ if e.2.readable = true then [e.1] else [])

theorem hangUp_server (s : Server) (userCounter : Nat) {index : Nat} (hindex : index ≠ 0) :
    (s.hangUp userCounter index).userCounter = userCounter - 1 ∧
      (s.hangUp userCounter index).index = index - 1 ∧
      (s.hangUp userCounter index).server.listenSocketFd = s.listenSocketFd ∧
      (s.hangUp userCounter index).server.clientIdConnections =
        s.clientIdConnections.eraseP (fun c => c.2 = (s.fds index).fd) ∧
      (s.hangUp userCounter index).server.reads = s.reads := by
  unfold hangUp dropFdFromPollList
  rw [if_neg hindex]
  exact ⟨rfl, rfl, rfl, rfl, rfl⟩

theorem find?_isSome_iff (s : Server) (fd : Int) :
    (s.clientIdConnections.find? fun c => c.2 = fd).isSome = true ↔ s.connected fd := by
  rw [find?_isSome]
  simp only [decide_eq_true_eq, connected]

/-- A receive that fails is a hang-up, after the read if there is a connection to read from. -/
theorem recvRemoteInfo_eq (userCounter index : Nat) (len : Int) (s : Server) :
    s.recvRemoteInfo userCounter index len =
      if 0 < len ∧ s.connected (s.fds index).fd then
        { userCounter, index, server := { s with reads := s.reads ++ [(s.fds index).fd] }
          exitLoop := false }
      else
        { s with
          reads := s.reads ++ if s.connected (s.fds index).fd then [(s.fds index).fd] else []
        }.hangUp userCounter index := by
  have hconnected := find?_isSome_iff s (s.fds index).fd
  rw [recvRemoteInfo]
  cases hfind : s.clientIdConnections.find? fun c => c.2 = (s.fds index).fd with
  | none =>
    rw [hfind] at hconnected
    have hnone : ¬ s.connected (s.fds index).fd := fun h => Bool.noConfusion (hconnected.mpr h)
    simp only [if_neg hnone, append_nil]
    rw [if_neg fun h => hnone h.2]
  | some c =>
    grind

/-- Only what was read may differ when the entry is dropped. -/
theorem drops_of_hangUp (reads : List Int) (hpos : p.i ≠ 0)
    (hcounter : q.userCounter = p.userCounter - 1)
    (hserver : q.server = ({ p.server with reads }.hangUp p.userCounter p.i).server) :
    Drops p q where
  counter := hcounter
  entry j := by
    rw [hserver, entry_hangUp _ hpos]
    rfl

variable (accepted : Option (Int × Bool))

theorem turn_client (recv : Int → Int)
    (hpos : p.i ≠ 0) (hle : p.i ≤ p.userCounter)
    (hclient : (p.server.entry p.i).1 ≠ p.server.listenSocketFd) :
    Turn recv p (turn accepted recv p) (p.server.entry p.i) p.behind := by
  have hlisten : ¬ ((p.server.fds p.i).fd = p.server.listenSocketFd ∧
      (p.server.fds p.i).revents.pollIn = true) := fun h => hclient h.1
  by_cases hhung : (p.server.fds p.i).revents.hungUp = true
  · obtain ⟨hcounter, hindex, hlistening, hmap, hreads⟩ :=
      hangUp_server p.server p.userCounter hpos
    have hi : (p.server.hangUp p.userCounter p.i).index + 1 = p.i := by omega
    simp only [turn, if_neg hlisten, if_pos hhung, hi]
    refine .hungUp ⟨rfl, hlistening, hpos⟩ hhung ?_ hmap hreads
    exact (drops_of_hangUp p.server.reads hpos hcounter rfl).ahead_again hpos hle rfl
  have hhung := Bool.eq_false_iff.mpr hhung
  by_cases hin : (p.server.fds p.i).revents.pollIn = true
  · have hreadable : (p.server.fds p.i).revents.readable = true := by
      rw [Revents.readable, hin, hhung]
      rfl
    simp only [turn, if_neg hlisten, hhung, Bool.false_eq_true, if_false, if_pos hin,
      recvRemoteInfo_eq]
    by_cases hrecv : 0 < recv (p.server.fds p.i).fd ∧ p.server.connected (p.server.fds p.i).fd
    · simp only [if_pos hrecv]
      refine .passed ⟨rfl, rfl, Nat.succ_ne_zero _⟩ hhung (fun h => h.2 hrecv)
        (ahead_next rfl rfl rfl) rfl ?_
      rw [entry, if_pos hreadable]
    · simp only [if_neg hrecv]
      obtain ⟨hcounter, -, hlistening, hmap, hreads⟩ := hangUp_server
        { p.server with
          reads := p.server.reads ++
            if p.server.connected (p.server.fds p.i).fd then [(p.server.fds p.i).fd] else [] }
        p.userCounter hpos
      refine .failed ⟨rfl, hlistening, Nat.succ_ne_zero _⟩ ⟨hreadable, hrecv⟩ ?_ hmap hreads
      exact (drops_of_hangUp _ hpos hcounter rfl).ahead_next rfl
  · have hreadable : (p.server.fds p.i).revents.readable = false := by
      rw [Revents.readable, Bool.eq_false_iff.mpr hin]
      rfl
    simp only [turn, if_neg hlisten, hhung, Bool.false_eq_true, if_false, if_neg hin]
    have hquiet : ¬ (p.server.fds p.i).revents.readable = true := Bool.eq_false_iff.mp hreadable
    refine .passed ⟨rfl, rfl, Nat.succ_ne_zero _⟩ hhung (fun h => hquiet h.1)
      (ahead_next rfl rfl rfl) rfl ?_
    rw [entry, if_neg hquiet, append_nil]

/-- The loop from a client on. -/
inductive Course (recv : Int → Int) : Pass → Pass → Prop
  | done {p : Pass} (h : p.ahead = []) : Course recv p p
  | turn {p q r : Pass} {e : Entry} {tail : List Entry} (h : p.ahead = e :: tail)
      (hturn : Turn recv p q e tail) (hcourse : Course recv q r) : Course recv p r

variable {recv : Int → Int}

/-- No client is ahead that was not, and there is one client less at least. -/
theorem Turn.shrinks (h : Turn recv p q e tail) :
    (q.ahead.map Prod.fst).Subperm (tail.map Prod.fst) := by
  cases h with
  | hungUp hlooks he hahead hmap hreads =>
    rw [hahead]
    exact (shifted_perm e.2 tail).subperm
  | failed hlooks he hahead hmap hreads =>
    rw [hahead]
    exact (tail.dropLast_sublist.map Prod.fst).subperm
  | passed hlooks hhungUp hfails hahead hmap hreads => rw [hahead]

theorem Turn.looks (h : Turn recv p q e tail) : Looks p q e := by
  cases h <;> assumption

/-- The loop ends, since no other client comes in while it is at a client. -/
theorem course_of_whileLoop (recv : Int → Int) {n : Nat}
    (hpos : p.i ≠ 0) (hclients : ∀ fd ∈ p.ahead.map Prod.fst, fd ≠ p.server.listenSocketFd)
    (hn : p.ahead.length ≤ n) :
    ∃ q, whileLoop goesOn (Pass.turn accepted recv) n p = some q ∧ Course recv p q := by
  induction n generalizing p with
  | zero =>
    have hnil := length_eq_zero_iff.mp (Nat.le_zero.mp hn)
    exact ⟨p, whileLoop_exit _ _ (goesOn_of_ahead hnil) 0, .done hnil⟩
  | succ n ih =>
    by_cases hle : p.i ≤ p.userCounter
    · have hahead := ahead_cons hle
      rw [hahead] at hclients hn
      obtain ⟨hclient, hbehind⟩ := forall_mem_cons.mp hclients
      have hturn := turn_client accepted recv hpos hle hclient
      have hlength := hturn.shrinks.length_le
      rw [length_map, length_map] at hlength
      rw [whileLoop_round _ _ (goesOn_of_le hle)]
      obtain ⟨q, hq, hcourse⟩ := ih hturn.looks.client
        (fun fd hfd => hturn.looks.listening ▸ hbehind fd (hturn.shrinks.subset hfd))
        (hlength.trans (Nat.le_of_succ_le_succ hn))
      exact ⟨q, hq, .turn hahead hturn hcourse⟩
    · have hnil := ahead_eq_nil.mpr (not_le.mp hle)
      exact ⟨p, whileLoop_exit _ _ (goesOn_of_ahead hnil) _, .done hnil⟩

/-- A client may come before another: receiving from it does not fail, and if it hung up, the other
reports the same. -/
def Before (recv : Int → Int) (s : Server) (e x : Entry) : Prop :=
  ¬ Fails recv s e ∧ (e.2.hungUp = true → x.2 = e.2)

section

variable (h : t.clientIdConnections = s.clientIdConnections)
include h

theorem connected_congr (fd : Int) : t.connected fd ↔ s.connected fd := by
  rw [connected, connected, h]

theorem fails_congr (e : Entry) : Fails recv t e ↔ Fails recv s e := by
  rw [Fails, Fails, connected_congr h]

theorem pairwise_congr {es : List Entry} :
    es.Pairwise (Before recv t) ↔ es.Pairwise (Before recv s) := by
  apply List.Pairwise.iff
  intro e x
  rw [Before, Before, fails_congr h]

end

namespace Course

variable (h : Course recv p r)
include h

/-- The loop looks at most once at each client. -/
theorem visits_le : r.visits.length ≤ p.visits.length + p.ahead.length := by
  induction h with
  | done h => exact Nat.le_add_right _ _
  | turn h hturn hcourse ih =>
    have hlength := hturn.shrinks.length_le
    rw [length_map, length_map] at hlength
    rw [hturn.looks.visits, length_append] at ih
    grind

theorem eq_of_ahead (hahead : p.ahead = []) : r = p := by
  cases h with
  | done h => rfl
  | turn h hturn hcourse =>
    rw [hahead] at h
    cases h

/-- After a hang-up all clients ahead are taken for hung up. -/
theorem cascade (hahead : p.ahead = e :: tail) (he : e.2.hungUp = true)
    (hapart : (p.server.live.map Prod.snd).Nodup) :
    ∃ fds : List Int, r.visits = p.visits ++ fds.map (fun fd => (fd, e.2)) ∧
      fds.Perm (p.ahead.map Prod.fst) ∧ r.server.reads = p.server.reads ∧
      ∀ c, c ∈ r.server.live ↔ c ∈ p.server.live ∧ c.2 ∉ fds := by
  induction h generalizing e tail with
  | done h =>
    rw [hahead] at h
    cases h
  | @turn p q r e' tail' h hturn hcourse ih =>
    obtain ⟨rfl, rfl⟩ := cons.inj (hahead.symm.trans h)
    cases hturn with
    | hungUp hlooks _ hq hmap hreads =>
      have hlive : ∀ c, c ∈ q.server.live ↔ c ∈ p.server.live ∧ c.2 ≠ e.1 := by
        intro c
        rw [Server.live, hmap]
        exact mem_filter_eraseP hapart
      have hqapart : (q.server.live.map Prod.snd).Nodup := by
        refine hapart.sublist (List.Sublist.map Prod.snd ?_)
        grind [Server.live]
      rw [hahead, map_cons]
      rcases eq_nil_or_concat tail with rfl | ⟨mid, x, rfl⟩
      · obtain rfl := hcourse.eq_of_ahead hq
        refine ⟨[e.1], hlooks.visits, List.Perm.refl _, hreads, fun c => ?_⟩
        rw [hlive, mem_singleton]
      · rw [concat_eq_append] at hq ⊢
        rw [shifted_concat] at hq
        obtain ⟨fds, hvisits, hperm, hsame, hrest⟩ := ih hq he hqapart
        refine ⟨e.1 :: fds, ?_, ?_, hsame.trans hreads, fun c => ?_⟩
        · rw [hvisits, hlooks.visits, append_assoc, map_cons]
          rfl
        · refine (hperm.trans ?_).cons e.1
          rw [hq, ← shifted_concat]
          exact shifted_perm e.2 _
        · rw [hrest, hlive, mem_cons, not_or, and_assoc]
    | failed _ hfails _ _ _ =>
      rw [Revents.hungUp_of_readable hfails.1] at he
      cases he
    | passed _ hhungUp _ _ _ _ =>
      rw [hhungUp] at he
      cases he

/-- If no client was skipped, or taken for another, the clients are in order. -/
theorem ordered (hapart : (p.server.live.map Prod.snd).Nodup)
    (hvisits : r.visits.Perm (p.visits ++ p.ahead)) : p.ahead.Pairwise (Before recv p.server) := by
  induction h with
  | done h =>
    rw [h]
    exact List.Pairwise.nil
  | @turn p q r e tail h hturn hcourse ih =>
    cases id hturn with
    | hungUp hlooks he hq hmap hreads =>
      obtain ⟨fds, hfds, -, -, -⟩ := (Course.turn h hturn hcourse).cascade h he hapart
      rw [hfds, perm_append_left_iff] at hvisits
      have hsame : ∀ x ∈ p.ahead, x.2 = e.2 := by
        grind
      refine pairwise_of_forall_mem_list fun a ha b hb => ⟨fun hfails => ?_, fun _ => ?_⟩
      · have hhungUp := Revents.hungUp_of_readable hfails.1
        grind
      · rw [hsame a ha, hsame b hb]
    | failed hlooks he hq hmap hreads =>
      rw [h] at hvisits ⊢
      have hlength := hvisits.length_eq
      have hle := hcourse.visits_le
      rw [hlooks.visits, hq] at hle
      simp only [length_append, length_cons, length_nil,
        length_dropLast] at hlength hle
      have htail : tail = [] := length_eq_zero_iff.mp (by omega)
      rw [htail]
      exact pairwise_singleton _ _
    | passed hlooks hhungUp hfails hq hmap hreads =>
      rw [h, pairwise_cons, ← pairwise_congr hmap, ← hq]
      refine ⟨fun x _ => ⟨hfails, fun hhung => ?_⟩, ih ?_ ?_⟩
      · rw [hhungUp] at hhung
        cases hhung
      · rwa [Server.live, hmap]
      grind [@hlooks.visits]

end Course

/-- The descriptors that are read. -/
def received (s : Server) (es : List Entry) : List Int :=
  (es.filter fun e => e.2.readable && decide (s.connected e.1)).map Prod.fst

theorem received_congr (h : t.clientIdConnections = s.clientIdConnections)
    (es : List Entry) : received t es = received s es := by
  simp only [received, connected_congr h]

theorem received_cons (s : Server) (e : Entry) (es : List Entry) :
    received s (e :: es) =
      (if e.2.readable = true ∧ s.connected e.1 then [e.1] else []) ++ received s es := by
  rw [received, filter_cons]
  simp only [Bool.and_eq_true, decide_eq_true_eq]
  split
  · rfl
  · rfl

/-- What the loop has done about the clients ahead, if they are in order. -/
structure Outcome (recv : Int → Int) (p r : Pass) : Prop where
  visits : r.visits.Perm (p.visits ++ p.ahead)
  reads : r.server.reads = p.server.reads ++ received p.server p.ahead
  live : ∀ c, c ∈ r.server.live ↔ c ∈ p.server.live ∧
    ∀ e ∈ p.ahead, e.1 = c.2 → e.2.hungUp = false ∧ ¬ Fails recv p.server e

theorem Outcome.passed
    (hahead : p.ahead = e :: tail) (hlooks : Looks p q e) (hhungUp : e.2.hungUp = false)
    (hfails : ¬ Fails recv p.server e) (hq : q.ahead = tail)
    (hmap : q.server.clientIdConnections = p.server.clientIdConnections)
    (hreads : q.server.reads = p.server.reads ++ if e.2.readable = true then [e.1] else [])
    (h : Outcome recv q r) : Outcome recv p r where
  visits := by
    have hvisits := h.visits
    rwa [hlooks.visits, hq, append_assoc, singleton_append, ← hahead] at hvisits
  reads := by
    have hconnected : e.2.readable = true → p.server.connected e.1 := by
      intro hreadable
      by_contra hnone
      exact hfails ⟨hreadable, fun hrecv => hnone hrecv.2⟩
    rw [h.reads, hreads, hahead, hq, received_congr hmap, received_cons, append_assoc]
    simp only [and_iff_left_of_imp hconnected]
  live c := by
    rw [h.live, hahead, hq, forall_mem_cons, Server.live, hmap]
    simp only [fails_congr hmap]
    refine and_congr_right fun _ => ?_
    exact ⟨fun hrest => ⟨fun _ => ⟨hhungUp, hfails⟩, hrest⟩, fun hall => hall.2⟩

/-- All clients ahead report the same hang-up. -/
theorem Outcome.hungUp (h : Course recv p r) (hahead : p.ahead = e :: tail) (he : e.2.hungUp = true)
    (hapart : (p.server.live.map Prod.snd).Nodup) (hsame : ∀ x ∈ p.ahead, x.2 = e.2) :
    Outcome recv p r := by
  obtain ⟨fds, hvisits, hperm, hreads, hlive⟩ := h.cascade hahead he hapart
  have hfds : (p.ahead.map Prod.fst).map (fun fd => (fd, e.2)) = p.ahead := by
    rw [map_map]
    refine (map_congr_left fun x hx => ?_).trans (map_id _)
    exact Prod.ext rfl (hsame x hx).symm
  have hquiet : received p.server p.ahead = [] := by
    rw [received, map_eq_nil_iff, filter_eq_nil_iff]
    intro x hx hreadable
    have hhungUp := Revents.hungUp_of_readable (Bool.and_eq_true_iff.mp hreadable).1
    rw [hsame x hx, he] at hhungUp
    cases hhungUp
  constructor
  · rw [hvisits, perm_append_left_iff, ← hfds]
    exact hperm.map _
  · rw [hreads, hquiet, append_nil]
  · intro c
    rw [hlive, hperm.mem_iff]
    refine and_congr_right fun _ => ⟨fun hc x hx hfd => ?_, fun hc hfd => ?_⟩
    · exact (hc (mem_map.mpr ⟨x, hx, hfd⟩)).elim
    · obtain ⟨x, hx, hfd⟩ := mem_map.mp hfd
      have hhungUp := (hc x hx hfd).1
      rw [hsame x hx, he] at hhungUp
      cases hhungUp

theorem Course.outcome (h : Course recv p r) (hapart : (p.server.live.map Prod.snd).Nodup)
    (hordered : p.ahead.Pairwise (Before recv p.server)) : Outcome recv p r := by
  induction h with
  | @done p h =>
    constructor
    · rw [h, append_nil]
    · rw [h]
      exact (append_nil _).symm
    grind
  | @turn p q r e tail h hturn hcourse ih =>
    rw [h, pairwise_cons] at hordered
    obtain ⟨hhead, htail⟩ := hordered
    cases id hturn with
    | hungUp hlooks he hq hmap hreads =>
      refine Outcome.hungUp (.turn h hturn hcourse) h he hapart ?_
      rw [h, forall_mem_cons]
      exact ⟨rfl, fun x hx => (hhead x hx).2 he⟩
    | failed hlooks he hq hmap hreads =>
      obtain rfl : tail = [] := eq_nil_iff_forall_not_mem.mpr fun x hx =>
        (hhead x hx).1 he
      obtain rfl := hcourse.eq_of_ahead hq
      constructor
      · rw [hlooks.visits, h]
      · rw [hreads, h, received_cons]
        simp only [he.1, true_and]
        exact congrArg _ (append_nil _).symm
      · intro c
        rw [Server.live, hmap, mem_filter_eraseP hapart, h]
        refine and_congr_right fun _ => ⟨fun hne x hx hfd => ?_, fun hall hfd => ?_⟩
        · obtain rfl := mem_singleton.mp hx
          exact (hne hfd.symm).elim
        · exact (hall e mem_cons_self hfd.symm).2 he
    | passed hlooks hhungUp hfails hq hmap hreads =>
      refine Outcome.passed h hlooks hhungUp hfails hq hmap hreads (ih ?_ ?_)
      · rwa [Server.live, hmap]
      · rwa [pairwise_congr hmap, hq]

end Pass

end Netstack.TlsServer
