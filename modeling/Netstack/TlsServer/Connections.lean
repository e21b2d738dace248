import Netstack.TlsServer.Server

/-!
# The map of connections

An accept assigns the map at the new id. A client that leaves is looked up by its descriptor and
erased. A connection that the application closes stays in the map, with the descriptor `-1`.

## Implementation notes

`Effect` says once what an operation does to the counter, the array and the map. In every run the
ids in the map are in order, and the connections that are open have descriptors of their own.
-/

namespace Netstack.TlsServer

open List Prod

/-! ### The map of connections -/

/-- Nothing is in the map but what was there, and the new connection. -/
theorem assign_subperm (clientID : Nat) (socketFd : Int) (cs : List Connection) :
    (assign clientID socketFd cs).Subperm ((clientID, socketFd) :: cs) := by
  induction cs with
  | nil => exact List.Subperm.refl _
  | cons d cs ih =>
    rw [assign]
    split
    · exact List.Subperm.refl _
    split
    · exact ((sublist_cons_self d cs).cons_cons _).subperm
    · exact ((subperm_cons d).mpr ih).trans (List.Perm.swap _ _ _).subperm

variable {clientID : Nat} {socketFd : Int} {cs : List Connection} {c : Connection}

theorem mem_assign (h : c ∈ assign clientID socketFd cs) : c = (clientID, socketFd) ∨ c ∈ cs :=
  mem_cons.mp ((assign_subperm clientID socketFd cs).subset h)

/-- Connections with other ids stay. -/
theorem mem_assign_of_mem (h : c ∈ cs)
    (hne : c.1 ≠ clientID) (socketFd : Int) : c ∈ assign clientID socketFd cs := by
  induction cs with
  | nil => cases h
  | cons d cs ih =>
    rw [assign]
    grind

theorem mem_assign_self (clientID : Nat) (socketFd : Int) (cs : List Connection) :
    (clientID, socketFd) ∈ assign clientID socketFd cs := by
  induction cs with
  | nil => exact mem_singleton.mpr rfl
  | cons d cs ih =>
    rw [assign]
    grind

/-- The ids stay in order. -/
theorem sorted_assign (clientID : Nat) (socketFd : Int) (h : cs.Pairwise fun c d => c.1 < d.1) :
    (assign clientID socketFd cs).Pairwise fun c d => c.1 < d.1 := by
  induction cs with
  | nil => exact pairwise_singleton _ _
  | cons d cs ih =>
    obtain ⟨hhead, htail⟩ := pairwise_cons.mp h
    rw [assign]
    split
    · rename_i hlt
      refine pairwise_cons.mpr ⟨forall_mem_cons.mpr ⟨hlt, fun c hc => ?_⟩, h⟩
      exact hlt.trans (hhead c hc)
    split
    · rename_i hsame
      exact pairwise_cons.mpr ⟨fun c hc => hsame ▸ hhead c hc, htail⟩
    · rename_i hge hne
      refine pairwise_cons.mpr ⟨fun c hc => ?_, ih htail⟩
      rcases mem_assign hc with rfl | hc
      · exact lt_of_le_of_ne (not_lt.mp hge) (Ne.symm hne)
      · exact hhead c hc

/-- A connection with the id is replaced. -/
theorem eq_of_mem_assign
    (hsorted : cs.Pairwise fun c d => c.1 < d.1) (h : c ∈ assign clientID socketFd cs)
    (hid : c.1 = clientID) : c = (clientID, socketFd) := by
  have hids : ((assign clientID socketFd cs).map fst).Nodup :=
    pairwise_map.mpr ((sorted_assign clientID socketFd hsorted).imp fun hlt => hlt.ne)
  exact inj_on_of_nodup_map hids h (mem_assign_self clientID socketFd cs) hid

/-- A new id adds a connection to those that are there. -/
theorem assign_perm (h : ∀ c ∈ cs, c.1 ≠ clientID)
    (socketFd : Int) : (assign clientID socketFd cs).Perm ((clientID, socketFd) :: cs) := by
  induction cs with
  | nil => exact List.Perm.refl _
  | cons d cs ih =>
    rw [assign]
    grind

/-! ### Live connections -/

theorem isLive_iff : isLive c = true ↔ c.2 ≠ -1 := decide_eq_true_iff

/-- If no two live connections share a descriptor, none has one that was removed. -/
theorem filter_eraseP_ne (hfds : ((cs.filter isLive).map snd).Nodup)
    (hc : c ∈ (cs.eraseP fun d => d.2 = socketFd).filter isLive) : c.2 ≠ socketFd := by
  induction cs with
  | nil => cases hc
  | cons d cs ih =>
    have hrest : ((cs.filter isLive).map snd).Nodup :=
      hfds.sublist (((sublist_cons_self d cs).filter isLive).map snd)
    by_cases hd : d.2 = socketFd
    · rw [eraseP_cons_of_pos (by simpa using hd)] at hc
      intro hfd
      have hlive : isLive d = true := by
        grind [isLive_iff]
      rw [filter_cons_of_pos hlive, map_cons, nodup_cons] at hfds
      grind
    grind

/-- Removing a descriptor leaves the live connections that have another. -/
theorem mem_filter_eraseP (hfds : ((cs.filter isLive).map snd).Nodup) :
    c ∈ (cs.eraseP fun d => d.2 = socketFd).filter isLive ↔
      c ∈ cs.filter isLive ∧ c.2 ≠ socketFd := by
  constructor
  · intro hc
    exact ⟨(eraseP_sublist.filter isLive).subset hc, filter_eraseP_ne hfds hc⟩
  grind

/-- A descriptor that is not open makes no two connections share one. -/
theorem apart_assign (hfd : 0 ≤ socketFd) (hfresh : ∀ c ∈ cs.filter isLive, c.2 ≠ socketFd)
    (hapart : ((cs.filter isLive).map snd).Nodup) :
    (((assign clientID socketFd cs).filter isLive).map snd).Nodup := by
  obtain ⟨ds, hperm, hsub⟩ := assign_subperm clientID socketFd cs
  rw [← ((hperm.filter isLive).map snd).nodup_iff]
  refine List.Nodup.sublist ((hsub.filter isLive).map snd) ?_
  rw [filter_cons_of_pos (isLive_iff.mpr (by omega)), map_cons, nodup_cons]
  grind

namespace Server

theorem live_close (s : Server) (clientID : Nat) :
    (s.close clientID).live = s.live.filter fun c => c.1 ≠ clientID := by
  simp only [live, close]
  induction s.clientIdConnections with
  | nil => rfl
  | cons c cs ih =>
    grind [isLive]

end Server

/-! ### What an operation does -/

variable {userCounter : Nat} {s : Server} {e : Event} {index : Nat} {t : Server}

namespace Server

/-- Only the entry of the listening socket may have changed in the array. -/
def SameClients (s t : Server) : Prop := ∀ i, i ≠ 0 → t.fds i = s.fds i

/-- The entry of the array is dropped, and the last one put in its place. -/
def dropped (s : Server) (userCounter index : Nat) : Nat → PollFd :=
  (s.dropFdFromPollList userCounter index).server.fds

theorem dropped_apply (s : Server) (hindex : index ≠ 0) (j : Nat) :
    s.dropped userCounter index j =
      if j = userCounter then { fd := -1, events := false, revents := (s.fds j).revents }
      else if j = index then { s.fds j with fd := (s.fds userCounter).fd }
      else s.fds j := by
  simp only [dropped, dropFdFromPollList, if_neg hindex, setFd]
  grind

/-- The effect of an operation on the counter, the array and the map. -/
inductive Effect (userCounter : Nat) (s : Server) (e : Event) : Nat → Server → Prop
  | kept {t : Server} (hsame : s.SameClients t)
      (hmap : t.clientIdConnections = s.clientIdConnections)
      (hrefusals : t.refusals = s.refusals ∨ (∃ connectFD, e = .accept connectFD true) ∧
        userLimit ≤ userCounter ∧ t.refusals = s.refusals ++ [s.live.length]) :
      Effect userCounter s e userCounter t
  | added {t : Server} (connectFD : Int) (he : e = .accept connectFD true)
      (hlimit : userCounter < userLimit)
      (hfds : t.fds = Function.update s.fds (userCounter + 1) { fd := connectFD, events := true })
      (hmap : t.clientIdConnections =
        assign (userCounter + 1) connectFD s.clientIdConnections)
      (hrefusals : t.refusals = s.refusals) :
      Effect userCounter s e (userCounter + 1) t
  | unlisted {t : Server} (he : s.drops e = some 0) (hsame : s.SameClients t)
      (hmap : t.clientIdConnections =
        s.clientIdConnections.eraseP fun c => c.2 = (s.fds 0).fd)
      (hrefusals : t.refusals = s.refusals) :
      Effect userCounter s e userCounter t
  | removed {t : Server} (index : Nat) (he : s.drops e = some index) (hindex : index ≠ 0)
      (hfds : t.fds = s.dropped userCounter index)
      (hmap : t.clientIdConnections =
        s.clientIdConnections.eraseP fun c => c.2 = (s.fds index).fd)
      (hrefusals : t.refusals = s.refusals) :
      Effect userCounter s e (userCounter - 1) t
  | closed (clientID : Nat) (he : e = .close clientID) :
      Effect userCounter s e userCounter (s.close clientID)

/-- The descriptors that were read play no part in it. -/
theorem effect_hangUp (reads : List Int) (he : s.drops e = some index) :
    Effect userCounter s e ({ s with reads }.hangUp userCounter index).userCounter
      ({ s with reads }.hangUp userCounter index).server := by
  by_cases hindex : index = 0
  · subst hindex
    refine .unlisted he ?_ rfl rfl
    intro i hi
    simp only [hangUp, dropFdFromPollList, if_true, setFd]
    exact Function.update_of_ne hi _ _
  · simp only [hangUp, dropFdFromPollList, if_neg hindex]
    refine .removed index he hindex ?_ rfl rfl
    simp only [dropped, dropFdFromPollList, if_neg hindex]
    rfl

theorem effect_handle (userCounter : Nat) (s : Server) (e : Event) :
    Effect userCounter s e (s.handle userCounter e).1 (s.handle userCounter e).2 := by
  cases e with
  | listen listenFd =>
    refine .kept ?_ rfl (Or.inl rfl)
    intro i hi
    exact Function.update_of_ne hi _ _
  | accept connectFD handshake =>
    cases handshake with
    | false => exact .kept (fun _ _ => rfl) rfl (Or.inl rfl)
    | true =>
      simp only [handle, processTcpAccept, setTlsConnectionSecureOptions, Bool.not_true,
        Bool.false_eq_true, if_false]
      by_cases hlimit : userLimit ≤ userCounter
      · rw [if_pos hlimit]
        exact .kept (fun _ _ => rfl) rfl (Or.inr ⟨⟨connectFD, rfl⟩, hlimit, rfl⟩)
      · rw [if_neg hlimit]
        exact .added connectFD rfl (not_le.mp hlimit) rfl rfl rfl
  | hangUp index => exact effect_hangUp s.reads rfl
  | recv index len =>
    simp only [handle, recvRemoteInfo]
    cases hfind : s.clientIdConnections.find? fun c => c.2 = (s.fds index).fd with
    | none =>
      refine effect_hangUp s.reads (if_neg ?_)
      rintro ⟨-, c, hc, hfd⟩
      grind
    | some c =>
      by_cases hlen : 0 < len
      · simp only [if_pos hlen]
        exact .kept (fun _ _ => rfl) rfl (Or.inl rfl)
      · simp only [if_neg hlen]
        exact effect_hangUp _ (if_neg fun h => hlen h.1)
  | close clientID => exact .closed clientID rfl

/-- Only an accept adds a connection. -/
theorem Effect.live_sublist {n : Nat}
    (h : Effect userCounter s e n t) (he : ∀ connectFD, e ≠ .accept connectFD true) :
    t.live.Sublist s.live := by
  cases h with
  | kept hsame hmap hrefusals =>
    rw [live, hmap]
    exact List.Sublist.refl _
  | added connectFD hadd hlimit hfds hmap hrefusals => exact (he connectFD hadd).elim
  | unlisted hdrops hsame hmap hrefusals =>
    rw [live, hmap]
    exact eraseP_sublist.filter isLive
  | removed index hdrops hindex hfds hmap hrefusals =>
    rw [live, hmap]
    exact eraseP_sublist.filter isLive
  | closed clientID hclose =>
    rw [live_close]
    exact filter_sublist

/-- The ids are in order, and the connections that are open have descriptors of their own. -/
structure Sound (s : Server) : Prop where
  sorted : s.clientIdConnections.Pairwise fun c d => c.1 < d.1
  apart : (s.live.map snd).Nodup

theorem sound_start : Sound {} where
  sorted := List.Pairwise.nil
  apart := nodup_nil

theorem Sound.effect {n : Nat} (hs : s.Sound)
    (hpossible : e.Possible userCounter s.isOpen) (h : Effect userCounter s e n t) : t.Sound := by
  have hapart (he : ∀ connectFD, e ≠ .accept connectFD true) : (t.live.map snd).Nodup :=
    hs.apart.sublist ((h.live_sublist he).map snd)
  cases h with
  | kept hsame hmap hrefusals =>
    constructor
    · rw [hmap]
      exact hs.sorted
    · rw [live, hmap]
      exact hs.apart
  | added connectFD he hlimit hfds hmap hrefusals =>
    subst he
    obtain ⟨hfd, hfresh⟩ := hpossible
    constructor
    · rw [hmap]
      exact sorted_assign _ _ hs.sorted
    · rw [live, hmap]
      exact apart_assign hfd (fun c hc hsame => hfresh ⟨c, hc, hsame⟩) hs.apart
  | unlisted he hsame hmap hrefusals =>
    refine ⟨?_, hapart ?_⟩
    · rw [hmap]
      exact hs.sorted.sublist eraseP_sublist
    · rintro connectFD rfl
      cases he
  | removed index he hindex hfds hmap hrefusals =>
    refine ⟨?_, hapart ?_⟩
    · rw [hmap]
      exact hs.sorted.sublist eraseP_sublist
    · rintro connectFD rfl
      cases he
  | closed clientID he =>
    have hids (c : Connection) : (if c.1 = clientID then (c.1, -1) else c).1 = c.1 := by
      rw [apply_ite fst, ite_self]
    refine ⟨?_, hapart ?_⟩
    · refine pairwise_map.mpr (hs.sorted.imp fun {c d} hlt => ?_)
      rwa [hids, hids]
    · rintro connectFD rfl
      cases he

end Server

end Netstack.TlsServer
