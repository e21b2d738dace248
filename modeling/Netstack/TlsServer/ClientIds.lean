import Netstack.Foundation.Execution
import Netstack.TlsServer.Connections

/-!
# The client ids of a TLS server

The id of a new client is one more than the number of clients. A client that leaves before the last
one makes the number smaller, so that the id of the last one is given again while it is connected.

## Implementation notes

The server is the only one of its process. Entries and ids agree as long as the clients leave in
the reverse of the order in which they came.
-/

namespace Netstack.TlsServer

open Foundation.Execution Server List

/-! ### A process with one server -/

structure Single where
  userCounter : Nat := 0
  server : Server := {}

variable (s : Single) {e : Event}

namespace Single

def after (e : Event) : Single :=
  { userCounter := (s.server.handle s.userCounter e).1
    server := (s.server.handle s.userCounter e).2 }

def step (e : Event) : Option Single :=
  if e.Possible s.userCounter s.server.isOpen then some (s.after e) else none

/-- No two live connections have the same id. -/
def Distinct : Prop := (s.server.live.map Prod.fst).Nodup

/-- An accept leaves the live connections alone. -/
def Spares : Event → Prop
  | .accept connectFD handshake =>
    ∀ c ∈ s.server.live, c ∈ (s.after (.accept connectFD handshake)).server.live
  | _ => True

instance (e : Event) : Decidable (s.Spares e) := by
  induction e using Event.casesOn <;> dsimp only [Spares] <;> infer_instance

/-- A client that is dropped has the last entry of the array. -/
def LastOut (e : Event) : Prop :=
  ∀ index ∈ s.server.drops e, index = 0 ∨ index = s.userCounter

instance (e : Event) : Decidable (s.LastOut e) :=
  inferInstanceAs (Decidable (∀ index ∈ s.server.drops e, index = 0 ∨ index = s.userCounter))

theorem steps_of_step {s t : Single} (h : s.step e = some t) :
    e.Possible s.userCounter s.server.isOpen ∧
      s.server.Effect s.userCounter e t.userCounter t.server := by
  obtain ⟨hpossible, h⟩ := Option.ite_none_right_eq_some.mp h
  cases h
  exact ⟨hpossible, s.server.effect_handle s.userCounter e⟩

/-- The number of a live connection's entry in the array is its id. -/
structure Ordered (s : Single) : Prop where
  sound : s.server.Sound
  placed : ∀ c ∈ s.server.live, c.1 ≠ 0 ∧ c.1 ≤ s.userCounter ∧ (s.server.fds c.1).fd = c.2

theorem Ordered.distinct {s : Single} (h : s.Ordered) : s.Distinct :=
  pairwise_map.mpr ((h.sound.sorted.sublist filter_sublist).imp fun hlt => hlt.ne)

/-- Fewer connections, and the same entries for them. -/
theorem Ordered.shrink {s t : Single} (h : s.Ordered) (hsound : t.server.Sound)
    (hlive : t.server.live.Sublist s.server.live)
    (hplaced : ∀ c ∈ t.server.live, c.1 ≤ t.userCounter ∧ t.server.fds c.1 = s.server.fds c.1) :
    t.Ordered where
  sound := hsound
  placed c hc := by
    grind [@h.placed]

theorem Ordered.step {s t : Single} (h : s.Ordered) (hlast : s.LastOut e)
    (hstep : s.step e = some t) : t.Ordered := by
  obtain ⟨hpossible, heffect⟩ := steps_of_step hstep
  have hsound := h.sound.effect hpossible heffect
  have hsublist := heffect.live_sublist
  cases t with
  | mk n server =>
    cases heffect with
    | kept hsame hmap hrefusals =>
      have hlive : server.live = s.server.live := by rw [live, hmap, live]
      refine h.shrink hsound (hlive ▸ List.Sublist.refl _) fun c hc => ?_
      obtain ⟨hid, hbound, -⟩ := h.placed c (hlive ▸ hc)
      exact ⟨hbound, hsame c.1 hid⟩
    | added connectFD he hlimit hfds hmap hrefusals =>
      refine ⟨hsound, fun c hc => ?_⟩
      rw [live, hmap] at hc
      obtain ⟨hc, hlive⟩ := mem_filter.mp hc
      rw [hfds]
      rcases mem_assign hc with rfl | hc
      · exact ⟨Nat.succ_ne_zero _, le_rfl, by rw [Function.update_self]⟩
      · obtain ⟨hid, hbound, hplace⟩ := h.placed c (mem_filter.mpr ⟨hc, hlive⟩)
        rw [Function.update_of_ne (Nat.ne_of_lt (Nat.lt_succ_of_le hbound))]
        exact ⟨hid, Nat.le_succ_of_le hbound, hplace⟩
    | unlisted he hsame hmap hrefusals =>
      have hlive := hsublist (by rintro connectFD rfl; cases he)
      refine h.shrink hsound hlive fun c hc => ?_
      obtain ⟨hid, hbound, -⟩ := h.placed c (hlive.subset hc)
      exact ⟨hbound, hsame c.1 hid⟩
    | removed index he hindex hfds hmap hrefusals =>
      obtain rfl := (hlast index he).resolve_left hindex
      have hlive := hsublist (by rintro connectFD rfl; cases he)
      refine h.shrink hsound hlive fun c hc => ?_
      obtain ⟨hid, hbound, hplace⟩ := h.placed c (hlive.subset hc)
      have hne : c.1 ≠ s.userCounter := by
        intro hsame
        rw [live, hmap] at hc
        apply filter_eraseP_ne h.sound.apart hc
        rw [← hplace, hsame]
      rw [hfds, dropped_apply _ hindex, if_neg hne, if_neg hne]
      grind
    | closed clientID he =>
      have hlive := hsublist (by rintro connectFD rfl; cases he)
      refine h.shrink hsound hlive fun c hc => ?_
      exact ⟨(h.placed c (hlive.subset hc)).2.1, rfl⟩

/-- No id of a live connection is given again. -/
theorem Ordered.spares {s : Single} (h : s.Ordered) (e : Event) : s.Spares e := by
  cases e with
  | accept connectFD handshake =>
    intro c hc
    simp only [after, handle, processTcpAccept,
      setTlsConnectionSecureOptions]
    split
    · exact hc
    split
    · exact hc
    · obtain ⟨hmem, hlive⟩ := mem_filter.mp hc
      have hbound := (h.placed c hc).2.1
      have hne : c.1 ≠ s.userCounter + 1 := by omega
      exact mem_filter.mpr ⟨mem_assign_of_mem hmem hne connectFD, hlive⟩
  | listen _ | hangUp _ | recv _ _ | close _ => trivial

theorem ordered_start : Ordered {} where
  sound := sound_start
  placed c hc := by cases hc

/-- In any run the ids are in order, and the connections that are open have descriptors of their
own. -/
theorem sound_run (history : List Event) :
    Throughout step (fun s => s.server.Sound) history {} :=
  throughout_of_invariant (J := fun s : Single => s.server.Sound)
    (fun _ _ _ hs hstep => hs.effect (steps_of_step hstep).1 (steps_of_step hstep).2)
    (fun _ hs => hs) history sound_start

/-- If the clients leave in the reverse of the order in which they came, the ids of live connections
are distinct, and no accept removes, closes or replaces a live connection. -/
theorem clients_apart (history : List Event) (h : Meets step LastOut history {}) :
    Throughout step Distinct history {} ∧ Meets step Spares history {} :=
  ⟨throughout_of_meets (fun _ _ _ hs hlast => hs.step hlast) (fun _ hs => hs.distinct) history
      ordered_start h,
    meets_of_meets (fun _ _ _ hs hlast => hs.step hlast) (fun _ e _ hs _ => hs.spares e) history
      ordered_start h⟩

/-- A second client leaves and comes back. -/
theorem lastClient_returns :
    let history := [.listen 3, .accept 4 true, .accept 5 true, .recv 2 0, .accept 6 true]
    Meets step LastOut history {} ∧
      Throughout step Distinct history {} ∧ Meets step Spares history {} := by
  intro history
  have h : Meets step LastOut history {} := by decide +kernel
  exact ⟨h, clients_apart history h⟩

/-- The first of two clients leaves, and the third replaces the second. -/
theorem secondClient_replaced :
    ¬ Meets step Spares
      [.listen 3, .accept 4 true, .accept 5 true, .recv 1 0, .accept 6 true] {} := by
  decide +kernel

end Single

end Netstack.TlsServer
