import Netstack.WebSocketNative.ServerRuns

/-!
# Starting the native WebSocket server again

`Start` leaves the flags of the context as it finds them. A server that was stopped once is closed
from then on, refuses every connection and forgets to take the closed ones off its list. As long
as the flags are clear whenever a start has no thread in its way and whenever a connection of a
running server closes, the list names the established connections.
-/

namespace Netstack.WebSocketServer

open Foundation.Execution

variable {config : ServerConfig} {permission : Bool} {created : Bool}

theorem Server.not_joinable_of_start {κ : Type} {p : Platform κ} {s : Server κ}
    (h : (s.start p permission config created).1 = 0) : s.joinable = false := by
  by_contra hthread
  rw [Bool.not_eq_false] at hthread
  unfold Server.start at h
  rw [if_pos hthread] at h
  have hcode : websocketUnknownOtherError ≠ 0 := by decide
  exact hcode h

namespace System

variable {κ : Type} [DecidableEq κ] (p : Platform κ)

/-- A server that has just been started is neither closed nor stopped, and one that is running
lists the established connections. -/
structure Restarts (s : System κ) : Prop where
  started : s.justStarted = true →
    s.server.serverContext.closed = false ∧ s.server.serverContext.threadStop = false
  listed : s.Running → ∀ id wsi connection,
    s.server.serverContext.webSocketConnection[id]? = some (wsi, connection) ↔
      (∃ l, s.links wsi = some l ∧ l.connection = connection) ∧ id = connection.clientId

/-- The flags are clear when `Start` finds no thread and when a connection of a running server
closes, and a connection that is admitted has a name that is not listed. -/
def Untroubled (s : System κ) : Event κ → Prop
  | .start _ _ _ => s.server.joinable = false → s.Active
  | .established wsi peer => s.Unlisted (.established wsi peer)
  | .closed wsi => s.Running → s.Active ∨ (s.links wsi).isNone
  | _ => True

instance (s : System κ) (e : Event κ) : Decidable (s.Untroubled e) := by
  induction e using Event.casesOn <;> dsimp only [Untroubled] <;> infer_instance

variable {s : System κ} {e : Event κ}

omit [DecidableEq κ] in
theorem Untroubled.unlisted (h : s.Untroubled e) : s.Unlisted e := by
  cases e with
  | established wsi peer => exact h
  | _ => trivial

variable {t : System κ}

/-- Only a start that succeeds leaves a server that has just been started. -/
theorem start_of_justStarted (hstep : s.step p e = some t) (hstarted : t.justStarted = true) :
    s.server.joinable = false ∧
      ∃ permission config created, e = .start permission config created := by
  cases steps_of_step p hstep with
  | started permission config created =>
    exact ⟨Server.not_joinable_of_start (of_decide_eq_true hstarted), _, _, _, rfl⟩
  | _ => cases hstarted

/-- A start does not touch the flags. -/
theorem active_of_start (hstep : s.step p (.start permission config created) = some t)
    (hactive : s.Active) : t.Active := by
  obtain ⟨-, hstart⟩ := Option.ite_none_right_eq_some.mp hstep
  cases hstart
  obtain ⟨-, -, hclosed, hstop, -⟩ := s.server.start_spec p permission config created
  exact ⟨hclosed.trans hactive.1, hstop.trans hactive.2⟩

/-- Nothing is left of connections that are gone while the server is active or running. -/
structure Maintained (s : System κ) : Prop where
  tracks : s.Tracks
  fresh : s.Active ∨ s.Running → s.roster.Fresh
  started : s.justStarted = true → s.Active

theorem Maintained.step (h : s.Maintained)
    (huntroubled : s.Untroubled e) (hstep : s.step p e = some t) : t.Maintained := by
  have hturns := turns_of_step p hstep
  have hstart : t.justStarted = true → s.Active := by
    intro hstarted
    obtain ⟨hthread, permission, config, created, rfl⟩ := start_of_justStarted p hstep hstarted
    exact huntroubled hthread
  refine ⟨h.tracks.step p (fun hactive => h.fresh (Or.inl hactive)) huntroubled.unlisted hstep,
    ?_, ?_⟩
  · intro hthere
    have hbefore : s.Active ∨ s.Running := by
      grind [@hturns.active, @hturns.running]
    apply h.tracks.fresh_step p (h.fresh hbefore) hstep (hthere.imp_right And.left)
    rintro wsi rfl
    rcases hbefore with hactive | hrunning
    · exact Or.inl hactive
    · exact (huntroubled hrunning).imp_right Option.isNone_iff_eq_none.mp
  · intro hstarted
    have hactive := hstart hstarted
    obtain ⟨-, permission, config, created, rfl⟩ := start_of_justStarted p hstep hstarted
    exact active_of_start p hstep hactive

omit [DecidableEq κ] in
theorem Maintained.restarts (h : s.Maintained) : s.Restarts := by
  refine ⟨h.started, ?_⟩
  intro hrunning id wsi connection
  have hexact := h.tracks.lists.exact (h.fresh (Or.inr hrunning)) id wsi connection
  simpa [roster] using hexact

/-- In any run in which the flags are clear at every start that finds no thread and at the end of
every connection of a running server, a server that has just been started is neither closed nor
stopped, and a running one lists the established connections. -/
theorem server_restarts (registered : Registered) (events : List (Event κ))
    (hmeets : Meets (step p) Untroubled events { server := { registered } }) :
    Throughout (step p) Restarts events { server := { registered } } := by
  apply throughout_of_meets (J := Maintained)
  · exact fun s e t hs huntroubled hstep => hs.step p huntroubled hstep
  · exact fun s hs => hs.restarts
  · exact ⟨(tracks_initial registered).1, fun _ => (tracks_initial registered).2,
      fun hstarted => Bool.noConfusion hstarted⟩
  · exact hmeets

/-- Two clients connect, one of them leaves, and the server is stopped. -/
def singleService : List (Event Nat) :=
  [sampleStart, .established 7 (some sampleAlice), .established 8 (some sampleBob), .closed 7,
    .stop true, .proceed, .proceed, .proceed]

theorem singleService_restarts :
    Meets (step samplePlatform) Untroubled singleService { server := { registered := {} } } ∧
      Throughout (step samplePlatform) Restarts singleService
        { server := { registered := {} } } :=
  have hmeets : Meets (step samplePlatform) Untroubled singleService
      { server := { registered := {} } } := by
    decide +kernel
  ⟨hmeets, server_restarts samplePlatform {} singleService hmeets⟩

/-- The server is stopped while a client is connected and then started again. -/
def secondService : List (Event Nat) :=
  [sampleStart, .established 7 (some sampleAlice), .stop true, .proceed, .proceed, .proceed,
    sampleStart]

/-- `Start` has returned success for a server that is closed and stopped, and that lists a
connection which is gone. -/
theorem secondService_stopped :
    ¬ Throughout (step samplePlatform) Restarts secondService
        { server := { registered := {} } } ∧
      ∃ s, secondService.foldlM (step samplePlatform)
          ({ server := { registered := {} } } : System Nat) = some s ∧
        s.justStarted = true ∧ s.server.serverContext.closed = true ∧
        s.server.serverContext.threadStop = true ∧ s.Running ∧ s.links 7 = none ∧
        s.server.serverContext.webSocketConnection[sampleAlice.clientId]? =
          some (7, sampleAlice) := by
  refine (and_iff_right_of_imp ?_).mpr (by decide +kernel)
  rintro ⟨s, hs, hstarted, hclosed, -⟩ hrestarts
  have hclear := ((hrestarts.finish hs).started hstarted).1
  exact Bool.noConfusion (hclosed.symm.trans hclear)

end System

end Netstack.WebSocketServer
