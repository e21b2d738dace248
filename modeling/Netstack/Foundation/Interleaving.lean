import Netstack.Foundation.Execution

/-!
# Threads that share a state

Each thread is at a position of its own program, and a move starts a thread or lets one of them go
on. Moves come in any order, so that a run is any interleaving.

Threads may bind themselves to something that they do only later. What has been done and what is
still owed is then as much as has been begun.
-/

namespace Netstack.Foundation.Interleaving

open Foundation.Execution

/-- The state, and the position of each thread. -/
structure Config (σ κ : Type*) where
  shared : σ
  threads : List κ := []

namespace Config

variable {σ κ : Type*}

def spawn (c : Config σ κ) (s : σ) (k : κ) : Config σ κ where
  shared := s
  threads := c.threads ++ [k]

def replace (c : Config σ κ) (i : Nat) (s : σ) (k : κ) : Config σ κ where
  shared := s
  threads := c.threads.set i k

/-- A number that each thread contributes to. -/
def total (f : κ → Nat) (c : Config σ κ) : Nat := (c.threads.map f).sum

variable {c : Config σ κ} {f : κ → Nat}

@[simp]
theorem total_spawn (s : σ) (k : κ) : (c.spawn s k).total f = c.total f + f k := by
  simp [total, spawn]

/-- Only the thread that goes on changes what it contributes. -/
theorem total_replace {i : Nat} {k : κ} (hk : c.threads[i]? = some k) (s : σ) (k' : κ) :
    (c.replace i s k').total f + f k = c.total f + f k' := by
  obtain ⟨s₀, threads⟩ := c
  simp only [total, replace] at hk ⊢
  induction threads generalizing i with
  | nil => simp at hk
  | cons k₀ threads ih =>
    cases i with
    | zero =>
      grind
    | succ i =>
      grind

end Config

/-- What can happen next: a thread is started at a position, or the one with a number goes on, with
an answer of its surroundings. -/
inductive Move (κ α : Type*) where
  | start (position : κ)
  | advance (i : Nat) (answer : α)

section Step

variable {σ κ α : Type*} (starts : Config σ κ → κ → Option σ)
  (next : σ → κ → α → Option (σ × κ))

def step (c : Config σ κ) : Move κ α → Option (Config σ κ)
  | .start k => (starts c k).map fun s => c.spawn s k
  | .advance i a =>
    c.threads[i]?.bind fun k => (next c.shared k a).map fun r => c.replace i r.1 r.2

inductive Moves (c : Config σ κ) : Move κ α → Config σ κ → Prop
  | start {k : κ} {s : σ} (hstart : starts c k = some s) : Moves c (.start k) (c.spawn s k)
  | advance {i : Nat} {a : α} {k k' : κ} {s : σ} (hat : c.threads[i]? = some k)
      (hnext : next c.shared k a = some (s, k')) : Moves c (.advance i a) (c.replace i s k')

variable {starts next}

theorem moves_of_step {c c' : Config σ κ} {move : Move κ α}
    (h : step starts next c move = some c') : Moves starts next c move c' := by
  cases move with
  | start k =>
    obtain ⟨s, hstart, rfl⟩ := Option.map_eq_some_iff.mp h
    exact .start hstart
  | advance i a =>
    obtain ⟨k, hat, hrest⟩ := Option.bind_eq_some_iff.mp h
    obtain ⟨⟨s, k'⟩, hnext, rfl⟩ := Option.map_eq_some_iff.mp hrest
    exact .advance hat hnext

end Step

section Promises

/-- What threads bind themselves to: how often it was begun and done, how often a thread at a
position has still to do it, and whether a thread begins it by going on. -/
structure Promise (σ κ α : Type*) where
  begun : σ → Nat
  done : σ → Nat
  owed : κ → Nat
  begins : σ → κ → α → Bool

namespace Promise

variable {σ κ α : Type*} (p : Promise σ κ α) (starts : Config σ κ → κ → Option σ)
  (next : σ → κ → α → Option (σ × κ))

/-- Threads owe what they begin until it is done, and nothing when they are started. -/
structure Respects : Prop where
  start : ∀ {c k s}, starts c k = some s →
    p.owed k = 0 ∧ p.begun s = p.begun c.shared ∧ p.done s = p.done c.shared
  begun : ∀ {s k a t k'}, next s k a = some (t, k') →
    p.begun t = p.begun s + (p.begins s k a).toNat
  owed : ∀ {s k a t k'}, next s k a = some (t, k') →
    p.done t + p.owed k' = p.done s + p.owed k + (p.begins s k a).toNat

def Balanced (c : Config σ κ) : Prop := p.done c.shared + c.total p.owed = p.begun c.shared

/-- A thread that begins is the first. -/
def First (c : Config σ κ) : Move κ α → Prop
  | .start _ => True
  | .advance i a =>
    ∀ k, c.threads[i]? = some k → p.begins c.shared k a = true → p.begun c.shared = 0

/-- If only the first begins, it is done at most once in every state of the run, and in a run at the
end of which nothing is owed only then. -/
def AtMostOnceIff (moves : List (Move κ α)) (c : Config σ κ) : Prop :=
  (Meets (step starts next) p.First moves c →
    Throughout (step starts next) (fun c => p.done c.shared ≤ 1) moves c) ∧
  ∀ c', moves.foldlM (step starts next) c = some c' → c'.total p.owed = 0 →
    p.done c'.shared ≤ 1 → Meets (step starts next) p.First moves c

variable {p starts next}

theorem done_le_begun {c : Config σ κ} (hc : p.Balanced c) :
    p.done c.shared ≤ p.begun c.shared := by
  rw [← hc]
  exact Nat.le_add_right _ _

namespace Respects

variable (h : p.Respects starts next) {c c' : Config σ κ} {move : Move κ α}

include h

theorem balanced_step (hc : p.Balanced c) (hstep : step starts next c move = some c') :
    p.Balanced c' := by
  have hc' : p.done c.shared + c.total p.owed = p.begun c.shared := hc
  cases moves_of_step hstep with
  | @start k s hstart =>
    obtain ⟨howed, hbegun, hdone⟩ := h.start hstart
    change p.done s + (c.spawn s k).total p.owed = p.begun s
    rw [Config.total_spawn, howed, hbegun, hdone]
    exact hc'
  | @advance i a k k' s hat hnext =>
    have hbegun := h.begun hnext
    have howed := h.owed hnext
    have htotal := Config.total_replace (f := p.owed) hat s k'
    change p.done s + (c.replace i s k').total p.owed = p.begun s
    omega

/-- A move begins nothing, or it begins and is then the first if nothing was begun. -/
theorem begun_step (hstep : step starts next c move = some c') :
    (p.begun c'.shared = p.begun c.shared ∧ p.First c move) ∨
      (p.begun c'.shared = p.begun c.shared + 1 ∧ (p.First c move ↔ p.begun c.shared = 0)) := by
  cases moves_of_step hstep with
  | start hstart => exact .inl ⟨(h.start hstart).2.1, trivial⟩
  | @advance i a k k' s hat hnext =>
    have hbegun := h.begun hnext
    have hfirst : p.First c (.advance i a) ↔
        (p.begins c.shared k a = true → p.begun c.shared = 0) := by
      simp [First, hat]
    cases hbegins : p.begins c.shared k a with
    | false =>
      rw [hbegins] at hbegun hfirst
      exact .inl ⟨hbegun, hfirst.mpr nofun⟩
    | true =>
      rw [hbegins] at hbegun hfirst
      exact .inr ⟨hbegun, hfirst.trans (forall_prop_of_true rfl)⟩

theorem begun_throughout_iff (moves : List (Move κ α)) (hc : p.begun c.shared ≤ 1) :
    Throughout (step starts next) (fun c => p.begun c.shared ≤ 1) moves c ↔
      Meets (step starts next) p.First moves c := by
  refine throughout_iff_meets (J := fun _ => True) (fun _ _ _ _ _ => trivial) ?_ moves trivial hc
  grind [@h.begun_step]

theorem atMostOnceIff (moves : List (Move κ α)) (hbalanced : p.Balanced c)
    (hc : p.begun c.shared = 0) : p.AtMostOnceIff starts next moves c := by
  constructor
  · intro hmeets
    refine throughout_of_meets (J := fun c => p.Balanced c ∧ p.begun c.shared ≤ 1) ?_ ?_ moves
      ⟨hbalanced, by omega⟩ hmeets
    · rintro c move c' ⟨hbal, hle⟩ hfirst hstep
      refine ⟨h.balanced_step hbal hstep, ?_⟩
      rcases h.begun_step hstep with ⟨hsame, -⟩ | ⟨hmore, hzero⟩
      · exact hsame ▸ hle
      · rw [hmore, hzero.mp hfirst]
    · rintro c ⟨hbal, hle⟩
      exact (done_le_begun hbal).trans hle
  · intro c' hrun hrest hdone
    have hbal : p.Balanced c' :=
      foldlM_invariant (fun _ _ _ hs hstep => h.balanced_step hs hstep) moves hbalanced hrun
    have hbegun : p.begun c'.shared ≤ 1 := by
      rw [← hbal, hrest]
      exact hdone
    refine (h.begun_throughout_iff moves (by omega)).mp ((throughout_iff_finish ?_ hrun).mpr hbegun)
    intro s move t hstep ht
    rcases h.begun_step hstep with ⟨hsame, -⟩ | ⟨hmore, -⟩ <;> omega

end Respects

end Promise

end Promises

end Netstack.Foundation.Interleaving
