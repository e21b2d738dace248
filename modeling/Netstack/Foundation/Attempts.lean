import Mathlib.Tactic

/-!
# Attempts and settings

An attempt is a computation on a state that may give up. Whatever it has done to the state
by then stays done, so that a caller who ignores the answer still sees the effect. A
preorder on states that every single step respects is respected by the whole attempt.

Settings are pairs of an option and a value in the order they were made. The latest one of
an option is the one that counts.
-/

namespace Netstack.Foundation

def Attempt (σ α : Type) : Type := σ → Option α × σ

variable {c : Prop}

namespace Attempt

variable {σ α β : Type}

instance : Monad (Attempt σ) where
  pure a s := (some a, s)
  bind x f s :=
    match x s with
    | (some a, t) => f a t
    | (none, t) => (none, t)

def giveUp : Attempt σ α := fun s => (none, s)

def state : Attempt σ σ := fun s => (some s, s)

def update (f : σ → σ) : Attempt σ Unit := fun s => (some (), f s)

/-- `if (c) { x }`. -/
def when (c : Prop) [Decidable c] (x : Attempt σ Unit) : Attempt σ Unit :=
  if c then x else pure ()

/-- A call whose answer nobody looks at. -/
def ignoring (x : Attempt σ α) : Attempt σ Unit := fun s => (some (), (x s).2)

variable {x : Attempt σ α} {s t : σ} {f : α → Attempt σ β}

theorem bind_of_some {a : α}
    (h : x s = (some a, t)) : (x >>= f) s = f a t := by
  change (match x s with
    | (some a, t) => f a t
    | (none, t) => (none, t)) = _
  rw [h]

theorem bind_of_none (h : x s = (none, t)) : (x >>= f) s = (none, t) := by
  change (match x s with
    | (some a, t) => f a t
    | (none, t) => (none, t)) = _
  rw [h]

variable {y : Attempt σ α}

theorem bind_bind {γ : Type} (x : Attempt σ α) (f : α → Attempt σ β) (g : β → Attempt σ γ) :
    x >>= f >>= g = x >>= fun a => f a >>= g := by
  funext s
  cases h : x s with
  | mk answer t =>
    cases answer with
    | none => rw [bind_of_none (bind_of_none h), bind_of_none h]
    | some a =>
      rw [bind_of_some h]
      change (match (x >>= f) s with
        | (some b, u) => g b u
        | (none, u) => (none, u)) = _
      rw [bind_of_some h]
      rfl

@[simp] theorem pure_apply (a : α) (s : σ) : (pure a : Attempt σ α) s = (some a, s) := rfl

@[simp] theorem giveUp_apply (s : σ) : (giveUp : Attempt σ α) s = (none, s) := rfl

@[simp] theorem state_bind_apply (f : σ → Attempt σ β) (s : σ) :
    (state >>= f) s = f s s := rfl

@[simp] theorem update_bind_apply (g : σ → σ) (f : Unit → Attempt σ β) (s : σ) :
    (update g >>= f) s = f () (g s) := rfl

theorem ignoring_apply (x : Attempt σ α) (s : σ) : ignoring x s = (some (), (x s).2) := rfl

theorem when_of_pos [Decidable c] (hc : c) (x : Attempt σ Unit) : when c x = x :=
  if_pos hc

theorem when_of_neg [Decidable c] (hc : ¬c) (x : Attempt σ Unit) : when c x = pure () :=
  if_neg hc

section Ends

/-- The attempt does not give up, and its answer and its last state are as wanted. -/
def Ends (x : Attempt σ α) (s : σ) (Q : α → σ → Prop) : Prop :=
  ∃ a t, x s = (some a, t) ∧ Q a t

variable {Q : α → σ → Prop}

@[simp] theorem ends_pure {a : α} : Ends (pure a) s Q ↔ Q a s := by
  constructor
  · rintro ⟨_, _, ⟨⟩, hq⟩
    exact hq
  · intro hq
    exact ⟨a, s, rfl, hq⟩

@[simp] theorem ends_giveUp : ¬Ends (giveUp : Attempt σ α) s Q := by
  rintro ⟨_, _, ⟨⟩, -⟩

theorem ends_bind {x : Attempt σ β} {f : β → Attempt σ α} :
    Ends (x >>= f) s Q ↔ Ends x s fun b t => Ends (f b) t Q := by
  constructor
  · rintro ⟨a, t, h, hq⟩
    cases hx : x s with
    | mk answer u =>
      cases answer with
      | none =>
        rw [bind_of_none hx] at h
        cases h
      | some b =>
        rw [bind_of_some hx] at h
        exact ⟨b, u, hx, a, t, h, hq⟩
  · rintro ⟨b, u, hx, a, t, h, hq⟩
    exact ⟨a, t, (bind_of_some hx).trans h, hq⟩

theorem ends_state {Q : σ → σ → Prop} : Ends state s Q ↔ Q s s := ends_pure (s := s)

theorem ends_update {f : σ → σ} {Q : Unit → σ → Prop} : Ends (update f) s Q ↔ Q () (f s) := by
  constructor
  · rintro ⟨_, _, ⟨⟩, hq⟩
    exact hq
  · intro hq
    exact ⟨(), f s, rfl, hq⟩

theorem ends_ignoring {Q : Unit → σ → Prop} : Ends (ignoring x) s Q ↔ Q () (x s).2 := by
  constructor
  · rintro ⟨_, _, ⟨⟩, hq⟩
    exact hq
  · intro hq
    exact ⟨(), (x s).2, rfl, hq⟩

theorem ends_ite [Decidable c] :
    Ends (if c then x else y) s Q ↔ (c → Ends x s Q) ∧ (¬c → Ends y s Q) := by
  by_cases hc : c <;> simp [hc]

theorem ends_when [Decidable c] {x : Attempt σ Unit} {Q : Unit → σ → Prop} :
    Ends (when c x) s Q ↔ (c → Ends x s Q) ∧ (¬c → Q () s) := by
  rw [when, ends_ite, ends_pure]

end Ends

section Respects

variable (R : σ → σ → Prop)

/-- However the attempt ends, it leads to a related state. -/
def Respects (x : Attempt σ α) : Prop := ∀ s, R s (x s).2

variable {R}

theorem Respects.ignoring (hx : Respects R x) : Respects R (ignoring x) := hx

attribute [irreducible] when ignoring

theorem Respects.ite [Decidable c] (hx : Respects R x)
    (hy : Respects R y) : Respects R (if c then x else y) := by
  split
  · exact hx
  · exact hy

variable [IsPreorder σ R]

theorem respects_pure (a : α) : Respects R (pure a : Attempt σ α) := fun s => refl_of R s

theorem respects_giveUp : Respects R (giveUp : Attempt σ α) := fun s => refl_of R s

theorem respects_state : Respects R (state : Attempt σ σ) := fun s => refl_of R s

theorem Respects.bind (hx : Respects R x)
    (hf : ∀ a, Respects R (f a)) : Respects R (x >>= f) := by
  intro s
  cases h : x s with
  | mk answer t =>
    have hst : R s t := by simpa only [h] using hx s
    cases answer with
    | none =>
      rw [bind_of_none h]
      exact hst
    | some a =>
      rw [bind_of_some h]
      exact trans_of R hst (hf a t)

theorem Respects.when [Decidable c] {x : Attempt σ Unit} (hx : c → Respects R x) :
    Respects R (when c x) := by
  by_cases hc : c
  · rw [when_of_pos hc]
    exact hx hc
  · rw [when_of_neg hc]
    exact respects_pure ()

end Respects

end Attempt

section Settings

variable {κ ν : Type} [DecidableEq κ]

/-- The value an option has after the settings, if they set it at all. -/
def latest (o : κ) (settings : List (κ × ν)) : Option ν := settings.reverse.lookup o

@[simp] theorem latest_append (o : κ) (before after : List (κ × ν)) :
    latest o (before ++ after) = (latest o after).or (latest o before) := by
  rw [latest, List.reverse_append, List.lookup_append]
  rfl

@[simp] theorem latest_nil (o : κ) : latest o ([] : List (κ × ν)) = none := rfl

@[simp] theorem latest_cons (o p : κ) (v : ν) (after : List (κ × ν)) :
    latest o ((p, v) :: after) = (latest o after).or (if o = p then some v else none) := by
  rw [← List.singleton_append, latest_append]
  by_cases h : o = p
  · simp [latest, h]
  · simp [latest, h, List.lookup_cons, beq_eq_false_iff_ne.2 h]

@[simp] theorem latest_ite (p : Prop) [Decidable p] (o : κ) (settings others : List (κ × ν)) :
    latest o (if p then settings else others) = if p then latest o settings else latest o others :=
  apply_ite (latest o) p settings others

end Settings

end Netstack.Foundation
