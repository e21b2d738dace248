import Mathlib.Tactic

/-!
# Readers that are polled

A reader is polled with the room that is left in a buffer. It answers with items for the buffer,
with nothing when it is at its end, or that nothing is there yet. Two laws say what can be relied
on: the items that have been delivered and those still to come are always the same sequence, and
a reader has something in the end if it is polled often enough.
-/

namespace Netstack.Foundation

open List

/-- A buffer whose first items are filled. -/
structure ReadBuf (α : Type*) where
  capacity : Nat
  filled : List α
  filled_le : filled.length ≤ capacity

namespace ReadBuf

variable {α : Type*}

def empty (α : Type*) (capacity : Nat) : ReadBuf α where
  capacity := capacity
  filled := []
  filled_le := Nat.zero_le capacity

def unfilled (buf : ReadBuf α) : Nat := buf.capacity - buf.filled.length

/-- Append as many items as there is room for. -/
def fill (buf : ReadBuf α) (items : List α) : ReadBuf α where
  capacity := buf.capacity
  filled := buf.filled ++ items.take buf.unfilled
  filled_le := by
    have h := buf.filled_le
    rw [length_append, length_take, unfilled]
    omega

theorem fill_filled {buf : ReadBuf α} {items : List α} (h : items.length ≤ buf.unfilled) :
    (buf.fill items).filled = buf.filled ++ items :=
  congrArg (buf.filled ++ ·) (take_of_length_le h)

theorem unfilled_fill {buf : ReadBuf α} {items : List α} (h : items.length ≤ buf.unfilled) :
    (buf.fill items).unfilled + items.length = buf.unfilled := by
  have hle := buf.filled_le
  rw [unfilled, fill_filled h, length_append]
  unfold unfilled at *
  change buf.capacity - _ + _ = _
  omega

end ReadBuf

/-- What a reader of type `ρ` answers. -/
inductive Answer (α ε ρ : Type*) where
  | ready (items : List α) (next : ρ)
  | failed (error : ε)
  | pending (next : ρ)

class AsyncRead (ρ : Type*) (α ε : outParam (Type*)) where
  /-- The second argument is the room in the buffer. -/
  pollRead : ρ → Nat → Answer α ε ρ

section Laws

variable {ρ α ε : Type*} [AsyncRead ρ α ε]

/-- The reader delivers its contents, in order and without a failure, and nothing only at the
end. -/
structure Delivers (contents : ρ → List α) : Prop where
  ready : ∀ {r : ρ} {n : Nat} {items : List α} {r' : ρ},
    AsyncRead.pollRead r n = .ready items r' →
      items.length ≤ n ∧ contents r = items ++ contents r'
  atEnd : ∀ {r : ρ} {n : Nat} {r' : ρ},
    AsyncRead.pollRead r n = .ready [] r' → n ≠ 0 → contents r = []
  pending : ∀ {r : ρ} {n : Nat} {r' : ρ},
    AsyncRead.pollRead r n = .pending r' → contents r' = contents r
  notFailed : ∀ (r : ρ) (n : Nat) (error : ε), AsyncRead.pollRead r n ≠ .failed error

/-- The reader is pending at most so often. -/
structure Wakes (delays : ρ → Nat) : Prop where
  ready : ∀ {r : ρ} {n : Nat} {items : List α} {r' : ρ},
    AsyncRead.pollRead r n = .ready items r' → delays r' ≤ delays r
  pending : ∀ {r : ρ} {n : Nat} {r' : ρ},
    AsyncRead.pollRead r n = .pending r' → delays r' < delays r

end Laws

/-- A reader that follows a script: at each poll it is pending, or it delivers at most one item
more than the number says. After the script it delivers what fits. -/
structure ScriptedReader (α : Type*) where
  rest : List α
  script : List (Option Nat) := []

namespace ScriptedReader

variable {α : Type*}

variable (r : ScriptedReader α)

def deliver (n : Nat) (script : List (Option Nat)) : Answer α Empty (ScriptedReader α) :=
  .ready (r.rest.take n) { rest := r.rest.drop n, script := script }

def pollRead (n : Nat) : Answer α Empty (ScriptedReader α) :=
  match r.script with
  | [] => r.deliver n []
  | none :: script => .pending { r with script := script }
  | some k :: script => r.deliver (min (k + 1) n) script

instance : AsyncRead (ScriptedReader α) α Empty where
  pollRead := pollRead

/-- How often the script is pending. -/
def delays : Nat := r.script.countP Option.isNone

/-- An answer with items is what fits of the rest. -/
theorem ready_pollRead {r r' : ScriptedReader α} {n : Nat} {items : List α}
    (h : pollRead r n = .ready items r') :
    ∃ m ≤ n, (n ≠ 0 → m ≠ 0) ∧ items = r.rest.take m ∧ r'.rest = r.rest.drop m ∧
      r'.delays ≤ r.delays := by
  unfold pollRead at h
  cases hscript : r.script with
  | nil =>
    rw [hscript] at h
    obtain ⟨rfl, rfl⟩ := Answer.ready.inj h
    exact ⟨n, le_refl n, id, rfl, rfl, Nat.zero_le _⟩
  | cons answer script =>
    rw [hscript] at h
    cases answer with
    | none => exact absurd h (by simp)
    | some k =>
      obtain ⟨rfl, rfl⟩ := Answer.ready.inj h
      refine ⟨min (k + 1) n, Nat.min_le_right _ _, fun hn => by omega, rfl, rfl, ?_⟩
      simp [delays, hscript]

theorem pending_pollRead {r r' : ScriptedReader α} {n : Nat} (h : pollRead r n = .pending r') :
    r'.rest = r.rest ∧ r'.delays < r.delays := by
  unfold pollRead at h
  cases hscript : r.script with
  | nil =>
    rw [hscript] at h
    exact absurd h (by simp [deliver])
  | cons answer script =>
    grind [delays, deliver]

theorem delivers : Delivers (rest : ScriptedReader α → List α) where
  ready {r n items r'} h := by
    obtain ⟨m, hm, -, rfl, hrest, -⟩ := ready_pollRead h
    refine ⟨(length_take_le m r.rest).trans hm, ?_⟩
    rw [hrest, take_append_drop]
  atEnd {r n r'} h hn := by
    obtain ⟨m, -, hm, hitems, -, -⟩ := ready_pollRead h
    exact (take_eq_nil_iff.1 hitems.symm).resolve_left (hm hn)
  pending h := (pending_pollRead h).1
  notFailed _ _ error := error.elim

theorem wakes : Wakes (delays : ScriptedReader α → Nat) where
  ready h := by
    obtain ⟨-, -, -, -, -, hdelays⟩ := ready_pollRead h
    exact hdelays
  pending h := (pending_pollRead h).2

end ScriptedReader

end Netstack.Foundation
