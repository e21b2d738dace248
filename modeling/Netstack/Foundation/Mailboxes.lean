import Mathlib.Data.Set.Insert

/-!
# Mailboxes whose reader has to be called

Messages are put into a queue by several participants, and a reader takes one of them each time it
is called, which happens only after a call has been requested. Nothing stays behind if whoever
leaves a message in the queue is known to request a call later.

## Implementation notes

`owing` are the participants that have still to request a call.
-/

namespace Netstack.Foundation

structure Mailbox (α ι : Type*) where
  posted : List α
  taken : List α
  queue : List α
  pending : Prop
  owing : Set ι

namespace Mailbox

variable {α ι : Type*} {m m' : Mailbox α ι}

variable (m)

/-- Put a message into the queue; the participant will request a call. -/
def post (i : ι) (a : α) : Mailbox α ι :=
  { m with posted := m.posted ++ [a], queue := m.queue ++ [a], owing := insert i m.owing }

/-- Request a call. -/
def request (i : ι) : Mailbox α ι :=
  { m with pending := True, owing := m.owing \ {i} }

/-- A participant makes no request after all, or its request is lost. -/
def excuse (i : ι) : Mailbox α ι :=
  { m with owing := m.owing \ {i} }

/-- The reader is called, takes a message if there is one, and will request another call. -/
def take (i : ι) : Mailbox α ι :=
  { m with
    taken := m.taken ++ m.queue.head?.toList
    queue := m.queue.tail
    pending := False
    owing := insert i m.owing }

/-- Messages are taken in the order in which they were posted. -/
def InOrder : Prop := m.taken ++ m.queue = m.posted

/-- While there are messages, a call is due or somebody has to request one. -/
def Noticed : Prop := m.queue ≠ [] → m.pending ∨ m.owing.Nonempty

variable {m}

theorem InOrder.post (h : m.InOrder) (i : ι) (a : α) : (m.post i a).InOrder :=
  calc
    m.taken ++ (m.queue ++ [a]) = m.taken ++ m.queue ++ [a] := by rw [List.append_assoc]
    _ = m.posted ++ [a] := by rw [h]

theorem InOrder.take (h : m.InOrder) (i : ι) : (m.take i).InOrder :=
  calc
    m.taken ++ m.queue.head?.toList ++ m.queue.tail = m.taken ++ m.queue := by
      cases m.queue <;> simp
    _ = m.posted := h

variable (m) (i : ι)

theorem noticed_post (a : α) : (m.post i a).Noticed :=
  fun _ => Or.inr ⟨i, Set.mem_insert i m.owing⟩

theorem noticed_request : (m.request i).Noticed :=
  fun _ => Or.inl trivial

theorem noticed_take : (m.take i).Noticed :=
  fun _ => Or.inr ⟨i, Set.mem_insert i m.owing⟩

variable {m}

theorem noticed_excuse {i : ι}
    (h : m.queue = [] ∨ m.pending ∨ (m.owing \ {i}).Nonempty) : (m.excuse i).Noticed := by
  intro hqueue
  rcases h with hempty | hpending | howing
  · exact absurd hempty hqueue
  · exact Or.inl hpending
  · exact Or.inr howing

/-- The same queue, with at least the calls and participants that are due. -/
structure Grants (m m' : Mailbox α ι) : Prop where
  queue : m'.queue = m.queue
  pending : m.pending → m'.pending
  owing : m.owing ⊆ m'.owing

theorem Noticed.of_grants (h : m.Noticed) (hgrants : Grants m m') : m'.Noticed := by
  intro hqueue
  rw [hgrants.queue] at hqueue
  rcases h hqueue with hpending | howing
  · exact Or.inl (hgrants.pending hpending)
  · exact Or.inr (howing.mono hgrants.owing)

/-- When no call is due and nobody has to request one, everything has been taken. -/
theorem taken_eq_posted (horder : m.InOrder) (hnoticed : m.Noticed) (hpending : ¬ m.pending)
    (howing : m.owing = ∅) : m.taken = m.posted := by
  have hqueue : m.queue = [] := by
    by_contra hne
    rcases hnoticed hne with hcall | ⟨i, hi⟩
    · exact hpending hcall
    · rw [howing] at hi
      exact hi
  rwa [InOrder, hqueue, List.append_nil] at horder

end Mailbox

end Netstack.Foundation
