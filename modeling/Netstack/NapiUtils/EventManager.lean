import Netstack.Foundation.ByteStrings
import Netstack.Foundation.Execution

/-!
# The listeners of events

A manager keeps a listener for each type of events. An emit calls what a copy of the list
holds for its type, and then removes the listeners for one event by their type.

## Implementation notes

All calls are made on the thread of JavaScript. A listener may use the manager before it
returns, so the emits under way are a stack, the innermost first. A call that a wrapper
refuses does not reach the manager.
-/

namespace Netstack.NapiUtils

open Foundation Foundation.Execution List

/-- The number tells the listeners of a manager apart. One that is `nested` was registered
inside an emit of its type. -/
structure EventListener where
  number : Nat
  type : Bytes
  callback : Nat
  once : Bool
  nested : Bool
  deriving DecidableEq, Repr

namespace EventListener

variable (l : EventListener) (type : Bytes)

def matchType : Bool := l.type == type

def matchOnce : Bool := l.matchType type && l.once

/-- `Match`, or `MatchType` without a callback. -/
def matchCallback (callback : Option Nat) : Bool :=
  l.matchType type && callback.all (l.callback == ·)

end EventListener

/-- What an emit found for its type, what it has called and what it has still to call. -/
structure Emission where
  type : Bytes
  found : List EventListener
  called : List EventListener
  rest : List EventListener

/-- Beside the list stand the listeners that were ever made, called, and replaced or removed
by `off`. -/
structure EventManager where
  listeners : List EventListener := []
  emissions : List Emission := []
  created : List EventListener := []
  called : List EventListener := []
  retired : List EventListener := []

/-- In `proceed` the innermost emit calls its next listener, or ends after the last one. -/
inductive Event where
  | on (type : Bytes) (callback : Nat)
  | once (type : Bytes) (callback : Nat)
  | off (type : Bytes) (callback : Option Nat)
  | emit (type : Bytes)
  | proceed

namespace EventManager

variable (s : EventManager) (type : Bytes) (callback : Nat) (once : Bool)
  (p : EventListener → Bool)

def retire : EventManager :=
  { s with
    listeners := s.listeners.filter (!p ·)
    retired := s.retired ++ s.listeners.filter p }

def addListener : EventManager :=
  let t := s.retire (·.matchType type)
  let listener := ⟨s.created.length, type, callback, once, s.emissions.any (·.type == type)⟩
  { t with listeners := t.listeners ++ [listener], created := s.created ++ [listener] }

def emit : EventManager :=
  let found := s.listeners.filter (·.matchType type)
  { s with emissions := ⟨type, found, [], found⟩ :: s.emissions }

def proceed : Option EventManager :=
  match s.emissions with
  | [] => none
  | ⟨type, found, called, l :: rest⟩ :: emissions =>
    some { s with
      emissions := ⟨type, found, called ++ [l], rest⟩ :: emissions
      called := s.called ++ [l] }
  | ⟨type, _, _, []⟩ :: emissions =>
    some { s with listeners := s.listeners.filter (!·.matchOnce type), emissions }

def step : Event → Option EventManager
  | .on type callback => some (s.addListener type callback false)
  | .once type callback => some (s.addListener type callback true)
  | .off type callback => some (s.retire (·.matchCallback type callback))
  | .emit type => some (s.emit type)
  | .proceed => s.proceed

/-- No type has two listeners, and an emit calls what was registered for its type when it
began. A listener for one event that is not nested was called, replaced or removed, or it is
registered and the emits of its type that are under way will call it. -/
structure Orderly : Prop where
  unique : (s.listeners.map (·.type)).Nodup
  calls : ∀ e ∈ s.emissions, e.called ++ e.rest = e.found ∧ e.found.length ≤ 1
  kept : ∀ l ∈ s.created, l.once → ¬ l.nested → l ∈ s.called ∨ l ∈ s.retired ∨
    l ∈ s.listeners ∧ ∀ e ∈ s.emissions, e.type = l.type → l ∈ e.rest

namespace Orderly

variable {s} {t : EventManager} {e : Event} (h : s.Orderly)
include h

theorem retire : (s.retire p).Orderly where
  unique := h.unique.sublist (filter_sublist.map _)
  calls := h.calls
  kept l hl honce hnested := by
    have hkept := h.kept l hl honce hnested
    by_cases hp : p l <;> simp [EventManager.retire, hp] <;> tauto

theorem addListener : (s.addListener type callback once).Orderly := by
  have hretired := h.retire (·.matchType type)
  refine ⟨?_, h.calls, fun l hl honce hnested => ?_⟩
  · simp only [EventManager.addListener, map_append, map_singleton]
    refine hretired.unique.append (nodup_singleton _) ?_
    simp [EventManager.retire, EventListener.matchType]
  · rcases mem_append.mp hl with hl | hl
    · have hkept := hretired.kept l hl honce hnested
      exact hkept.imp_right (Or.imp_right (And.imp_left (mem_append_left _)))
    · refine .inr (.inr ⟨mem_append_right _ hl, fun e he htype => ?_⟩)
      cases mem_singleton.mp hl
      exact (hnested (any_eq_true.mpr ⟨e, he, beq_iff_eq.mpr htype⟩)).elim

theorem emit : (s.emit type).Orderly where
  unique := h.unique
  calls := by
    have hcount := nodup_iff_count_le_one.mp h.unique type
    rw [count_eq_countP, countP_map, countP_eq_length_filter] at hcount
    exact forall_mem_cons.mpr ⟨⟨rfl, hcount⟩, h.calls⟩
  kept l hl honce hnested := by
    refine (h.kept l hl honce hnested).imp_right (Or.imp_right fun ⟨hin, hothers⟩ => ⟨hin, ?_⟩)
    refine forall_mem_cons.mpr ⟨fun htype => mem_filter.mpr ⟨hin, ?_⟩, hothers⟩
    exact beq_iff_eq.mpr htype.symm

theorem proceed (hstep : s.proceed = some t) : t.Orderly := by
  unfold EventManager.proceed at hstep
  split at hstep
  · cases hstep
  · rename_i type found called l₀ rest emissions hemissions
    obtain ⟨⟨hcalls, hlength⟩, hothers⟩ := forall_mem_cons.mp (hemissions ▸ h.calls)
    cases hstep
    refine ⟨h.unique, forall_mem_cons.mpr ⟨⟨by simpa using hcalls, hlength⟩, hothers⟩, ?_⟩
    intro l hl honce hnested
    have hkept := h.kept l hl honce hnested
    rw [hemissions, forall_mem_cons] at hkept
    rw [forall_mem_cons]
    simp only [mem_append, mem_cons] at hkept ⊢
    tauto
  · rename_i type found called emissions hemissions
    cases hstep
    refine ⟨h.unique.sublist (filter_sublist.map _),
      (forall_mem_cons.mp (hemissions ▸ h.calls)).2, fun l hl honce hnested => ?_⟩
    have hkept := h.kept l hl honce hnested
    rw [hemissions, forall_mem_cons] at hkept
    refine hkept.imp_right (Or.imp_right fun ⟨hin, hends, hothers⟩ => ⟨?_, hothers⟩)
    have htype : l.type ≠ type := fun htype => not_mem_nil (hends htype.symm)
    exact mem_filter.mpr ⟨hin, by simp [EventListener.matchOnce, EventListener.matchType, htype]⟩

theorem step (hstep : s.step e = some t) : t.Orderly := by
  cases e with
  | on type callback => cases hstep; exact h.addListener type callback false
  | once type callback => cases hstep; exact h.addListener type callback true
  | off type callback => cases hstep; exact h.retire _
  | emit type => cases hstep; exact h.emit type
  | proceed => exact h.proceed hstep

end Orderly

/-- In any run no listener is called twice by an emit, and none for one event is lost that was not
registered by another listener. -/
theorem listeners_orderly {events : List Event} {s : EventManager}
    (hrun : events.foldlM step {} = some s) : s.Orderly :=
  foldlM_invariant (fun _ _ _ => Orderly.step) events
    (show Orderly {} from ⟨nodup_nil, nofun, nofun⟩) hrun

/-- A listener for one event registers one for an event of another type. -/
theorem listeners_orderly_once :
    ∃ s, [.once [1] 0, .emit [1], .proceed, .once [2] 0, .proceed].foldlM step {} = some s ∧
      s.Orderly :=
  (Option.isSome_iff_exists.mp (by decide)).imp fun _ hrun => ⟨hrun, listeners_orderly hrun⟩

/-- A listener registers another one for the next event. The emit that is under way removes
it before anything has called it. -/
theorem nested_listener_lost :
    ∃ s, [.once [1] 0, .emit [1], .proceed, .once [1] 1, .proceed].foldlM step {} = some s ∧
      ∃ l ∈ s.created, l.once ∧ l ∉ s.called ∧ l ∉ s.retired ∧ l ∉ s.listeners :=
  ⟨_, rfl, ⟨1, [1], 1, true, true⟩, by decide⟩

end EventManager

end Netstack.NapiUtils
