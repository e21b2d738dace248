import Mathlib.Data.List.Nodup

/-!
# The manager of the global interceptors

`HttpInterceptorMgr` keeps a list of pointers for requests and one for responses, each under a
lock. A thread copies the list while it has the lock and calls the handlers afterwards. Before
that it submits a task that does the same for the read-only interceptors.

## Implementation notes

A step is what a thread does while it has a lock, or between two points at which another thread may
come in. What deletions, releases and late calls there were is recorded beside the state.
-/

namespace Netstack.HttpInterceptor

open Function List Option

inductive Stage where
  | request
  | response
  deriving DecidableEq, Repr

inductive InterceptorType where
  | readOnly
  | modifyNetworkKit
  deriving DecidableEq, Repr

/-- The fields of `OH_Http_Interceptor` that stay as they are. -/
structure Interceptor where
  groupId : Int := 0
  stage : Stage := .request
  type : InterceptorType := .modifyNetworkKit
  hasHandler : Bool := true

/-- Who goes through the list. -/
inductive Loop where
  | readOnlyTask
  | caller (type : InterceptorType)
  deriving DecidableEq, Repr

def Loop.wants : Loop → Interceptor → Bool
  | .readOnlyTask, i => i.type == .readOnly && i.hasHandler
  | .caller type, i => i.type != .readOnly && i.type == type && i.hasHandler

/-- Where a loop is: before the next interceptor, about to call the one it has looked at, or in a
handler. -/
inductive Place (ι : Type) where
  | between
  | chosen (i : ι)
  | inHandler
  deriving DecidableEq

/-- A loop over a copy of the list, which is not there before the lock was taken. -/
structure Iteration (ι : Type) where
  stage : Stage
  loop : Loop
  interceptors : Option (List ι) := none
  place : Place ι := .between

/-- The interceptors that are still to come. -/
def Iteration.left {ι : Type} (it : Iteration ι) : List ι := it.interceptors.getD []

structure Manager (ι : Type) where
  list : Stage → List ι := fun _ => []
  enabled : ι → Bool := fun _ => true
  iterations : List (Iteration ι) := []
  /-- What the deletions that have not returned have removed. -/
  deletions : List (List ι) := []
  released : List ι := []
  lateCalls : List ι := []

inductive Event (ι : Type) where
  | addInterceptor (i : ι)
  | deleteInterceptor (i : ι)
  | deleteAllInterceptor (groupId : Int)
  | returns (n : Nat)
  | setAllInterceptorEnabled (groupId : Int) (enabled : Bool)
  | iterate (stage : Stage) (type : InterceptorType)
  | copyList (k : Nat)
  | next (k : Nat)
  | call (k : Nat)
  | handlerReturns (k : Nat) (abort : Bool)

section Steps

variable {ι : Type} [DecidableEq ι] (info : ι → Interceptor) (m : Manager ι)

def Manager.Registered (i : ι) : Prop := i ∈ m.list (info i).stage

instance (i : ι) : Decidable (m.Registered info i) := inferInstanceAs (Decidable (i ∈ _))

def addInterceptor (i : ι) : Manager ι :=
  { m with
    list :=
      if m.Registered info i then m.list
      else update m.list (info i).stage (m.list (info i).stage ++ [i])
    deletions := m.deletions.map fun removed => removed.filter (· ≠ i)
    released := m.released.filter (· ≠ i) }

def deleteInterceptor (i : ι) : Manager ι :=
  if m.Registered info i then
    { m with
      list := update m.list (info i).stage ((m.list (info i).stage).erase i)
      deletions := m.deletions ++ [[i]] }
  else { m with deletions := m.deletions ++ [[]] }

def deleteAllInterceptor (groupId : Int) : Manager ι :=
  { m with
    list := fun stage => (m.list stage).filter fun i => (info i).groupId ≠ groupId
    deletions := m.deletions ++
      [(m.list .request ++ m.list .response).filter fun i => (info i).groupId = groupId] }

def returns (n : Nat) : Option (Manager ι) :=
  (m.deletions[n]?).map fun removed =>
    { m with deletions := m.deletions.eraseIdx n, released := m.released ++ removed }

def setAllInterceptorEnabled (groupId : Int) (enabled : Bool) : Manager ι :=
  { m with
    enabled := fun i =>
      if m.Registered info i ∧ (info i).groupId = groupId then enabled else m.enabled i }

def iterate (stage : Stage) (type : InterceptorType) : Manager ι :=
  { m with
    iterations := m.iterations ++
      [{ stage := stage, loop := .readOnlyTask }, { stage := stage, loop := .caller type }] }

variable (k : Nat)

/-- The iteration goes on, and everything else stays as it is. -/
def Manager.proceed (it : Iteration ι) : Manager ι :=
  { m with iterations := m.iterations.set k it }

def copyList : Option (Manager ι) := do
  let it ← m.iterations[k]?
  match it.interceptors with
  | none => some (m.proceed k { it with interceptors := some (m.list it.stage) })
  | some _ => none

/-- The loop comes to the next interceptor and looks whether it is one to call. -/
def next : Option (Manager ι) := do
  let it ← m.iterations[k]?
  match it.interceptors, it.place with
  | some (i :: rest), .between =>
    if it.loop.wants (info i) = true ∧ m.enabled i = true then
      some (m.proceed k { it with interceptors := some rest, place := .chosen i })
    else some (m.proceed k { it with interceptors := some rest })
  | _, _ => none

/-- The handler of an interceptor begins. -/
def Manager.call (it : Iteration ι) (i : ι) : Manager ι :=
  { m.proceed k { it with place := .inHandler } with
    lateCalls := if i ∈ m.released then m.lateCalls ++ [i] else m.lateCalls }

/-- What the loop has seen of the interceptor may have changed since. -/
def call : Option (Manager ι) := do
  let it ← m.iterations[k]?
  match it.place with
  | .chosen i => some (m.call k it i)
  | _ => none

/-- Only the loop of the caller ends when a handler says so. -/
def handlerReturns (abort : Bool) : Option (Manager ι) := do
  let it ← m.iterations[k]?
  match it.place with
  | .inHandler =>
    some (m.proceed k { it with
      interceptors := if abort && it.loop ≠ .readOnlyTask then some [] else it.interceptors
      place := .between })
  | _ => none

def step (m : Manager ι) : Event ι → Option (Manager ι)
  | .addInterceptor i => some (addInterceptor info m i)
  | .deleteInterceptor i => some (deleteInterceptor info m i)
  | .deleteAllInterceptor groupId => some (deleteAllInterceptor info m groupId)
  | .returns n => returns m n
  | .setAllInterceptorEnabled groupId enabled =>
    some (setAllInterceptorEnabled info m groupId enabled)
  | .iterate stage type => some (iterate m stage type)
  | .copyList k => copyList m k
  | .next k => next info m k
  | .call k => call m k
  | .handlerReturns k abort => handlerReturns m k abort

end Steps

section Inversion

variable {ι : Type} {info : ι → Interceptor} {m t : Manager ι} {k : Nat}

variable (info) in
/-- The loop is still to call the handler of the interceptor. -/
def Iteration.Owes (enabled : ι → Bool) (it : Iteration ι) (i : ι) : Prop :=
  it.place = .chosen i ∨ i ∈ it.left ∧ it.loop.wants (info i) = true ∧ enabled i = true

variable (info k) in
/-- The loop goes on and owes no call that it did not owe. -/
def Manager.GoesOn (m t : Manager ι) : Prop :=
  ∃ it it', m.iterations[k]? = some it ∧ t = m.proceed k it' ∧
    ∀ i, it'.Owes info m.enabled i → it.Owes info m.enabled i

theorem returns_eq_some {n : Nat} (h : returns m n = some t) :
    ∃ removed, m.deletions[n]? = some removed ∧
      t = { m with deletions := m.deletions.eraseIdx n, released := m.released ++ removed } := by
  obtain ⟨removed, hremoved, heq⟩ := map_eq_some_iff.1 h
  exact ⟨removed, hremoved, heq.symm⟩

theorem copyList_eq_some (h : copyList m k = some t) :
    ∃ it, m.iterations[k]? = some it ∧
      t = m.proceed k { it with interceptors := some (m.list it.stage) } := by
  obtain ⟨it, hit, hrest⟩ := bind_eq_some_iff.1 h
  grind

variable (info) in
theorem handlerReturns_goesOn {abort : Bool} (h : handlerReturns m k abort = some t) :
    m.GoesOn info k t := by
  obtain ⟨it, hit, hrest⟩ := bind_eq_some_iff.1 h
  split at hrest
  · refine ⟨it, _, hit, (some.inj hrest).symm, fun i howes => ?_⟩
    grind [Iteration.Owes, Iteration.left]
  · cases hrest

theorem next_goesOn (h : next info m k = some t) : m.GoesOn info k t := by
  obtain ⟨it, hit, hrest⟩ := bind_eq_some_iff.1 h
  split at hrest
  · split at hrest
    · refine ⟨it, _, hit, (some.inj hrest).symm, fun i howes => ?_⟩
      grind [Iteration.Owes, Iteration.left]
    · refine ⟨it, _, hit, (some.inj hrest).symm, fun i howes => ?_⟩
      grind [Iteration.Owes, Iteration.left]
  · cases hrest

theorem call_eq_some [DecidableEq ι] (h : call m k = some t) :
    ∃ it i, m.iterations[k]? = some it ∧ it.place = .chosen i ∧ t = m.call k it i := by
  obtain ⟨it, hit, hrest⟩ := bind_eq_some_iff.1 h
  split at hrest
  · rename_i i hplace
    exact ⟨it, i, hit, hplace, (some.inj hrest).symm⟩
  · cases hrest

end Inversion

section Registry

variable {ι : Type} {info : ι → Interceptor}

/-- What a deletion has removed, whether it has returned or not. -/
def Manager.deleted (m : Manager ι) : List ι := m.deletions.flatten ++ m.released

variable (info) in
/-- The lists have no duplicates, each interceptor is in the list of its stage, and what was
deleted is in neither. -/
structure Registry (m : Manager ι) : Prop where
  nodup : ∀ stage, (m.list stage).Nodup
  staged : ∀ stage, ∀ i ∈ m.list stage, (info i).stage = stage
  gone : ∀ i ∈ m.deleted, ¬m.Registered info i

variable {m t : Manager ι}

theorem registry_of_list_eq (hm : Registry info m) (hlist : t.list = m.list)
    (hdeleted : t.deleted ⊆ m.deleted) : Registry info t := by
  refine ⟨?_, ?_, ?_⟩
  · rw [hlist]
    exact hm.nodup
  · rw [hlist]
    exact hm.staged
  · intro i hi
    rw [Manager.Registered, hlist]
    exact hm.gone i (hdeleted hi)

variable [DecidableEq ι]

theorem registry_addInterceptor (hm : Registry info m) (i : ι) :
    Registry info (addInterceptor info m i) := by
  have hdeleted : ∀ j ∈ (addInterceptor info m i).deleted, j ≠ i ∧ j ∈ m.deleted := by
    intro j hj
    simp only [Manager.deleted, addInterceptor, mem_append, mem_flatten, List.mem_map,
      mem_filter, decide_eq_true_eq] at hj ⊢
    grind
  by_cases hi : m.Registered info i
  · apply registry_of_list_eq hm
    · exact if_pos hi
    · exact fun j hj => (hdeleted j hj).2
  · have hlist : (addInterceptor info m i).list =
        update m.list (info i).stage (m.list (info i).stage ++ [i]) := if_neg hi
    refine ⟨?_, ?_, ?_⟩
    · intro stage
      rw [hlist, update_apply]
      split
      · rw [← concat_eq_append]
        exact (hm.nodup _).concat hi
      · exact hm.nodup stage
    · intro stage j hj
      rw [hlist, update_apply] at hj
      grind [@hm.staged]
    · intro j hj hreg
      obtain ⟨hne, hgone⟩ := hdeleted j hj
      rw [Manager.Registered, hlist, update_apply] at hreg
      split at hreg
      · rename_i hstage
        rcases mem_append.1 hreg with hreg | hreg
        · rw [← hstage] at hreg
          exact hm.gone j hgone hreg
        · exact hne (mem_singleton.1 hreg)
      · exact hm.gone j hgone hreg

theorem registry_deleteInterceptor (hm : Registry info m) (i : ι) :
    Registry info (deleteInterceptor info m i) := by
  unfold deleteInterceptor
  split
  · have hsub : ∀ stage, (update m.list (info i).stage
        ((m.list (info i).stage).erase i) stage).Sublist (m.list stage) := by
      intro stage
      rw [update_apply]
      split
      · rename_i hstage
        rw [hstage]
        exact erase_sublist
      · exact List.Sublist.refl _
    refine ⟨fun stage => (hm.nodup stage).sublist (hsub stage),
      fun stage j hj => hm.staged stage j ((hsub stage).subset hj), ?_⟩
    intro j hj hreg
    by_cases hji : j = i
    · have hleft : i ∈ (m.list (info i).stage).erase i := by
        simpa [hji, Manager.Registered] using hreg
      exact (hm.nodup _).not_mem_erase hleft
    · apply hm.gone j _ ((hsub _).subset hreg)
      simpa [Manager.deleted, hji] using hj
  grind [registry_of_list_eq, Manager.deleted]

omit [DecidableEq ι] in
theorem registry_deleteAllInterceptor (hm : Registry info m) (groupId : Int) :
    Registry info (deleteAllInterceptor info m groupId) := by
  refine ⟨fun stage => (hm.nodup stage).filter _, ?_, ?_⟩
  · intro stage j hj
    exact hm.staged stage j (mem_of_mem_filter hj)
  · intro j hj hreg
    obtain ⟨hlist, hgroup⟩ := mem_filter.1 hreg
    simp only [Manager.deleted, deleteAllInterceptor, flatten_append, flatten_singleton,
      mem_append, mem_filter, decide_eq_true_eq] at hj
    rcases hj with (hj | ⟨-, hj⟩) | hj
    · exact hm.gone j (mem_append_left _ hj) hlist
    · exact of_decide_eq_true hgroup hj
    · exact hm.gone j (mem_append_right _ hj) hlist

omit [DecidableEq ι] in
theorem returns_deleted {n : Nat} (h : returns m n = some t) : t.deleted ⊆ m.deleted := by
  obtain ⟨removed, hremoved, rfl⟩ := returns_eq_some h
  intro j hj
  simp only [Manager.deleted, mem_append, mem_flatten] at hj ⊢
  grind [mem_of_mem_eraseIdx]

theorem registry_step (hm : Registry info m) {e : Event ι}
    (h : step info m e = some t) : Registry info t := by
  have hsame : ∀ {t : Manager ι}, t.list = m.list → t.deletions = m.deletions →
      t.released = m.released → Registry info t := by
    intro t hlist hdeletions hreleased
    apply registry_of_list_eq hm hlist
    rw [Manager.deleted, hdeletions, hreleased]
    exact List.Subset.refl _
  cases e with
  | addInterceptor i =>
    cases h
    exact registry_addInterceptor hm i
  | deleteInterceptor i =>
    cases h
    exact registry_deleteInterceptor hm i
  | deleteAllInterceptor groupId =>
    cases h
    exact registry_deleteAllInterceptor hm groupId
  | returns n =>
    refine registry_of_list_eq hm ?_ (returns_deleted h)
    obtain ⟨removed, -, rfl⟩ := returns_eq_some h
    rfl
  | setAllInterceptorEnabled groupId enabled =>
    cases h
    exact hsame rfl rfl rfl
  | iterate stage type =>
    cases h
    exact hsame rfl rfl rfl
  | copyList k =>
    obtain ⟨it, -, rfl⟩ := copyList_eq_some h
    exact hsame rfl rfl rfl
  | next k =>
    obtain ⟨it, it', -, rfl, -⟩ := next_goesOn h
    exact hsame rfl rfl rfl
  | call k =>
    obtain ⟨it, i, -, -, rfl⟩ := call_eq_some h
    exact hsame rfl rfl rfl
  | handlerReturns k abort =>
    obtain ⟨it, it', -, rfl, -⟩ := handlerReturns_goesOn info h
    exact hsame rfl rfl rfl

end Registry

end Netstack.HttpInterceptor
