import Netstack.Foundation.Execution
import Netstack.HttpInterceptor.Manager

/-!
# Deleted interceptors

A deletion takes an interceptor out of the list and returns. It does not wait for the threads
that have copied the list before, and these call the handler after its owner may have freed
it.
-/

namespace Netstack.HttpInterceptor

open Foundation.Execution List Option Iteration

section Owed

variable {ι : Type} (info : ι → Interceptor)

variable (m : Manager ι)

/-- Some loop is still to call the handler of the interceptor. -/
def Manager.Owed (i : ι) : Prop :=
  ∃ it ∈ m.iterations, it.Owes info m.enabled i

def NoLateCall : Prop := m.lateCalls = []

/-- No call of a released interceptor is still to come. -/
def Settled : Prop := ∀ i ∈ m.released, ¬m.Owed info i

/-- A deletion returns only when no loop is still to call what it has removed. -/
def Quiescent : Event ι → Prop
  | .returns n => ∀ i ∈ (m.deletions[n]?).getD [], ¬m.Owed info i
  | _ => True

variable [DecidableEq ι]

instance (i : ι) : Decidable (m.Owed info i) :=
  inferInstanceAs (Decidable (∃ it ∈ m.iterations, _ ∨ _))

instance : Decidable (NoLateCall m) := inferInstanceAs (Decidable (_ = []))

instance (e : Event ι) : Decidable (Quiescent info m e) := by
  cases e <;> dsimp only [Quiescent] <;> infer_instance

end Owed

section Loops

variable {ι : Type} {info : ι → Interceptor} {m : Manager ι} {k : Nat} {i : ι} {it : Iteration ι}

theorem owed_of_proceed {it' : Iteration ι} (hit : m.iterations[k]? = some it)
    (howes : it'.Owes info m.enabled i → it.Owes info m.enabled i)
    (h : (m.proceed k it').Owed info i) : m.Owed info i := by
  obtain ⟨jt, hjt, hi⟩ := h
  rcases mem_or_eq_of_mem_set hjt with hjt | rfl
  · exact ⟨jt, hjt, hi⟩
  · exact ⟨it, mem_of_getElem? hit, howes hi⟩

/-- A copy of the list has no deleted interceptor in it. -/
theorem owed_of_copyList (hm : Registry info m) (hgone : ¬m.Registered info i)
    (hit : m.iterations[k]? = some it)
    (h : (m.proceed k { it with interceptors := some (m.list it.stage) }).Owed info i) :
    m.Owed info i := by
  refine owed_of_proceed hit ?_ h
  rintro (hchosen | ⟨hlist, -⟩)
  · exact Or.inl hchosen
  · have hmem : i ∈ m.list it.stage := hlist
    grind [Manager.Registered, @hm.staged]

theorem owed_of_iterate {stage : Stage} {type : InterceptorType}
    (h : (iterate m stage type).Owed info i) : m.Owed info i := by
  obtain ⟨jt, hjt, hi⟩ := h
  rcases mem_append.1 hjt with hjt | hjt
  · exact ⟨jt, hjt, hi⟩
  · rcases mem_pair.1 hjt with rfl | rfl
    · simp [Owes, left] at hi
    · simp [Owes, left] at hi

theorem owed_of_setAllInterceptorEnabled [DecidableEq ι] {groupId : Int} {enabled : Bool}
    (hgone : ¬m.Registered info i)
    (h : (setAllInterceptorEnabled info m groupId enabled).Owed info i) : m.Owed info i := by
  obtain ⟨jt, hjt, howes⟩ := h
  have hsame : (setAllInterceptorEnabled info m groupId enabled).enabled i = m.enabled i :=
    if_neg fun h => hgone h.1
  rw [Owes, hsame] at howes
  exact ⟨jt, hjt, howes⟩

end Loops

section Safety

variable {ι : Type} [DecidableEq ι] {info : ι → Interceptor} {m t : Manager ι}

theorem settled_step (hm : Registry info m) (hs : Settled info m) {e : Event ι}
    (hquiet : Quiescent info m e) (h : step info m e = some t) : Settled info t := by
  have hgone : ∀ i ∈ m.released, ¬m.Registered info i := fun i hi =>
    hm.gone i (mem_append_right _ hi)
  cases e with
  | addInterceptor i =>
    cases h
    intro j hj
    exact hs j (mem_of_mem_filter hj)
  | deleteInterceptor i =>
    cases h
    unfold deleteInterceptor
    split
    · exact hs
    · exact hs
  | deleteAllInterceptor groupId =>
    cases h
    exact hs
  | returns n =>
    obtain ⟨removed, hremoved, rfl⟩ := returns_eq_some h
    intro j hj
    rcases mem_append.1 hj with hj | hj
    · exact hs j hj
    · apply hquiet j
      rw [hremoved]
      exact hj
  | setAllInterceptorEnabled groupId enabled =>
    cases h
    intro j hj howed
    exact hs j hj (owed_of_setAllInterceptorEnabled (hgone j hj) howed)
  | iterate stage type =>
    cases h
    intro j hj howed
    exact hs j hj (owed_of_iterate howed)
  | copyList k =>
    obtain ⟨it, hit, rfl⟩ := copyList_eq_some h
    intro j hj howed
    exact hs j hj (owed_of_copyList hm (hgone j hj) hit howed)
  | next k =>
    obtain ⟨it, it', hit, rfl, howes⟩ := next_goesOn h
    exact fun j hj howed => hs j hj (owed_of_proceed hit (howes j) howed)
  | call k =>
    obtain ⟨it, i, hit, -, rfl⟩ := call_eq_some h
    intro j hj howed
    apply hs j hj
    have howes : Owes info m.enabled { it with place := .inHandler } j → it.Owes info m.enabled j :=
      fun howes => Or.inr (howes.resolve_left nofun)
    exact owed_of_proceed hit howes howed
  | handlerReturns k abort =>
    obtain ⟨it, it', hit, rfl, howes⟩ := handlerReturns_goesOn info h
    exact fun j hj howed => hs j hj (owed_of_proceed hit (howes j) howed)

theorem noLateCall_step (hs : Settled info m) (hnone : NoLateCall m) {e : Event ι}
    (h : step info m e = some t) : NoLateCall t := by
  cases e with
  | addInterceptor i =>
    cases h
    exact hnone
  | deleteInterceptor i =>
    cases h
    unfold deleteInterceptor
    split
    · exact hnone
    · exact hnone
  | deleteAllInterceptor groupId =>
    cases h
    exact hnone
  | returns n =>
    obtain ⟨removed, -, rfl⟩ := returns_eq_some h
    exact hnone
  | setAllInterceptorEnabled groupId enabled =>
    cases h
    exact hnone
  | iterate stage type =>
    cases h
    exact hnone
  | copyList k =>
    obtain ⟨it, -, rfl⟩ := copyList_eq_some h
    exact hnone
  | next k =>
    obtain ⟨it, it', -, rfl, -⟩ := next_goesOn h
    exact hnone
  | call k =>
    obtain ⟨it, i, hit, hplace, rfl⟩ := call_eq_some h
    have hkept : i ∉ m.released := fun hi => hs i hi ⟨it, mem_of_getElem? hit, Or.inl hplace⟩
    exact (if_neg hkept).trans hnone
  | handlerReturns k abort =>
    obtain ⟨it, it', -, rfl, -⟩ := handlerReturns_goesOn info h
    exact hnone

end Safety

section Lateness

variable {ι : Type} {info : ι → Interceptor} {m : Manager ι} {i : ι} {k : Nat}

variable {it : Iteration ι}

theorem proceed_getElem? (it' : Iteration ι)
    (hit : m.iterations[k]? = some it) : (m.proceed k it').iterations[k]? = some it' := by
  have hk : k < m.iterations.length := (List.getElem?_eq_some_iff.1 hit).1
  exact List.getElem?_set_self hk

variable [DecidableEq ι] {rest : List ι}

variable (info) in
/-- Some run from here has a late call in it. -/
def MayCallLate (m : Manager ι) : Prop :=
  ∃ (as : List (Event ι)) (t : Manager ι), as.foldlM (step info) m = some t ∧ ¬NoLateCall t

theorem mayCallLate_of_step {t : Manager ι} {e : Event ι} (h : step info m e = some t)
    (ht : MayCallLate info t) : MayCallLate info m := by
  obtain ⟨as, u, hu, hlate⟩ := ht
  refine ⟨e :: as, u, ?_, hlate⟩
  rw [foldlM_cons, h]
  exact hu

theorem mayCallLate_of_inHandler (hit : m.iterations[k]? = some it) (hbusy : it.place = .inHandler)
    (h : MayCallLate info (m.proceed k { it with place := .between })) : MayCallLate info m := by
  apply mayCallLate_of_step (e := .handlerReturns k false) _ h
  simp [step, handlerReturns, hit, hbusy]

/-- A loop that is about to call a handler calls it and goes on. -/
theorem mayCallLate_of_chosen {j : ι} (hit : m.iterations[k]? = some it)
    (hplace : it.place = .chosen j)
    (h : j ∈ m.released ∨
      MayCallLate info ((m.call k it j).proceed k { it with place := .between })) :
    MayCallLate info m := by
  have hcall : step info m (.call k) = some (m.call k it j) := by simp [step, call, hit, hplace]
  apply mayCallLate_of_step hcall
  obtain hreleased | hlate := h
  · refine ⟨[], _, rfl, ?_⟩
    simp [NoLateCall, Manager.call, hreleased]
  · exact mayCallLate_of_inHandler (proceed_getElem? _ hit) rfl hlate

/-- Left alone, a loop that is not in a handler comes to everything it still has to call. -/
theorem mayCallLate_of_left {l : List ι} (hit : m.iterations[k]? = some it)
    (hleft : it.interceptors = some l) (hfree : it.place = .between) (hi : i ∈ l)
    (hcalls : it.loop.wants (info i) = true ∧ m.enabled i = true) (hreleased : i ∈ m.released) :
    MayCallLate info m := by
  induction l generalizing m it with
  | nil => cases hi
  | cons j rest ih =>
    have hnext : next info m k = if it.loop.wants (info j) = true ∧ m.enabled j = true then
          some (m.proceed k { it with interceptors := some rest, place := .chosen j })
        else some (m.proceed k { it with interceptors := some rest }) := by
      simp only [next, hit, hleft, hfree, bind_eq_bind, bind_some]
    by_cases hj : it.loop.wants (info j) = true ∧ m.enabled j = true
    · apply mayCallLate_of_step (e := .next k) (hnext.trans (if_pos hj))
      by_cases hji : j = i
      · exact mayCallLate_of_chosen (proceed_getElem? _ hit) rfl (Or.inl (hji ▸ hreleased))
      · have hrest : i ∈ rest := (mem_cons.1 hi).resolve_left (Ne.symm hji)
        have hset := proceed_getElem? { it with interceptors := some rest, place := .chosen j } hit
        refine mayCallLate_of_chosen hset rfl (Or.inr ?_)
        exact ih (proceed_getElem? _ (proceed_getElem? _ hset)) rfl rfl hrest hcalls hreleased
    · have hji : j ≠ i := by
        rintro rfl
        exact hj hcalls
      have hrest : i ∈ rest := (mem_cons.1 hi).resolve_left hji.symm
      apply mayCallLate_of_step (e := .next k) (hnext.trans (if_neg hj))
      exact ih (proceed_getElem? _ hit) rfl hfree hrest hcalls hreleased

theorem mayCallLate_of_owed (howed : m.Owed info i) (hreleased : i ∈ m.released) :
    MayCallLate info m := by
  obtain ⟨it, hmem, howes⟩ := howed
  obtain ⟨k, hit⟩ := List.getElem?_of_mem hmem
  obtain hchosen | ⟨hi, hcalls⟩ := howes
  · exact mayCallLate_of_chosen hit hchosen (Or.inl hreleased)
  have hleft : it.interceptors = some it.left := by
    cases hcopy : it.interceptors with
    | none =>
      rw [left, hcopy] at hi
      cases hi
    | some l => rw [left, hcopy, getD_some]
  cases hplace : it.place with
  | between => exact mayCallLate_of_left hit hleft hplace hi hcalls hreleased
  | chosen j =>
    refine mayCallLate_of_chosen hit hplace (Or.inr ?_)
    exact mayCallLate_of_left (proceed_getElem? _ (proceed_getElem? _ hit)) hleft rfl hi hcalls
      hreleased
  | inHandler =>
    apply mayCallLate_of_inHandler hit hplace
    exact mayCallLate_of_left (proceed_getElem? _ hit) hleft rfl hi hcalls hreleased

end Lateness

section Result

variable {ι : Type} [DecidableEq ι] (info : ι → Interceptor) (enabled : ι → Bool)

/-- Whoever adds, deletes and calls interceptors at the same time, the lists stay in order. -/
theorem registry_throughout (as : List (Event ι)) :
    Throughout (step info) (Registry info) as { enabled := enabled } :=
  throughout_of_invariant (fun _ _ _ hm h => registry_step hm h) (fun _ h => h) as
    ⟨fun _ => nodup_nil, nofun, nofun⟩

/-- As long as deletions wait for the loops, no handler of a released interceptor is called;
and where one does not, a late call may follow. -/
theorem deleted_interceptor_not_called :
    (∀ as : List (Event ι), Meets (step info) (Quiescent info) as { enabled := enabled } →
      Throughout (step info) NoLateCall as { enabled := enabled }) ∧
    ∀ (m t : Manager ι) (n : Nat), step info m (.returns n) = some t →
      ¬Quiescent info m (.returns n) → ∃ as, ¬Throughout (step info) NoLateCall as t := by
  constructor
  · intro as hmeets
    apply throughout_of_meets
      (J := fun m => Registry info m ∧ Settled info m ∧ NoLateCall m) _ _ as _ hmeets
    · rintro s e t ⟨hregistry, hsettled, hnone⟩ hquiet h
      exact ⟨registry_step hregistry h, settled_step hregistry hsettled hquiet h,
        noLateCall_step hsettled hnone h⟩
    · exact fun s h => h.2.2
    · refine ⟨⟨fun _ => nodup_nil, ?_, ?_⟩, ?_, rfl⟩
      · intro stage i hi
        cases hi
      · intro i hi
        cases hi
      · intro i hi
        cases hi
  · intro m t n h hnot
    obtain ⟨removed, hremoved, rfl⟩ := returns_eq_some h
    simp only [Quiescent, hremoved, getD_some, not_forall, not_not] at hnot
    obtain ⟨i, hi, howed⟩ := hnot
    obtain ⟨as, u, hu, hlate⟩ := mayCallLate_of_owed
      (m := { m with deletions := m.deletions.eraseIdx n, released := m.released ++ removed })
      howed (mem_append_right _ hi)
    exact ⟨as, fun hall => hlate (hall.finish hu)⟩

end Result

/-- A thread calls the handler of an interceptor, and its deletion returns after that. -/
def waitingDeletion : List (Event Unit) :=
  [.addInterceptor (), .iterate .request .modifyNetworkKit, .copyList 1, .deleteInterceptor (),
    .next 1, .call 1, .handlerReturns 1 false, .returns 0]

theorem waitingDeletion_not_called :
    Meets (step fun _ : Unit => {}) (Quiescent fun _ => {}) waitingDeletion {} ∧
      Throughout (step fun _ : Unit => {}) NoLateCall waitingDeletion {} :=
  ⟨by decide, (deleted_interceptor_not_called _ _).1 waitingDeletion (by decide)⟩

/-- A thread has copied the list, the interceptor is deleted and the deletion returns; then
the thread calls the handler. -/
theorem released_interceptor_called :
    ((([.addInterceptor (), .iterate .request .modifyNetworkKit, .copyList 1,
      .deleteInterceptor (), .returns 0, .next 1, .call 1] : List (Event Unit)).foldlM
        (step fun _ : Unit => {}) {}).map Manager.lateCalls) = some [()] := by
  decide

end Netstack.HttpInterceptor
