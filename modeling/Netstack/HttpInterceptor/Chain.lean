import Netstack.Foundation.ByteStrings
import Netstack.HttpInterceptor.Manager

/-!
# The chain of the request interceptors

`IteratorRequestInterceptor` goes through the list of the requests and calls the handlers of
one type. It is only reached if `HasEnabledRequestInterceptor` says so.

## Implementation notes

No handler is called twice in one iteration, so a handler is a function of the request. The
list of the responses is left out.
-/

namespace Netstack.HttpInterceptor

open Foundation List

structure Request where
  url : Bytes := []
  method : Bytes := []
  body : Bytes := []
  /-- The items of the list; one may have no data. -/
  headers : List (Option Bytes) := []

/-- `CopyHttpInterceRequest` into a new request. -/
def Request.copy (req : Request) : Request :=
  { req with headers := req.headers.filter Option.isSome }

structure Answer where
  request : Request
  isModifiedFlag : Int := 0
  abort : Bool := false

/-- The list of the requests, and the flags that the interceptors have. -/
structure RequestList (ι : Type) where
  list : List ι := []
  enabled : ι → Int

inductive Call (ι : Type) where
  | addInterceptor (i : ι)
  | deleteInterceptor (i : ι)
  | deleteAllInterceptor (groupId : Int)
  | setAllInterceptorEnabled (groupId enabled : Int)

structure Iterated (ι : Type) where
  request : Request
  isModified : Bool
  result : Bool := false
  /-- The handlers that were called and what they answered. -/
  calls : List (ι × Answer) := []

variable {ι : Type} [DecidableEq ι] (info : ι → Interceptor) (s : RequestList ι)
  (type : InterceptorType) (handler : ι → Request → Answer)

def RequestList.call (s : RequestList ι) : Call ι → RequestList ι
  | .addInterceptor i =>
    if (info i).stage = .request ∧ i ∉ s.list then { s with list := s.list ++ [i] } else s
  | .deleteInterceptor i => { s with list := s.list.erase i }
  | .deleteAllInterceptor groupId =>
    { s with list := s.list.filter fun i => (info i).groupId ≠ groupId }
  | .setAllInterceptorEnabled groupId enabled =>
    { s with enabled := fun i =>
        if i ∈ s.list ∧ (info i).groupId = groupId then enabled else s.enabled i }

omit [DecidableEq ι] in
def hasEnabledRequestInterceptor : Bool := s.list.any (s.enabled · == 1)

def RequestList.calls (i : ι) : Bool :=
  (Loop.caller type).wants (info i) && s.enabled i != 0

def iterateOver (c : Iterated ι) : List ι → Iterated ι
  | [] => c
  | i :: rest =>
    if s.calls info type i then
      let ret := handler i c.request
      let c : Iterated ι :=
        { request := ret.request, isModified := c.isModified || ret.isModifiedFlag != 0,
          result := ret.abort, calls := c.calls ++ [(i, ret)] }
      if ret.abort then c else iterateOver c rest
    else iterateOver c rest

def iteratorRequestInterceptor (req : Request) (isModified needDeepCopy : Bool) : Iterated ι :=
  let c := iterateOver info s type handler
    { request := if needDeepCopy then req.copy else req, isModified := isModified } s.list
  { c with request := if needDeepCopy && !c.isModified then req else c.request }

/-- The handlers are called one after another until one of them aborts. -/
def callsOf : List ι → Request → List (ι × Answer)
  | [], _ => []
  | i :: rest, req =>
    (i, handler i req) ::
      if (handler i req).abort then [] else callsOf rest (handler i req).request

omit [DecidableEq ι] in
theorem iterateOver_spec (rest : List ι) {c : Iterated ι} (hresult : c.result = false) :
    let made := callsOf handler (rest.filter (s.calls info type)) c.request
    (iterateOver info s type handler c rest).calls = c.calls ++ made ∧
      (iterateOver info s type handler c rest).result = made.any (·.2.abort) ∧
      (iterateOver info s type handler c rest).isModified =
        (c.isModified || made.any (·.2.isModifiedFlag != 0)) := by
  induction rest generalizing c with
  | nil => simp [iterateOver, callsOf, hresult]
  | cons i rest ih =>
      rw [iterateOver, filter_cons]
      by_cases hcalls : s.calls info type i = true
      · simp only [if_pos hcalls, callsOf]
        cases habort : (handler i c.request).abort with
        | true => simp [habort]
        | false =>
            simp only [Bool.false_eq_true, if_false]
            have hrest := ih (c := ⟨(handler i c.request).request,
              c.isModified || (handler i c.request).isModifiedFlag != 0, false,
              c.calls ++ [(i, handler i c.request)]⟩) rfl
            simpa [habort, Bool.or_assoc] using hrest
      · simp only [if_neg hcalls]
        exact ih hresult

theorem nodup_call (h : s.list.Nodup) (call : Call ι) : (s.call info call).list.Nodup := by
  cases call with
  | addInterceptor i =>
      rw [RequestList.call]
      split
      · next hnew => exact concat_eq_append ▸ h.concat hnew.2
      · exact h
  | deleteInterceptor i => exact h.erase i
  | deleteAllInterceptor groupId => exact h.filter _
  | setAllInterceptorEnabled groupId enabled => exact h

/-- The handlers that are called, the abort and the changes are those of the list in its order, and
the check before is not in the way, if and only if a handler to be called comes with a flag that
is 1. -/
theorem requestChain_iff (flags : ι → Int) (history : List (Call ι)) (req : Request) :
    let s := history.foldl (RequestList.call info) { enabled := flags }
    let chain := iteratorRequestInterceptor info s type handler req false
    let Reached := ∃ i ∈ s.list, s.calls info type i = true
    ((∀ needDeepCopy, (chain needDeepCopy).calls = callsOf handler
            (s.list.filter (s.calls info type)) (if needDeepCopy then req.copy else req) ∧
          ((chain needDeepCopy).result = true ↔
            ∃ a ∈ (chain needDeepCopy).calls, a.2.abort = true)) ∧
        s.list.Nodup ∧
        ((∀ a ∈ (chain true).calls, a.2.isModifiedFlag = 0) → (chain true).request = req) ∧
        (Reached → hasEnabledRequestInterceptor s = true)) ↔
      (Reached → ∃ i ∈ s.list, s.enabled i = 1) := by
  intro s chain Reached
  have hnodup : s.list.Nodup :=
    foldlRecOn history (RequestList.call info) nodup_nil fun s hs call _ =>
      nodup_call info s hs call
  have hgate : hasEnabledRequestInterceptor s = true ↔ ∃ i ∈ s.list, s.enabled i = 1 := by
    simp [hasEnabledRequestInterceptor]
  have hspec (needDeepCopy : Bool) := iterateOver_spec info s type handler s.list
    (c := ⟨if needDeepCopy then req.copy else req, false, false, []⟩) rfl
  constructor
  · rintro ⟨-, -, -, hopen⟩ hreached
    exact hgate.mp (hopen hreached)
  · intro hone
    refine ⟨fun needDeepCopy => ?_, hnodup, fun hflags => ?_, fun hreached =>
      hgate.mpr (hone hreached)⟩
    · obtain ⟨hcalls, hresult, -⟩ := hspec needDeepCopy
      have hmade : (chain needDeepCopy).calls = _ := hcalls
      have habort : (chain needDeepCopy).result = _ := hresult
      rw [habort, hmade, nil_append, any_eq_true]
      exact ⟨rfl, Iff.rfl⟩
    · obtain ⟨hcalls, -, hmodified⟩ := hspec true
      have hmade : (chain true).calls = _ := hcalls
      rw [hmade, nil_append] at hflags
      have hkept : (chain true).isModified = false := hmodified.trans (by simpa using hflags)
      have hback : (true && !(chain true).isModified) = true := by
        rw [hkept]
        rfl
      exact if_pos hback

/-- With the flag 2 the handler would be called, but the chain is not reached. -/
theorem enabled_but_not_reached :
    let s := [.addInterceptor (), .setAllInterceptorEnabled 0 2].foldl
      (RequestList.call fun _ => {}) { enabled := fun _ => 1 }
    s.calls (fun _ => {}) .modifyNetworkKit () = true ∧
      hasEnabledRequestInterceptor s = false := by
  decide

end Netstack.HttpInterceptor
