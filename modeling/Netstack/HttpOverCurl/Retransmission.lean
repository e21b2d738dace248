import Netstack.HttpOverCurl.Accounting

/-!
# What a handover sends again

A request is given to curl when it comes in, when its transfer failed during a handover and
when a handover has ended. Before the last two `CheckRequestCanRetrans` is asked, which takes an
error of the connection as a sign that nothing was sent. That is wrong after a redirect.

## Implementation notes

The time of the first transfer is zero as long as no hop of the attempt has begun to send.
-/

namespace Netstack.HttpOverCurl

open Function Foundation Foundation.Execution Ledger List

theorem checkRequestCanRetrans_of_not_safe {info : TransferInfo} {result : Nat}
    (hrisky : isSafe info.method = false) (h : checkRequestCanRetrans info result = true) :
    isConnectError result = true ∨ ∃ recvtime, info.times = some (recvtime, 0) := by
  grind [checkRequestCanRetrans]

section Attempts

variable {ι : Type} [DecidableEq ι]

variable (s : Driver ι)

/-- A transfer that failed is started again at once. -/
def retransmitsNow (r : ι) (m : DoneMessage) : Bool :=
  match s.requestEndtime r with
  | none => false
  | some endTime =>
    isNetworkErrorTypeCorrect m.result && checkRequestCanRetrans m.info m.result &&
      !(tryFlowControl m.status r s).1 && endTime + 1 == s.endTime &&
      (retransRequest m.added r s).1

/-- A transfer that failed is kept back until the end of the handover. -/
def retransmitsLater (r : ι) (m : DoneMessage) : Bool :=
  (s.requestEndtime r).isSome && isNetworkErrorTypeCorrect m.result &&
    checkRequestCanRetrans m.info m.result && (tryFlowControl m.status r s).1

variable (handover : Bool)

/-- The requests whose handles curl takes at an event. -/
def attempts (s : Driver ι) : Event ι → List ι
  | .incoming batch =>
    (batch.filter fun item =>
      !(handover && (tryFlowControl item.status item.request s).1) && item.added).map
        Incoming.request
  | .done r m => if handover && retransmitsNow s r m then [r] else []
  | .handover .ended info added | .handover .timeout info added =>
    ((s.place .ongoingRequests).filter fun r =>
        checkRequestCanRetrans (info r) curleOk && (retransRequest (added r) r s).1) ++
      (s.place .handoverQueue).filter fun r => (retransRequest (added r) r s).1
  | _ => []

theorem processRequestNetError_place (r : ι) (m : DoneMessage) :
    (processRequestNetError r m s).2.place =
      if retransmitsLater s r m then s.place.insert .handoverQueue r
      else if retransmitsNow s r m then s.place.insert .ongoingRequests r
      else s.place := by
  unfold processRequestNetError retransmitsLater retransmitsNow
  cases s.requestEndtime r with
  | none => rfl
  | some endTime =>
    simp only [tryFlowControl_eq, retransRequest]
    grind [Driver.insert]

theorem tryFlowControl_fst (status : Status) (r : ι) (s : Driver ι) :
    (tryFlowControl status r s).1 = decide (status = .start) := by
  cases status <;> rfl

theorem retransRequest_fst (added : Bool) (r : ι) (s : Driver ι) :
    (retransRequest added r s).1 = added := by
  cases added <;> rfl

theorem retransmitsNow_erase (r : ι) (m : DoneMessage) :
    retransmitsNow (s.erase .ongoingRequests r) r m = retransmitsNow s r m := by
  simp only [retransmitsNow, tryFlowControl_fst, retransRequest_fst]
  rfl

theorem retransmitsLater_erase (r : ι) (m : DoneMessage) :
    retransmitsLater (s.erase .ongoingRequests r) r m = retransmitsLater s r m := by
  simp only [retransmitsLater, tryFlowControl_fst]
  rfl

/-- A transfer that is not kept back is not started again either way. -/
theorem retransmitsNow_of_later {s : Driver ι} {r : ι} {m : DoneMessage}
    (h : retransmitsLater s r m = true) : retransmitsNow s r m = false := by
  have hflow := (Bool.and_eq_true_iff.1 h).2
  grind [retransmitsNow]

theorem netErrorFirst_place (s : Driver ι) (r : ι) (m : DoneMessage) :
    (netErrorFirst handover r m s).2.place =
      if handover && retransmitsLater s r m then s.place.insert .handoverQueue r
      else if handover && retransmitsNow s r m then s.place.insert .ongoingRequests r
      else s.place := by
  cases handover with
  | false => rfl
  | true => exact processRequestNetError_place s r m

theorem handleCurlDoneMessage_place (s : Driver ι) (r : ι) (m : DoneMessage)
    {k : Place} (hredirect : k ≠ .redirectInterceptor) (hdone : k ≠ .doneCallback) :
    (handleCurlDoneMessage handover r m s).place k =
      (netErrorFirst handover r m (s.erase .ongoingRequests r)).2.place k := by
  rw [handleCurlDoneMessage_eq]
  split
  · rfl
  · obtain ⟨k', hk', heq⟩ := finishTransfer_eq r m
      (netErrorFirst handover r m (s.erase .ongoingRequests r)).2
    rw [heq]
    apply put_of_ne
    rintro rfl
    exact hk'.elim hredirect hdone

section Done

variable {handover : Bool} {s : Driver ι} {r j : ι} {m : DoneMessage}

theorem mem_handoverQueue_done
    (hj : j ∈ (handleCurlDoneMessage handover r m s).place .handoverQueue) :
    j ∈ s.place .handoverQueue ∨ j = r ∧ (handover && retransmitsLater s r m) = true := by
  rw [handleCurlDoneMessage_place handover s r m (by decide) (by decide), netErrorFirst_place,
    retransmitsLater_erase] at hj
  split at hj
  · obtain hold | ⟨-, rfl⟩ := mem_insert.1 hj
    · exact Or.inl hold
    · exact Or.inr ⟨rfl, ‹_›⟩
  · split at hj
    · obtain hold | ⟨hplace, -⟩ := mem_insert.1 hj
      · exact Or.inl hold
      · exact absurd hplace (by decide)
    · exact Or.inl hj

theorem mem_ongoingRequests_done :
    j ∈ (handleCurlDoneMessage handover r m s).place .ongoingRequests ↔
      j ∈ (s.place .ongoingRequests).erase r ∨
        j ∈ attempts handover s (.done r m) := by
  have herase : (s.erase .ongoingRequests r).place .ongoingRequests =
      (s.place .ongoingRequests).erase r := take_self s.place .ongoingRequests r
  rw [handleCurlDoneMessage_place handover s r m (by decide) (by decide), netErrorFirst_place,
    retransmitsLater_erase, retransmitsNow_erase, attempts]
  cases hlater : handover && retransmitsLater s r m with
  | true =>
    have hnow := retransmitsNow_of_later (Bool.and_eq_true_iff.1 hlater).2
    rw [if_pos rfl, mem_insert, herase, hnow]
    simp
  | false =>
    rw [if_neg Bool.false_ne_true]
    grind [mem_insert]

end Done

section Incoming

variable (handover : Bool) {s : Driver ι} {r : ι} {item : Incoming ι}

theorem mem_handoverQueue_incomingRequest
    (hr : r ∈ (incomingRequest handover s item).place .handoverQueue) :
    r ∈ s.place .handoverQueue ∨ r = item.request := by
  rw [incomingRequest_eq] at hr
  split at hr
  · exact (mem_insert.1 hr).imp_right And.right
  · split at hr
    · exact (mem_insert.1 hr).imp_right And.right
    · change r ∈ (s.place.insert .ongoingRequests item.request).take .ongoingRequests
        item.request .handoverQueue at hr
      rw [take_of_ne _ (by decide)] at hr
      exact (mem_insert.1 hr).imp_right And.right

theorem mem_ongoingRequests_incomingRequest (hnew : item.request ∉ s.place .ongoingRequests) :
    r ∈ (incomingRequest handover s item).place .ongoingRequests ↔
      r ∈ s.place .ongoingRequests ∨ r ∈ attempts handover s (.incoming [item]) := by
  rw [incomingRequest_eq]
  simp only [attempts, tryFlowControl_fst]
  by_cases hback : handover = true ∧ item.status = .start
  · rw [if_pos hback]
    refine mem_insert.trans ?_
    simp [hback.1, hback.2, noted]
  · have hflow : (handover && decide (item.status = .start)) = false := by
      simpa [Bool.and_eq_false_iff] using hback
    rw [if_neg hback]
    cases hadded : item.added with
    | true =>
      refine mem_insert.trans ?_
      rw [filter_cons, hflow, hadded]
      simp [noted]
    | false =>
      change r ∈ ((s.place.insert .ongoingRequests item.request).take .ongoingRequests
        item.request) .ongoingRequests ↔ _
      rw [insert_of_notMem hnew, take_put _ hnew]
      simp [hadded]

theorem attempts_incoming_cons (item : Incoming ι) (rest : List (Incoming ι)) (t : Driver ι) :
    attempts handover s (.incoming (item :: rest)) =
      attempts handover s (.incoming [item]) ++ attempts handover t (.incoming rest) := by
  simp only [attempts, tryFlowControl_fst]
  rw [← map_append, ← filter_append]
  rfl

theorem mem_handoverQueue_incoming {batch : List (Incoming ι)}
    (hr : r ∈ (incomingRequestCallback handover batch s).place .handoverQueue) :
    r ∈ s.place .handoverQueue ∨ r ∈ batch.map Incoming.request := by
  induction batch generalizing s with
  | nil => exact Or.inl hr
  | cons item rest ih =>
    obtain hafter | hrest := ih hr
    · obtain hbefore | rfl := mem_handoverQueue_incomingRequest handover hafter
      · exact Or.inl hbefore
      · exact Or.inr mem_cons_self
    · exact Or.inr (mem_cons_of_mem _ hrest)

theorem mem_ongoingRequests_incoming {batch : List (Incoming ι)}
    (hnodup : (batch.map Incoming.request).Nodup)
    (hnew : ∀ item ∈ batch, item.request ∉ s.place .ongoingRequests) :
    r ∈ (incomingRequestCallback handover batch s).place .ongoingRequests ↔
      r ∈ s.place .ongoingRequests ∨ r ∈ attempts handover s (.incoming batch) := by
  induction batch generalizing s with
  | nil => simp [incomingRequestCallback, attempts]
  | cons item rest ih =>
    obtain ⟨hfirst, hrest⟩ := nodup_cons.1 hnodup
    have hstep := fun j => mem_ongoingRequests_incomingRequest handover (r := j)
      (hnew item mem_cons_self)
    have hattempt : ∀ j ∈ attempts handover s (.incoming [item]), j = item.request := by
      intro j hj
      obtain ⟨other, hother, rfl⟩ := mem_map.1 hj
      grind
    have hnew' : ∀ other ∈ rest,
        other.request ∉ (incomingRequest handover s item).place .ongoingRequests := by
      intro other hother hmem
      obtain hold | hitem := (hstep _).1 hmem
      · exact hnew other (mem_cons_of_mem _ hother) hold
      · apply hfirst
        rw [← hattempt _ hitem]
        exact mem_map_of_mem hother
    rw [attempts_incoming_cons handover item rest (incomingRequest handover s item),
      mem_append, ← or_assoc, ← hstep r]
    exact ih hrest hnew'

end Incoming

section Handover

variable (info : ι → TransferInfo) (added : ι → Bool)

/-- The request was taken from curl and could not be given back. -/
def gaveUp (r : ι) : Bool := checkRequestCanRetrans (info r) curleOk && !added r

variable {s : Driver ι}

theorem ongoingRequests_undoneRequest {r : ι} (hr : r ∈ s.place .ongoingRequests) :
    (undoneRequest info added s r).place .ongoingRequests =
      if gaveUp info added r then (s.place .ongoingRequests).erase r
      else s.place .ongoingRequests := by
  rw [undoneRequest_eq info added hr]
  have hgave : gaveUp info added r = true ↔
      checkRequestCanRetrans (info r) curleOk = true ∧ added r = false := by
    simp [gaveUp]
  by_cases h : gaveUp info added r = true
  · rw [if_pos h, if_pos (hgave.1 h)]
    refine (take_self (s.place.put .doneCallback r) .ongoingRequests r).trans ?_
    exact congrArg (List.erase · r) (put_of_ne s.place (by decide) r)
  · rw [if_neg h, if_neg (h ∘ hgave.2)]

theorem mem_ongoingRequests_undoneRequests {items : List ι} (hnodup : items.Nodup)
    (hongoing : (s.place .ongoingRequests).Nodup)
    (hitems : ∀ r ∈ items, r ∈ s.place .ongoingRequests) (j : ι) :
    j ∈ (items.foldl (undoneRequest info added) s).place .ongoingRequests ↔
      j ∈ s.place .ongoingRequests ∧ (j ∈ items → gaveUp info added j = false) := by
  induction items generalizing s with
  | nil => simp
  | cons r rest ih =>
    obtain ⟨hfirst, hrest⟩ := nodup_cons.1 hnodup
    have hplace := ongoingRequests_undoneRequest info added (hitems r mem_cons_self)
    have hmem : ∀ i, i ∈ (undoneRequest info added s r).place .ongoingRequests ↔
        i ∈ s.place .ongoingRequests ∧ (i = r → gaveUp info added r = false) := by
      intro i
      rw [hplace]
      cases gaveUp info added r with
      | true =>
        grind
      | false => simp
    have hongoing' : ((undoneRequest info added s r).place .ongoingRequests).Nodup := by
      grind
    have hitems' : ∀ i ∈ rest, i ∈ (undoneRequest info added s r).place .ongoingRequests := by
      grind
    rw [foldl_cons, ih hrest hongoing' hitems', hmem]
    grind

theorem handoverQueue_retransQueue : (retransQueue added s).place .handoverQueue = [] := by
  simp only [retransQueue, clear_self]

/-- The requests that are started again at the end of a handover. -/
def restarted (s : Driver ι) : List ι :=
  ((s.place .ongoingRequests).filter fun r =>
      checkRequestCanRetrans (info r) curleOk && added r) ++
    (s.place .handoverQueue).filter added

theorem attempts_ended {handover : Bool} {status : Status}
    (hstatus : status = .ended ∨ status = .timeout) :
    attempts handover s (.handover status info added) = restarted info added s := by
  obtain rfl | rfl := hstatus
  · simp only [attempts, retransRequest_fst, restarted]
  · simp only [attempts, retransRequest_fst, restarted]

variable (hs : ∀ j, s.place.total j ≤ 1)
include hs

theorem mem_ongoingRequests_undoneRequestHandle (j : ι) :
    j ∈ (undoneRequestHandle info added s).place .ongoingRequests ↔
      j ∈ s.place .ongoingRequests ∧ gaveUp info added j = false := by
  have hnodup := nodup_of_total_le hs .ongoingRequests
  refine (mem_ongoingRequests_undoneRequests info added hnodup hnodup (fun _ h => h) j).trans ?_
  grind

theorem mem_ongoingRequests_retransQueue (j : ι) :
    j ∈ (retransQueue added s).place .ongoingRequests ↔
      j ∈ s.place .ongoingRequests ∨ j ∈ (s.place .handoverQueue).filter added := by
  rw [retransQueue_eq added hs]
  dsimp only
  rw [clear_of_ne _ (by decide), update_self, mem_append]

/-- What curl has after the end of a handover. -/
theorem mem_ongoingRequests_ended {t : Driver ι}
    (ht : t = retransQueue added (undoneRequestHandle info added s)) :
    (∀ r ∈ restarted info added s, r ∈ t.place .ongoingRequests) ∧
      ∀ r ∈ t.place .ongoingRequests,
        r ∈ restarted info added s ∨ r ∈ s.place .ongoingRequests := by
  have hundone := settles_undoneRequestHandle info added hs
  have hmem : ∀ r, r ∈ t.place .ongoingRequests ↔
      (r ∈ s.place .ongoingRequests ∧ gaveUp info added r = false) ∨
        r ∈ (s.place .handoverQueue).filter added := by
    intro r
    rw [ht, mem_ongoingRequests_retransQueue added fun j => (hundone.total j).trans_le (hs j),
      mem_ongoingRequests_undoneRequestHandle info added hs, hundone.handoverQueue]
  simp only [restarted, mem_append]
  constructor
  · rintro r (hr | hr)
    · obtain ⟨hongoing, hadded⟩ := mem_filter.1 hr
      refine (hmem r).2 (Or.inl ⟨hongoing, ?_⟩)
      simp [gaveUp, (Bool.and_eq_true_iff.1 hadded).2]
    · exact (hmem r).2 (Or.inr hr)
  grind

end Handover

variable {handover : Bool} {s t : Driver ι} {e : Event ι}

theorem place_erase_record {r : ι} {k k' q : Place} (hk : q ≠ k) (hk' : q ≠ k') :
    ((s.erase k r).record k' r).place q = s.place q :=
  (put_of_ne _ hk' r).trans (take_of_ne _ hk r)

/-- The requests that are with curl after an event are those it took and those it still has. -/
theorem mem_ongoingRequests_step (hs : Bounded s) (h : step handover s e = some t) :
    (∀ r ∈ attempts handover s e, r ∈ t.place .ongoingRequests) ∧
      ∀ r ∈ t.place .ongoingRequests, r ∈ attempts handover s e ∨
        r ∈ s.place .ongoingRequests ∧ ∀ m, e ≠ .done r m := by
  cases e with
  | incoming batch =>
    obtain ⟨⟨hnodup, hnew⟩, ⟨⟩⟩ := Option.ite_none_right_eq_some.mp h
    have hmem := fun r => mem_ongoingRequests_incoming handover (r := r) hnodup
      fun item hitem => notMem_of_total_eq_zero (hs.total_eq_zero (hnew item hitem)) _
    grind
  | done r m =>
    obtain ⟨hr, ⟨⟩⟩ := Option.ite_none_right_eq_some.mp h
    refine ⟨fun j hj => mem_ongoingRequests_done.2 (Or.inr hj), fun j hj => ?_⟩
    obtain hold | hnew := mem_ongoingRequests_done.1 hj
    · have hne := (nodup_of_total_le hs.total_le .ongoingRequests).mem_erase_iff.1 hold
      grind
    · exact Or.inl hnew
  | handover status info added =>
    obtain ⟨-, ⟨⟩⟩ := Option.ite_none_right_eq_some.mp h
    cases status with
    | ended =>
      rw [attempts_ended info added (Or.inl rfl)]
      have hended := mem_ongoingRequests_ended info added
        (s := { s with endTime := s.endTime + 1 }) hs.total_le rfl
      exact ⟨hended.1, fun r hr => (hended.2 r hr).imp_right fun hold => ⟨hold, by simp⟩⟩
    | timeout =>
      rw [attempts_ended info added (Or.inr rfl)]
      have hended := mem_ongoingRequests_ended info added hs.total_le rfl
      exact ⟨hended.1, fun r hr => (hended.2 r hr).imp_right fun hold => ⟨hold, by simp⟩⟩
    | init | start | cont | fatal =>
      exact ⟨by rintro _ ⟨⟩, fun r hr => Or.inr ⟨hr, by simp⟩⟩
  | handoverTimeout =>
    obtain ⟨-, ⟨⟩⟩ := Option.ite_none_right_eq_some.mp h
    exact ⟨by rintro _ ⟨⟩, fun r hr => Or.inr ⟨hr, by simp⟩⟩
  | redirect r =>
    obtain ⟨hr, ⟨⟩⟩ := Option.ite_none_right_eq_some.mp h
    have hsame : ((s.erase .redirectInterceptor r).record .reissued r).place .ongoingRequests =
        s.place .ongoingRequests := place_erase_record (by decide) (by decide)
    exact ⟨by rintro _ ⟨⟩, fun j hj => Or.inr ⟨hsame ▸ hj, by simp⟩⟩
  | complete r =>
    obtain ⟨hr, ⟨⟩⟩ := Option.ite_none_right_eq_some.mp h
    have hsame :
        ((s.erase .redirectInterceptor r).record .doneCallback r).place .ongoingRequests =
          s.place .ongoingRequests := place_erase_record (by decide) (by decide)
    exact ⟨by rintro _ ⟨⟩, fun j hj => Or.inr ⟨hsame ▸ hj, by simp⟩⟩

/-- In every run no request is in two places, every event balances, and curl has what it took. -/
theorem requests_balanced (handover : Bool) (run : List (Event ι)) :
    Throughout (step handover) (fun s => Bounded s ∧ ∀ e, ∀ t ∈ step handover s e,
      Balances handover s e t ∧ (∀ r ∈ attempts handover s e, r ∈ t.place .ongoingRequests) ∧
        ∀ r ∈ t.place .ongoingRequests, r ∈ attempts handover s e ∨
          r ∈ s.place .ongoingRequests ∧ ∀ m, e ≠ .done r m) run {} :=
  throughout_of_invariant (fun _ _ _ hs h => bounded_step h hs)
    (fun _ hs => ⟨hs, fun _ _ h => ⟨balances_step h hs, mem_ongoingRequests_step hs h⟩⟩) run
    fun _ => Nat.zero_le _

theorem mem_handoverQueue_step (h : step handover s e = some t) {r : ι}
    (hr : r ∈ t.place .handoverQueue) :
    r ∈ s.place .handoverQueue ∨ r ∈ flushes e ∨
      ∃ m, e = .done r m ∧ (handover && retransmitsLater s r m) = true := by
  cases e with
  | incoming batch =>
    obtain ⟨-, ⟨⟩⟩ := Option.ite_none_right_eq_some.mp h
    exact (mem_handoverQueue_incoming handover hr).imp_right Or.inl
  | done j m =>
    obtain ⟨-, ⟨⟩⟩ := Option.ite_none_right_eq_some.mp h
    obtain hold | ⟨rfl, hlater⟩ := mem_handoverQueue_done hr
    · exact Or.inl hold
    · exact Or.inr (Or.inr ⟨m, rfl, hlater⟩)
  | handover status info added =>
    obtain ⟨-, ⟨⟩⟩ := Option.ite_none_right_eq_some.mp h
    cases status with
    | ended | timeout =>
      rw [handoverRequestCallback, handoverQueue_retransQueue] at hr
      exact absurd hr not_mem_nil
    | init | start | cont | fatal => exact Or.inl hr
  | handoverTimeout =>
    obtain ⟨-, ⟨⟩⟩ := Option.ite_none_right_eq_some.mp h
    exact Or.inl hr
  | redirect j =>
    obtain ⟨-, ⟨⟩⟩ := Option.ite_none_right_eq_some.mp h
    grind [place_erase_record]
  | complete j =>
    obtain ⟨-, ⟨⟩⟩ := Option.ite_none_right_eq_some.mp h
    grind [handleCompletion, place_erase_record]

end Attempts

section Watching

variable {ι : Type} [DecidableEq ι]

/-- The driver and what curl has sent. -/
structure Watch (ι : Type) where
  driver : Driver ι := {}
  /-- A hop of the current attempt has begun to send. -/
  begun : ι → Bool := fun _ => false
  /-- A hop of some attempt has begun to send. -/
  sent : ι → Bool := fun _ => false
  /-- The requests that curl took although something had been sent for them. -/
  repeats : List ι := []

inductive WatchEvent (ι : Type) where
  | driver (e : Event ι)
  | sends (r : ι)

/-- What curl and the context say about a transfer with this method. -/
def TransferInfo.tells (info : TransferInfo) (method : Bytes) (begun : Bool) : Prop :=
  info.method = method ∧ ∀ times ∈ info.times, times.2 = 0 ↔ begun = false

instance (info : TransferInfo) (method : Bytes) (begun : Bool) :
    Decidable (info.tells method begun) :=
  inferInstanceAs (Decidable (_ ∧ _))

variable (method : ι → Bytes) (handover : Bool)

variable (w : Watch ι)

/-- The event speaks the truth about the transfers. -/
def Watch.Tells : Event ι → Prop
  | .done r m => m.info.tells (method r) (w.begun r)
  | .handover _ info _ =>
    ∀ r ∈ w.driver.place .ongoingRequests, (info r).tells (method r) (w.begun r)
  | _ => True

instance (w : Watch ι) (e : Event ι) : Decidable (w.Tells method e) := by
  cases e <;> dsimp only [Watch.Tells] <;> infer_instance

/-- A request that curl takes begins a new attempt. -/
def Watch.takes (rs : List ι) (driver : Driver ι) : Watch ι where
  driver := driver
  begun r := if r ∈ rs then false else w.begun r
  sent := w.sent
  repeats := w.repeats ++ rs.filter w.sent

def watch : WatchEvent ι → Option (Watch ι)
  | .driver e =>
    if w.Tells method e then
      (step handover w.driver e).map (w.takes (attempts handover w.driver e))
    else none
  | .sends r =>
    if r ∈ w.driver.place .ongoingRequests then
      some { w with
        begun := update w.begun r true
        sent := update w.sent r true }
    else none

/-- Only safe requests are repeated. -/
def RepeatsSafe : Prop := ∀ r ∈ w.repeats, isSafe (method r) = true

instance (w : Watch ι) : Decidable (RepeatsSafe method w) :=
  inferInstanceAs (Decidable (∀ r ∈ w.repeats, _))

/-- The connection of a later hop fails during a handover, for a request that is not safe. -/
def LateConnectError : WatchEvent ι → Prop
  | .driver (.done r m) =>
    handover = true ∧ isSafe (method r) = false ∧ w.begun r = true ∧
      isConnectError m.result = true ∧
      ∃ endTime ∈ w.driver.requestEndtime r,
        m.status = .start ∨ endTime + 1 = w.driver.endTime ∧ m.added = true
  | _ => False

instance (w : Watch ι) (a : WatchEvent ι) : Decidable (LateConnectError method handover w a) := by
  unfold LateConnectError
  split <;> infer_instance

section Tracing

/-- What holds of the driver and the sending at every return to the event loop. -/
structure Traced (w : Watch ι) : Prop where
  bounded : Bounded w.driver
  known : ∀ r, w.sent r = true → r ∈ w.driver.flushed
  current : ∀ r, isSafe (method r) = false → w.sent r = true → w.begun r = true
  notQueued : ∀ r, isSafe (method r) = false → w.sent r = true →
    r ∉ w.driver.place .handoverQueue
  repeats : RepeatsSafe method w

variable {method handover} {w : Watch ι} {r : ι}

omit [DecidableEq ι] in
/-- Without an error of the connection the check is about the sending. -/
theorem begun_of_check {info : TransferInfo} {result : Nat}
    (htells : info.tells (method r) (w.begun r)) (hrisky : isSafe (method r) = false)
    (hcheck : checkRequestCanRetrans info result = true)
    (herror : isConnectError result = true → w.begun r = false) : w.begun r = false := by
  obtain ⟨hmethod, htimes⟩ := htells
  rw [← hmethod] at hrisky
  obtain hconnect | ⟨recvtime, heq⟩ := checkRequestCanRetrans_of_not_safe hrisky hcheck
  · exact herror hconnect
  · exact (htimes _ heq).1 rfl

variable {m : DoneMessage} {s : Driver ι}

theorem check_of_retransmitsNow (h : retransmitsNow s r m = true) :
    checkRequestCanRetrans m.info m.result = true ∧ ∃ endTime ∈ s.requestEndtime r,
      endTime + 1 = s.endTime ∧ m.added = true := by
  unfold retransmitsNow at h
  cases hend : s.requestEndtime r with
  | none => simp [hend] at h
  | some endTime =>
    simp only [hend, retransRequest_fst, Bool.and_eq_true, beq_iff_eq] at h
    exact ⟨h.1.1.1.2, endTime, rfl, h.1.2, h.2⟩

theorem check_of_retransmitsLater (h : retransmitsLater s r m = true) :
    checkRequestCanRetrans m.info m.result = true ∧ ∃ endTime ∈ s.requestEndtime r,
      m.status = .start := by
  simp only [retransmitsLater, tryFlowControl_fst, Bool.and_eq_true, decide_eq_true_eq,
    Option.isSome_iff_exists] at h
  obtain ⟨⟨⟨⟨endTime, hend⟩, -⟩, hcheck⟩, hstart⟩ := h
  exact ⟨hcheck, endTime, hend, hstart⟩

namespace Traced

variable {e : Event ι} {t : Driver ι} (hw : Traced method w)
include hw

theorem unsent (hrisky : isSafe (method r) = false) (hbegun : w.begun r = false) :
    w.sent r = false := by
  grind [@hw.current]

/-- Nothing was sent for a request that is started again or kept back after an error. -/
theorem unsent_done
    (htells : m.info.tells (method r) (w.begun r)) (hrisky : isSafe (method r) = false)
    (hcond : ¬ LateConnectError method handover w (.driver (.done r m)))
    (h : (handover && retransmitsNow w.driver r m) = true ∨
      (handover && retransmitsLater w.driver r m) = true) : w.sent r = false := by
  obtain ⟨hhandover, hcheck, endTime, hend, hwhen⟩ : handover = true ∧
      checkRequestCanRetrans m.info m.result = true ∧
      ∃ endTime ∈ w.driver.requestEndtime r,
        m.status = .start ∨ endTime + 1 = w.driver.endTime ∧ m.added = true := by
    obtain hnow | hlater := h
    · obtain ⟨hhandover, hnow⟩ := Bool.and_eq_true_iff.1 hnow
      obtain ⟨hcheck, endTime, hend, hagain⟩ := check_of_retransmitsNow hnow
      exact ⟨hhandover, hcheck, endTime, hend, Or.inr hagain⟩
    · obtain ⟨hhandover, hlater⟩ := Bool.and_eq_true_iff.1 hlater
      obtain ⟨hcheck, endTime, hend, hstart⟩ := check_of_retransmitsLater hlater
      exact ⟨hhandover, hcheck, endTime, hend, Or.inl hstart⟩
  apply hw.unsent hrisky
  apply begun_of_check htells hrisky hcheck
  intro hconnect
  cases hbegun : w.begun r with
  | false => rfl
  | true => exact absurd ⟨hhandover, hrisky, hbegun, hconnect, endTime, hend, hwhen⟩ hcond

theorem unsent_restarted {info : ι → TransferInfo} {added : ι → Bool}
    (hrisky : isSafe (method r) = false)
    (htells : ∀ r ∈ w.driver.place .ongoingRequests, (info r).tells (method r) (w.begun r))
    (hr : r ∈ restarted info added w.driver) : w.sent r = false := by
  obtain hongoing | hqueue := mem_append.1 hr
  · obtain ⟨hmem, hadded⟩ := mem_filter.1 hongoing
    apply hw.unsent hrisky
    apply begun_of_check (htells r hmem) hrisky (Bool.and_eq_true_iff.1 hadded).1
    intro hconnect
    exact absurd hconnect (by decide)
  grind [@hw.notQueued]

theorem unsent_flushes (hstep : step handover w.driver e = some t)
    (hr : r ∈ flushes e) : w.sent r = false := by
  grind [flushes_fresh, @hw.known]

theorem sends (hr : r ∈ w.driver.place .ongoingRequests) : Traced method { w with
      begun := update w.begun r true
      sent := update w.sent r true } := by
  have hflushed : r ∈ w.driver.flushed := by
    by_contra hnot
    exact notMem_of_total_eq_zero (hw.bounded.total_eq_zero hnot) _ hr
  have hother : ∀ j, update w.sent r true j = true → j = r ∨ w.sent j = true := by
    intro j hj
    by_cases heq : j = r
    · exact Or.inl heq
    · rw [update_of_ne heq] at hj
      exact Or.inr hj
  refine ⟨hw.bounded, ?_, ?_, ?_, hw.repeats⟩
  · intro j hj
    obtain rfl | hsent := hother j hj
    · exact hflushed
    · exact hw.known j hsent
  · intro j hrisky hj
    obtain rfl | hsent := hother j hj
    · exact update_self j true w.begun
    · by_cases heq : j = r
      · subst heq
        exact update_self j true w.begun
      · exact (update_of_ne heq _ _).trans (hw.current j hrisky hsent)
  · intro j hrisky hj
    obtain rfl | hsent := hother j hj
    · exact notMem_of_mem (hw.bounded.total_le j) hr (by decide)
    · exact hw.notQueued j hrisky hsent

section

variable (htells : w.Tells method e) (hcond : ¬ LateConnectError method handover w (.driver e))
  (hstep : step handover w.driver e = some t)
include htells hcond hstep

theorem unsent_attempts (hrisky : isSafe (method r) = false)
    (hr : r ∈ attempts handover w.driver e) : w.sent r = false := by
  cases e with
  | incoming batch =>
    obtain ⟨item, hitem, rfl⟩ := mem_map.1 hr
    exact hw.unsent_flushes hstep (mem_map_of_mem (mem_of_mem_filter hitem))
  | done j m =>
    obtain ⟨hnow, hr⟩ := mem_ite_nil_right.1 hr
    obtain rfl := mem_singleton.1 hr
    exact hw.unsent_done htells hrisky hcond (Or.inl hnow)
  | handover status info added =>
    cases status with
    | ended =>
      rw [attempts_ended info added (Or.inl rfl)] at hr
      exact hw.unsent_restarted hrisky htells hr
    | timeout =>
      rw [attempts_ended info added (Or.inr rfl)] at hr
      exact hw.unsent_restarted hrisky htells hr
    | init | start | cont | fatal => exact absurd hr not_mem_nil
  | handoverTimeout | redirect | complete => exact absurd hr not_mem_nil

/-- A request that is kept back has not been sent. -/
theorem unsent_queued (hrisky : isSafe (method r) = false)
    (hr : r ∈ t.place .handoverQueue) : w.sent r = false := by
  obtain hold | hflushes | ⟨m, rfl, hlater⟩ := mem_handoverQueue_step hstep hr
  · cases hsent : w.sent r with
    | false => rfl
    | true => exact absurd hold (hw.notQueued r hrisky hsent)
  · exact hw.unsent_flushes hstep hflushes
  · exact hw.unsent_done htells hrisky hcond (Or.inr hlater)

theorem takes : Traced method (w.takes (attempts handover w.driver e) t) := by
  refine ⟨bounded_step hstep hw.bounded, ?_, ?_, ?_, ?_⟩
  · intro r hsent
    rw [show (w.takes _ t).driver.flushed = _ from (balances_step hstep hw.bounded).flushed]
    exact mem_append_left _ (hw.known r hsent)
  · intro r hrisky hsent
    have hnot : r ∉ attempts handover w.driver e := by
      intro hr
      have hunsent := hw.unsent_attempts htells hcond hstep hrisky hr
      exact absurd (hsent.symm.trans hunsent) (by decide)
    exact (if_neg hnot).trans (hw.current r hrisky hsent)
  · intro r hrisky hsent hqueue
    have hunsent := hw.unsent_queued htells hcond hstep hrisky hqueue
    exact absurd (hsent.symm.trans hunsent) (by decide)
  · intro r hr
    obtain hold | hnew := mem_append.1 hr
    · exact hw.repeats r hold
    · obtain ⟨hattempt, hsent⟩ := mem_filter.1 hnew
      cases hsafe : isSafe (method r) with
      | true => rfl
      | false =>
        have hunsent := hw.unsent_attempts htells hcond hstep hsafe hattempt
        exact absurd (hsent.symm.trans hunsent) (by decide)

end

theorem watched {a : WatchEvent ι} {w' : Watch ι}
    (hcond : ¬ LateConnectError method handover w a) (h : watch method handover w a = some w') :
    Traced method w' := by
  cases a with
  | driver e =>
    obtain ⟨htells, hstep⟩ := Option.ite_none_right_eq_some.mp h
    grind [Option.map_eq_some_iff, @hw.takes]
  | sends r =>
    obtain ⟨hr, ⟨⟩⟩ := Option.ite_none_right_eq_some.mp h
    exact hw.sends hr

end Traced

end Tracing

/-- In a run in which no connection of a later hop fails during a handover, a request that is
not safe is not given to curl again after something was sent for it. -/
theorem sent_request_not_repeated (run : List (WatchEvent ι))
    (h : Meets (watch method handover) (fun w a => ¬ LateConnectError method handover w a) run {}) :
    Throughout (watch method handover) (RepeatsSafe method) run {} :=
  throughout_of_meets (fun _ _ _ hw hcond hwatch => Traced.watched hw hcond hwatch)
    (fun _ hw => hw.repeats) run
    ⟨fun _ => Nat.zero_le _, nofun, fun _ _ => nofun, fun _ _ => nofun, nofun⟩ h

end Watching

/-- A POST is under way when a handover starts, and its connection fails after the end. -/
def failedPost (sends : List (WatchEvent Unit)) (sendtime : Nat) : List (WatchEvent Unit) :=
  let info : TransferInfo := { times := some (0, sendtime), method := ascii "POST" }
  [.driver (.incoming [{ request := () }]),
    .driver (.handover .start (fun _ => { info with times := some (0, 0) }) fun _ => true)] ++
  sends ++
  [.driver (.handover .ended (fun _ => info) fun _ => true),
    .driver (.done () { result := curleCouldntConnect, info := info })]

/-- Nothing was sent, and the request is started again. -/
theorem failedPost_not_repeated :
    Throughout (watch (fun _ => ascii "POST") true) (RepeatsSafe fun _ => ascii "POST")
      (failedPost [] 0) {} := by
  apply sent_request_not_repeated
  decide

/-- The first hop was sent, and the request is sent again when the second does not connect. -/
theorem redirected_post_repeated :
    ¬ Throughout (watch (fun _ => ascii "POST") true) (RepeatsSafe fun _ => ascii "POST")
      (failedPost [.sends ()] 5) {} := by
  decide


end Netstack.HttpOverCurl
