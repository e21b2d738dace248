import Netstack.Foundation.Execution
import Netstack.HttpOverCurl.Driver

/-!
# No request is lost by the driver

Every request the driver has taken from its queue is in one place of the ledger. Two of the
three places where `curl_multi_add_handle` may fail forget the request: the one for incoming
requests deletes it without a call of its `doneCallback`, and the one for the requests that
were kept back during a handover only clears the queue.
-/

namespace Netstack.HttpOverCurl

open Foundation Foundation.Execution Ledger List Option Incoming

variable {ι : Type} [DecidableEq ι]

/-- Every request is in exactly one place. -/
def Accounted (s : Driver ι) : Prop := ∀ r ∈ s.flushed, s.place.total r = 1

instance (s : Driver ι) : Decidable (Accounted s) :=
  inferInstanceAs (Decidable (∀ r ∈ s.flushed, _))

variable (handover : Bool)

/-- The request is kept back, or curl takes its handle. -/
def Incoming.taken (item : Incoming ι) : Bool :=
  (handover && item.status == .start) || item.added

/-- Curl takes the handle of every incoming request that is not kept back, and at the end of a
handover of every request that was. -/
def AddsTaken (s : Driver ι) : Event ι → Prop
  | .incoming batch => ∀ item ∈ batch, item.taken handover = true
  | .handover .ended _ added | .handover .timeout _ added =>
    ∀ r ∈ s.place .handoverQueue, added r = true
  | _ => True

/-- The requests that come in with an event. -/
def flushes : Event ι → List ι
  | .incoming batch => batch.map request
  | _ => []

/-- The requests that an event makes the driver forget. -/
def lost (s : Driver ι) : Event ι → List ι
  | .incoming batch => (batch.filter fun item => !item.taken handover).map request
  | .handover .ended _ added | .handover .timeout _ added =>
    (s.place .handoverQueue).filter fun r => !added r
  | _ => []

/-- No request is in two places, and none is there that did not come in. -/
def Bounded (s : Driver ι) : Prop := ∀ r, s.place.total r ≤ if r ∈ s.flushed then 1 else 0

theorem Bounded.total_le {s : Driver ι} (hs : Bounded s) (r : ι) : s.place.total r ≤ 1 := by
  refine (hs r).trans ?_
  split
  · exact le_refl 1
  · exact Nat.zero_le 1

theorem Bounded.total_eq_zero {s : Driver ι} (hs : Bounded s) {r : ι} (hr : r ∉ s.flushed) :
    s.place.total r = 0 := by
  have h := hs r
  rw [if_neg hr] at h
  exact Nat.le_zero.1 h

omit [DecidableEq ι] in
theorem lost_eq_nil_iff {handover : Bool} {s : Driver ι} {e : Event ι} :
    lost handover s e = [] ↔ AddsTaken handover s e := by
  cases e with
  | incoming batch => simp [lost, AddsTaken]
  | done r m => simp [lost, AddsTaken]
  | handover status info added => cases status <;> simp [lost, AddsTaken]
  | handoverTimeout => simp [lost, AddsTaken]
  | redirect r => simp [lost, AddsTaken]
  | complete r => simp [lost, AddsTaken]

section Placing

/-- The request has got a place, if the answer says so, and nothing else has changed. -/
structure Places (r : ι) (s : Driver ι) (p : Bool × Driver ι) : Prop where
  flushed : p.2.flushed = s.flushed
  total : ∀ j, p.2.place.total j = s.place.total j + if p.1 then [r].count j else 0

variable {s : Driver ι} {r : ι}

theorem places_nowhere : Places r s (false, s) := ⟨rfl, fun _ => rfl⟩

theorem tryFlowControl_eq (status : Status) :
    tryFlowControl status r s =
      if status = .start then (true, s.insert .handoverQueue r) else (false, s) := by
  cases status <;> rfl

/-- What fails to find a place may be tried again. -/
theorem Places.after {t : Driver ι} {p : Bool × Driver ι} (ht : Places r s (false, t))
    (hp : Places r t p) : Places r s p := by
  refine ⟨hp.flushed.trans ht.flushed, fun j => ?_⟩
  grind [@hp.total, @ht.total]

theorem Places.total_eq_zero {t : Driver ι} (ht : Places r s (false, t))
    (hr : s.place.total r = 0) : t.place.total r = 0 :=
  (ht.total r).trans hr

variable (hr : s.place.total r = 0)
include hr

theorem places_insert (k : Place) : Places r s (true, s.insert k r) := by
  refine ⟨rfl, fun j => ?_⟩
  change (s.place.insert k r).total j = _
  rw [insert_of_notMem (notMem_of_total_eq_zero hr k), total_put]
  rfl

theorem places_retransRequest (added : Bool) : Places r s (retransRequest added r s) := by
  unfold retransRequest
  split
  · exact places_insert hr _
  · exact places_nowhere

theorem places_processRequestNetError (m : DoneMessage) :
    Places r s (processRequestNetError r m s) := by
  unfold processRequestNetError
  cases s.requestEndtime r with
  | none => exact places_nowhere
  | some endTime =>
    have hforgets : Places r s
        (false, { s with requestEndtime := Function.update s.requestEndtime r none }) :=
      ⟨rfl, fun _ => rfl⟩
    revert hforgets
    generalize { s with requestEndtime := Function.update s.requestEndtime r none } = t
    intro ht
    have hr' := ht.total_eq_zero hr
    dsimp only
    split
    · exact ht
    · split
      · exact ht
      · rw [tryFlowControl_eq]
        by_cases hstart : m.status = .start
        · rw [if_pos hstart]
          exact ht.after (places_insert hr' _)
        · rw [if_neg hstart]
          grind [places_retransRequest, @ht.after]

end Placing

section Incoming

variable (handover : Bool)

variable (s : Driver ι)

/-- The driver after it has noted the request. -/
def noted (r : ι) : Driver ι := { s with flushed := s.flushed ++ [r] }

theorem incomingRequest_eq (item : Incoming ι) :
    incomingRequest handover s item =
      if handover = true ∧ item.status = .start then
        (noted s item.request).insert .handoverQueue item.request
      else if item.added then (noted s item.request).insert .ongoingRequests item.request
      else ((noted s item.request).insert .ongoingRequests item.request).erase .ongoingRequests
        item.request := by
  simp only [incomingRequest, tryFlowControl_eq]
  cases handover with
  | false =>
    simp only [Bool.false_eq_true, false_and, if_false]
    rfl
  | true =>
    by_cases hstart : item.status = .start
    · simp only [if_true, if_pos hstart, true_and]
      rfl
    · simp only [if_true, if_neg hstart, true_and]
      rfl

theorem incomingRequest_flushed (item : Incoming ι) :
    (incomingRequest handover s item).flushed = s.flushed ++ [item.request] := by
  rw [incomingRequest_eq]
  split
  · rfl
  · split <;> rfl

variable {s}

/-- Without flow control the request is given to curl. -/
theorem total_giveToCurl {r : ι} (hnew : s.place.total r = 0) (added : Bool) (j : ι) :
    (if added then s.insert .ongoingRequests r
      else (s.insert .ongoingRequests r).erase .ongoingRequests r).place.total j =
      s.place.total j + if added then [r].count j else 0 := by
  have habsent := notMem_of_total_eq_zero hnew .ongoingRequests
  cases added with
  | true => exact (places_insert hnew .ongoingRequests).total j
  | false =>
    change ((s.place.insert .ongoingRequests r).take .ongoingRequests r).total j = _
    rw [insert_of_notMem habsent, take_put _ habsent]
    rfl

theorem total_incomingRequest {item : Incoming ι} (hnew : s.place.total item.request = 0) (j : ι) :
    (incomingRequest handover s item).place.total j =
      s.place.total j + if item.taken handover then [item.request].count j else 0 := by
  rw [incomingRequest_eq]
  by_cases hback : handover = true ∧ item.status = .start
  · have htaken : item.taken handover = true := by simp [taken, hback.1, hback.2]
    rw [if_pos hback, htaken]
    exact (places_insert (s := noted s item.request) hnew .handoverQueue).total j
  · have htaken : item.taken handover = item.added := by
      have hno : (handover && item.status == .start) = false := by
        simpa [Bool.and_eq_false_iff] using hback
      rw [taken, hno, Bool.false_or]
    rw [if_neg hback, htaken]
    exact total_giveToCurl (s := noted s item.request) hnew item.added j

/-- The loop over a batch of new requests. -/
theorem total_incomingRequestCallback {batch : List (Incoming ι)}
    (hnodup : (batch.map request).Nodup)
    (hnew : ∀ item ∈ batch, s.place.total item.request = 0) (j : ι) :
    (incomingRequestCallback handover batch s).place.total j =
      s.place.total j +
        ((batch.filter fun item => item.taken handover).map request).count j := by
  induction batch generalizing s with
  | nil => rfl
  | cons item rest ih =>
    obtain ⟨hfirst, hrest⟩ := nodup_cons.1 hnodup
    have hstep := total_incomingRequest handover (hnew item mem_cons_self)
    have hkept : ∀ other ∈ rest,
        (incomingRequest handover s item).place.total other.request = 0 := by
      intro other hother
      have hne : item.request ≠ other.request := by
        grind
      rw [hstep, hnew other (mem_cons_of_mem _ hother)]
      simp [hne]
    grind [incomingRequestCallback]

theorem incomingRequestCallback_flushed (batch : List (Incoming ι)) (s : Driver ι) :
    (incomingRequestCallback handover batch s).flushed =
      s.flushed ++ batch.map request := by
  induction batch generalizing s with
  | nil => exact (append_nil _).symm
  | cons item rest ih =>
    have htail := ih (incomingRequest handover s item)
    unfold incomingRequestCallback at htail ⊢
    rw [foldl_cons, htail, incomingRequest_flushed, map_cons, append_assoc]
    rfl

end Incoming

section Done

variable {s : Driver ι} {r : ι}

theorem total_erase {k : Place} (hr : r ∈ s.place k) (j : ι) :
    (s.erase k r).place.total j + [r].count j = s.place.total j :=
  total_take hr j

variable (handover : Bool)

/-- What the handover makes of a transfer that is done. -/
def netErrorFirst (r : ι) (m : DoneMessage) (s : Driver ι) : Bool × Driver ι :=
  if handover then processRequestNetError r m s else (false, s)

/-- The end of a transfer that is not started again. -/
def finishTransfer (r : ι) (m : DoneMessage) (s : Driver ι) : Driver ι :=
  if httpStatusRedirectStart ≤ m.responseCode ∧ m.responseCode < httpStatusClientErrorStart ∧
      m.hasLocation = true ∧ m.isRedirectionInterceptor = true then
    if m.isReachRedirectLimit = false then s.record .redirectInterceptor r
    else handleCompletion r s
  else handleCompletion r s

theorem handleCurlDoneMessage_eq (r : ι) (m : DoneMessage) (s : Driver ι) :
    handleCurlDoneMessage handover r m s =
      if (netErrorFirst handover r m (s.erase .ongoingRequests r)).1 then
        (netErrorFirst handover r m (s.erase .ongoingRequests r)).2
      else finishTransfer r m (netErrorFirst handover r m (s.erase .ongoingRequests r)).2 := by
  grind [handleCurlDoneMessage, netErrorFirst, finishTransfer]

omit [DecidableEq ι] in
theorem finishTransfer_eq (r : ι) (m : DoneMessage) (s : Driver ι) :
    ∃ k, (k = .redirectInterceptor ∨ k = .doneCallback) ∧
      finishTransfer r m s = s.record k r := by
  unfold finishTransfer
  split
  · split
    · exact ⟨_, Or.inl rfl, rfl⟩
    · exact ⟨_, Or.inr rfl, rfl⟩
  · exact ⟨_, Or.inr rfl, rfl⟩

theorem places_netErrorFirst (hr : s.place.total r = 0) (handover : Bool)
    (m : DoneMessage) : Places r s (netErrorFirst handover r m s) := by
  unfold netErrorFirst
  split
  · exact places_processRequestNetError hr m
  · exact places_nowhere

theorem handleCurlDoneMessage_spec (m : DoneMessage)
    (hs : s.place.total r ≤ 1) (hr : r ∈ s.place .ongoingRequests) :
    (handleCurlDoneMessage handover r m s).flushed = s.flushed ∧
      ∀ j, (handleCurlDoneMessage handover r m s).place.total j = s.place.total j := by
  have herase := total_erase hr
  have hzero : (s.erase .ongoingRequests r).place.total r = 0 := by
    grind
  have hplaces := places_netErrorFirst hzero handover m
  rw [handleCurlDoneMessage_eq]
  revert hplaces
  generalize netErrorFirst handover r m (s.erase .ongoingRequests r) = p
  intro hplaces
  obtain ⟨placed, t⟩ := p
  cases placed with
  | true =>
    refine ⟨hplaces.flushed, fun j => ?_⟩
    exact (hplaces.total j).trans (herase j)
  | false =>
    obtain ⟨k, -, hfinish⟩ := finishTransfer_eq r m t
    have hkept : ∀ j, t.place.total j = (s.erase .ongoingRequests r).place.total j :=
      hplaces.total
    rw [if_neg Bool.false_ne_true, hfinish]
    refine ⟨hplaces.flushed, fun j => ?_⟩
    rw [← herase j, ← hkept j]
    exact total_put t.place k r j

end Done

section Handover

variable (info : ι → TransferInfo) (added : ι → Bool)

variable {s : Driver ι} {r : ι}

/-- Every request stays in the books, and the queue as it is. -/
structure Settles (s t : Driver ι) : Prop where
  flushed : t.flushed = s.flushed
  total : ∀ j, t.place.total j = s.place.total j
  handoverQueue : t.place .handoverQueue = s.place .handoverQueue

theorem Settles.trans {t u : Driver ι} (hst : Settles s t) (htu : Settles t u) : Settles s u :=
  ⟨htu.flushed.trans hst.flushed, fun j => (htu.total j).trans (hst.total j),
    htu.handoverQueue.trans hst.handoverQueue⟩

section

variable (hr : r ∈ s.place .ongoingRequests)
include hr

theorem retransRequest_of_mem (b : Bool) : retransRequest b r s = (b, s) := by
  cases b with
  | false => rfl
  | true =>
    have hsame : s.insert .ongoingRequests r = s := by
      unfold Driver.insert
      rw [Ledger.insert_of_mem hr]
    rw [retransRequest, hsame]
    rfl

theorem undoneRequest_eq : undoneRequest info added s r =
      if checkRequestCanRetrans (info r) curleOk = true ∧ added r = false then
        (s.record .doneCallback r).erase .ongoingRequests r
      else s := by
  unfold undoneRequest
  rw [retransRequest_of_mem hr]
  grind

theorem settles_undoneRequest :
    Settles s (undoneRequest info added s r) ∧
      ∀ j ∈ s.place .ongoingRequests, j ≠ r →
        j ∈ (undoneRequest info added s r).place .ongoingRequests := by
  rw [undoneRequest_eq info added hr]
  have hput : s.place.put .doneCallback r .ongoingRequests = s.place .ongoingRequests :=
    put_of_ne s.place (by decide) r
  split
  · refine ⟨⟨rfl, fun j => ?_, rfl⟩, fun j hj hne => ?_⟩
    · have hmem : r ∈ s.place.put .doneCallback r .ongoingRequests := by
        rw [hput]
        exact hr
      have htake := total_take hmem j
      rw [total_put] at htake
      exact Nat.add_right_cancel htake
    · change j ∈ (s.place.put .doneCallback r).take .ongoingRequests r .ongoingRequests
      rw [take_self, hput]
      exact (mem_erase_of_ne hne).2 hj
  · exact ⟨⟨rfl, fun _ => rfl, rfl⟩, fun j hj _ => hj⟩

end

theorem settles_undoneRequests {items : List ι} (hnodup : items.Nodup)
    (hitems : ∀ r ∈ items, r ∈ s.place .ongoingRequests) :
    Settles s (items.foldl (undoneRequest info added) s) := by
  induction items generalizing s with
  | nil => exact ⟨rfl, fun _ => rfl, rfl⟩
  | cons r rest ih =>
    obtain ⟨hfirst, hrest⟩ := nodup_cons.1 hnodup
    obtain ⟨hstep, hkept⟩ :=
      settles_undoneRequest info added (hitems r mem_cons_self)
    grind [@hstep.trans]

theorem settles_undoneRequestHandle (hs : ∀ j, s.place.total j ≤ 1) :
    Settles s (undoneRequestHandle info added s) :=
  settles_undoneRequests info added (nodup_of_total_le hs _) fun _ hr => hr

theorem foldl_retransRequest (items : List ι) (s : Driver ι) :
    items.foldl (fun s r => (retransRequest (added r) r s).2) s =
      { s with
        place := (items.filter added).foldl (fun l r => l.insert .ongoingRequests r) s.place } := by
  induction items generalizing s with
  | nil => rfl
  | cons r rest ih =>
    rw [foldl_cons, ih, filter_cons]
    cases h : added r with
    | false => rfl
    | true => rfl

section

variable (hs : ∀ j, s.place.total j ≤ 1)
include hs

theorem retransQueue_eq : retransQueue added s =
      { s with
        place := clear (Function.update s.place .ongoingRequests
          (s.place .ongoingRequests ++ (s.place .handoverQueue).filter added))
            .handoverQueue } := by
  have hnodup := nodup_of_total_le hs .handoverQueue
  have hplace := foldl_insert (l := s.place) (k := .ongoingRequests) (hnodup.filter added)
    fun i hi => notMem_of_mem (hs i) (mem_of_mem_filter hi) (by decide)
  unfold retransQueue
  rw [foldl_retransRequest, hplace]

theorem retransQueue_spec : (retransQueue added s).flushed = s.flushed ∧
      ∀ j, (retransQueue added s).place.total j +
        ((s.place .handoverQueue).filter fun r => !added r).count j = s.place.total j := by
  rw [retransQueue_eq added hs]
  refine ⟨rfl, fun j => ?_⟩
  have hcleared := total_clear (Function.update s.place .ongoingRequests
    (s.place .ongoingRequests ++ (s.place .handoverQueue).filter added)) .handoverQueue j
  have hstarted := total_update s.place .ongoingRequests
    (s.place .ongoingRequests ++ (s.place .handoverQueue).filter added) j
  have hsplit : (s.place .handoverQueue).count j =
      ((s.place .handoverQueue).filter added).count j +
        ((s.place .handoverQueue).filter fun r => !added r).count j :=
    countP_eq_countP_filter_add _ _ _
  grind

theorem settlesAndStarts_spec :
    (retransQueue added (undoneRequestHandle info added s)).flushed = s.flushed ∧
      ∀ j, (retransQueue added (undoneRequestHandle info added s)).place.total j +
        ((s.place .handoverQueue).filter fun r => !added r).count j = s.place.total j := by
  have hundone := settles_undoneRequestHandle info added hs
  have hqueue := retransQueue_spec added fun j => (hundone.total j).trans_le (hs j)
  refine ⟨hqueue.1.trans hundone.flushed, fun j => ?_⟩
  rw [← hundone.handoverQueue, hqueue.2 j, hundone.total j]

end

theorem handoverRequestCallback_spec (handover : Bool) (status : Status)
    (hs : ∀ j, s.place.total j ≤ 1) :
    (handoverRequestCallback info added status s).flushed = s.flushed ∧
      ∀ j, (handoverRequestCallback info added status s).place.total j +
        (lost handover s (.handover status info added)).count j = s.place.total j := by
  cases status with
  | ended => exact settlesAndStarts_spec info added (s := { s with endTime := s.endTime + 1 }) hs
  | timeout => exact settlesAndStarts_spec info added hs
  | init | start | cont | fatal => exact ⟨rfl, fun _ => rfl⟩

end Handover

section Books

variable {handover : Bool} {s t : Driver ι} {e : Event ι}

/-- What is lost and what has come in make the difference. -/
structure Balances (handover : Bool) (s : Driver ι) (e : Event ι) (t : Driver ι) : Prop where
  flushed : t.flushed = s.flushed ++ flushes e
  total : ∀ j, t.place.total j + (lost handover s e).count j =
    s.place.total j + (flushes e).count j

/-- An event that brings nothing and loses nothing. -/
theorem balances_of_same (hflushes : flushes e = []) (hlost : lost handover s e = [])
    (hflushed : t.flushed = s.flushed) (htotal : ∀ j, t.place.total j = s.place.total j) :
    Balances handover s e t := by
  refine ⟨?_, fun j => ?_⟩
  · rw [hflushes, hflushed, append_nil]
  · rw [hflushes, hlost, htotal]

theorem balances_incoming {batch : List (Incoming ι)} (hs : Bounded s)
    (hnodup : (batch.map request).Nodup) (hnew : ∀ item ∈ batch, item.request ∉ s.flushed) :
    Balances handover s (.incoming batch) (incomingRequestCallback handover batch s) := by
  refine ⟨incomingRequestCallback_flushed handover batch s, fun j => ?_⟩
  have htotal := total_incomingRequestCallback handover hnodup
    (fun item hitem => hs.total_eq_zero (hnew item hitem)) j
  have hsplit : (batch.map request).count j =
      ((batch.filter fun item => item.taken handover).map request).count j +
        ((batch.filter fun item => !item.taken handover).map request).count j := by
    simp only [List.count, countP_map]
    exact countP_eq_countP_filter_add _ _ _
  change _ + ((batch.filter fun item => !item.taken handover).map request).count j =
    _ + (batch.map request).count j
  omega

/-- An interceptor passes a request on to a record. -/
theorem total_erase_record {k k' : Place} {r : ι} (hr : r ∈ s.place k) (j : ι) :
    ((s.erase k r).record k' r).place.total j = s.place.total j :=
  (total_put _ k' r j).trans (total_erase hr j)

variable (h : step handover s e = some t)
include h

/-- Requests come in once. -/
theorem flushes_fresh : (flushes e).Nodup ∧ ∀ r ∈ flushes e, r ∉ s.flushed := by
  cases e with
  | incoming batch =>
    obtain ⟨⟨hnodup, hnew⟩, -⟩ := ite_none_right_eq_some.mp h
    refine ⟨hnodup, fun r hr => ?_⟩
    obtain ⟨item, hitem, rfl⟩ := mem_map.1 hr
    exact hnew item hitem
  | done | handover | handoverTimeout | redirect | complete =>
    exact ⟨nodup_nil, nofun⟩

variable (hs : Bounded s)
include hs

theorem balances_step : Balances handover s e t := by
  cases e with
  | incoming batch =>
    obtain ⟨hguard, ⟨⟩⟩ := ite_none_right_eq_some.mp h
    exact balances_incoming hs hguard.1 hguard.2
  | done r m =>
    obtain ⟨hr, ⟨⟩⟩ := ite_none_right_eq_some.mp h
    obtain ⟨hflushed, htotal⟩ := handleCurlDoneMessage_spec handover m (hs.total_le r) hr
    exact balances_of_same rfl rfl hflushed htotal
  | handover status info added =>
    obtain ⟨-, ⟨⟩⟩ := ite_none_right_eq_some.mp h
    obtain ⟨hflushed, htotal⟩ :=
      handoverRequestCallback_spec info added handover status hs.total_le
    exact ⟨hflushed.trans (append_nil _).symm, htotal⟩
  | handoverTimeout =>
    obtain ⟨-, ⟨⟩⟩ := ite_none_right_eq_some.mp h
    exact balances_of_same rfl rfl rfl fun _ => rfl
  | redirect r =>
    obtain ⟨hr, ⟨⟩⟩ := ite_none_right_eq_some.mp h
    exact balances_of_same rfl rfl rfl (total_erase_record hr)
  | complete r =>
    obtain ⟨hr, ⟨⟩⟩ := ite_none_right_eq_some.mp h
    exact balances_of_same rfl rfl rfl (total_erase_record hr)

theorem total_add_flushes_le (j : ι) :
    s.place.total j + (flushes e).count j ≤ if j ∈ s.flushed ++ flushes e then 1 else 0 := by
  obtain ⟨hnodup, hnew⟩ := flushes_fresh h
  by_cases hj : j ∈ flushes e
  · rw [if_pos (mem_append_right _ hj), hs.total_eq_zero (hnew j hj), Nat.zero_add]
    exact nodup_iff_count_le_one.1 hnodup j
  · have hbound := hs j
    rw [count_eq_zero_of_not_mem hj]
    simpa [hj] using hbound

theorem total_add_flushes (haccounted : Accounted s) {j : ι} (hj : j ∈ s.flushed ++ flushes e) :
    s.place.total j + (flushes e).count j = 1 := by
  apply le_antisymm
  · have hle := total_add_flushes_le h hs j
    rwa [if_pos hj] at hle
  · obtain hold | hnew := mem_append.1 hj
    · rw [haccounted j hold]
      exact Nat.le_add_right 1 _
    grind

theorem bounded_step : Bounded t := by
  intro j
  have hbalance := balances_step h hs
  calc t.place.total j
      ≤ t.place.total j + (lost handover s e).count j := Nat.le_add_right _ _
    _ = s.place.total j + (flushes e).count j := hbalance.total j
    _ ≤ if j ∈ s.flushed ++ flushes e then 1 else 0 := total_add_flushes_le h hs j
    _ = if j ∈ t.flushed then 1 else 0 := by rw [hbalance.flushed]

theorem accounted_step_iff (haccounted : Accounted s) : Accounted t ↔ AddsTaken handover s e := by
  have hbalance := balances_step h hs
  rw [← lost_eq_nil_iff, eq_nil_iff_forall_not_mem]
  constructor
  · intro ht r hr
    have hcount := count_pos_iff.2 hr
    have hsum := hbalance.total r
    by_cases hflushed : r ∈ t.flushed
    · have hone := total_add_flushes h hs haccounted (hbalance.flushed ▸ hflushed)
      have hthere := ht r hflushed
      omega
    · have hnone := total_add_flushes_le h hs r
      rw [← hbalance.flushed, if_neg hflushed] at hnone
      omega
  · intro hlost r hr
    have hone := total_add_flushes h hs haccounted (hbalance.flushed ▸ hr)
    have hsum := hbalance.total r
    rw [count_eq_zero_of_not_mem (hlost r)] at hsum
    exact hsum.trans hone

end Books

/-- In every run every request is in one of the places at every return to the event loop, if and
only if curl takes the handles that it is given at the two places. -/
theorem requests_accounted_iff (handover : Bool) (run : List (Event ι)) :
    Throughout (step handover) Accounted run {} ↔
      Meets (step handover) (AddsTaken handover) run {} :=
  throughout_iff_meets (fun _ _ _ hs h => bounded_step h hs)
    (fun _ _ _ hs haccounted h => accounted_step_iff h hs haccounted) run
    (fun _ => Nat.zero_le _) nofun

/-- Curl does not take the handle of a new request, and nobody is told. -/
theorem refused_request_lost :
    ¬ Throughout (step false) Accounted [.incoming [{ request := (), added := false }]] {} := by
  decide

/-- Nor is anybody told when it does not take a request that was kept back. -/
example :
    ¬ Throughout (step true) Accounted
      [.incoming [{ request := (), status := .start }],
        .handover .ended (fun _ => {}) fun _ => false] {} := by
  decide

end Netstack.HttpOverCurl
