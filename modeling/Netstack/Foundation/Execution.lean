import Mathlib.Tactic

/-!
# Loops and runs

A `while` loop is executed with a bound on the number of rounds; `none` means
that the bound was used up. A run is a list of operations executed one after
another by a step function that may have no result. The run rules turn facts
about one step into facts about every run. A callback is given chunks one after
another and answers each with a count; the delivery is given up at the first
count that is not the size of the chunk.
-/

namespace Netstack.Foundation.Execution

open List Option

section WhileLoop

variable {σ : Type*} (cond : σ → Bool) (body : σ → σ)

/-- Execute `while (cond) body` for at most `n` rounds. -/
def whileLoop : Nat → σ → Option σ
  | 0, s => if cond s then none else some s
  | n + 1, s => if cond s then whileLoop n (body s) else some s

theorem whileLoop_exit {s : σ} (h : cond s = false) (n : Nat) :
    whileLoop cond body n s = some s := by
  cases n <;> simp [whileLoop, h]

theorem whileLoop_round {s : σ} (h : cond s = true) (n : Nat) :
    whileLoop cond body (n + 1) s = whileLoop cond body n (body s) := by
  simp [whileLoop, h]

/-- A loop that left within some bound leaves in the same state within any larger one. -/
theorem whileLoop_mono {n m : Nat} (hnm : n ≤ m) {s t : σ}
    (h : whileLoop cond body n s = some t) : whileLoop cond body m s = some t := by
  induction n generalizing m s with
  | zero =>
    cases hc : cond s with
    | true => simp [whileLoop, hc] at h
    | false =>
      rw [whileLoop_exit cond body hc] at h ⊢
      exact h
  | succ n ih =>
    obtain ⟨m, rfl⟩ : ∃ k, m = k + 1 := ⟨m - 1, by omega⟩
    cases hc : cond s with
    | true =>
      rw [whileLoop_round cond body hc] at h ⊢
      exact ih (by omega) h
    | false =>
      rw [whileLoop_exit cond body hc] at h ⊢
      exact h

/-- If every round shrinks the measure or is a no-op, a loop that leaves at all
leaves within its measure. -/
theorem whileLoop_measure {μ : σ → Nat}
    (hprogress : ∀ s, cond s = true → body s = s ∨ μ (body s) < μ s)
    {n : Nat} {s t : σ} (h : whileLoop cond body n s = some t) :
    whileLoop cond body (μ s) s = some t := by
  induction n generalizing s with
  | zero =>
    cases hc : cond s with
    | true => simp [whileLoop, hc] at h
    | false =>
      rw [whileLoop_exit cond body hc] at h ⊢
      exact h
  | succ n ih =>
    cases hc : cond s with
    | false =>
      rw [whileLoop_exit cond body hc] at h ⊢
      exact h
    | true =>
      rw [whileLoop_round cond body hc] at h
      rcases hprogress s hc with hstuck | hless
      · rw [hstuck] at h
        exact ih h
      · obtain ⟨m, hm⟩ : ∃ k, μ s = k + 1 := ⟨μ s - 1, by omega⟩
        rw [hm, whileLoop_round cond body hc]
        exact whileLoop_mono cond body (by omega) (ih h)

/-- If every round keeps the invariant and shrinks the measure, the loop leaves within its
measure, and the invariant holds where it does. -/
theorem whileLoop_total {I : σ → Prop} {μ : σ → Nat}
    (hround : ∀ s, I s → cond s = true → I (body s) ∧ μ (body s) < μ s)
    {n : Nat} {s : σ} (hs : I s) (hn : μ s ≤ n) :
    ∃ t, whileLoop cond body n s = some t ∧ I t ∧ cond t = false := by
  induction n generalizing s with
  | zero =>
    cases hc : cond s with
    | true =>
      have hless := (hround s hs hc).2
      omega
    | false => exact ⟨s, whileLoop_exit cond body hc 0, hs, hc⟩
  | succ n ih =>
    cases hc : cond s with
    | true =>
      obtain ⟨hbody, hless⟩ := hround s hs hc
      rw [whileLoop_round cond body hc]
      exact ih hbody (by omega)
    | false => exact ⟨s, whileLoop_exit cond body hc _, hs, hc⟩

end WhileLoop

section Runs

variable {σ α : Type*} {step : σ → α → Option σ} {J P : σ → Prop} {as : List α} {s t : σ}

theorem foldlM_concat (as : List α) (a : α) (s : σ) :
    (as ++ [a]).foldlM step s = (as.foldlM step s).bind fun t => step t a := by
  simp only [foldlM_append, foldlM_cons, foldlM_nil, bind_pure]
  rfl

/-- A step simulation lifts to runs: every run has a result, and it stays
related to the run of the abstract step. -/
theorem foldlM_simulates {ρ : Type*} (step : σ → α → Option σ) (R : σ → ρ → Prop) (abs : ρ → α → ρ)
    (hstep : ∀ s r a, R s r → ∃ s', step s a = some s' ∧ R s' (abs r a))
    (as : List α) {r : ρ} (hs : R s r) :
    ∃ s', as.foldlM step s = some s' ∧ R s' (as.foldl abs r) := by
  induction as generalizing s r with
  | nil => exact ⟨s, rfl, hs⟩
  | cons a as ih =>
    obtain ⟨s₁, hs₁, hr₁⟩ := hstep s r a hs
    grind

/-- What the steps of a run keep, the run keeps. -/
theorem foldlM_invariant_of_mem (hstep : ∀ a ∈ as, ∀ s t, J s → step s a = some t → J t)
    (hs : J s) (h : as.foldlM step s = some t) : J t := by
  induction as generalizing s with
  | nil =>
    cases h
    exact hs
  | cons a as ih =>
    rw [foldlM_cons] at h
    obtain ⟨s₁, hs₁, hrest⟩ := bind_eq_some_iff.1 h
    obtain ⟨hfirst, hothers⟩ := forall_mem_cons.mp hstep
    exact ih hothers (hfirst s s₁ hs hs₁) hrest

/-- What every step keeps, a run keeps. -/
theorem foldlM_invariant (hstep : ∀ s a t, J s → step s a = some t → J t)
    (as : List α) (hs : J s) (h : as.foldlM step s = some t) : J t :=
  foldlM_invariant_of_mem (fun a _ s t => hstep s a t) hs h

/-- Whether there is a result with the property is decided by the result. -/
instance decidableResult {result : Option σ} [DecidablePred P] :
    Decidable (∃ s, result = some s ∧ P s) :=
  inferInstanceAs (Decidable (∃ s, s ∈ result ∧ P s))

section Conditions

variable (step : σ → α → Option σ) (cond : σ → α → Prop)

/-- Every step of the run that has a result meets the condition in the state in which
it is taken. -/
def Meets : List α → σ → Prop
  | [], _ => True
  | a :: as, s => ∀ t ∈ step s a, cond s a ∧ Meets as t

/-- The property holds in every state that the run goes through. -/
def Throughout (P : σ → Prop) : List α → σ → Prop
  | [], s => P s
  | a :: as, s => P s ∧ ∀ t ∈ step s a, Throughout P as t

variable {step cond}

instance decidableThroughout {P : σ → Prop} [DecidablePred P] :
    (as : List α) → (s : σ) → Decidable (Throughout step P as s)
  | [], s => inferInstanceAs (Decidable (P s))
  | a :: as, s =>
    have := decidableThroughout (P := P) as
    inferInstanceAs (Decidable (P s ∧ ∀ t ∈ step s a, Throughout step P as t))

instance decidableMeets [∀ s a, Decidable (cond s a)] :
    (as : List α) → (s : σ) → Decidable (Meets step cond as s)
  | [], _ => isTrue trivial
  | a :: as, s =>
    have := decidableMeets as
    inferInstanceAs (Decidable (∀ t ∈ step s a, cond s a ∧ Meets step cond as t))

variable {cond' : σ → α → Prop}

/-- Conditions that agree on every step agree on every run. -/
theorem meets_congr (h : ∀ s a, cond s a ↔ cond' s a) (as : List α) (s : σ) :
    Meets step cond as s ↔ Meets step cond' as s := by
  induction as generalizing s with
  | nil => exact Iff.rfl
  | cons a as ih =>
    constructor
    · intro hmeets t ht
      exact ⟨(h s a).mp (hmeets t ht).1, (ih t).mp (hmeets t ht).2⟩
    · intro hmeets t ht
      exact ⟨(h s a).mpr (hmeets t ht).1, (ih t).mpr (hmeets t ht).2⟩

/-- A step after a run is taken in the state that the run has reached. -/
theorem Meets.last {a : α} {u : σ} (h : Meets step cond (as ++ [a]) s)
    (ht : as.foldlM step s = some t) (hu : step t a = some u) : cond t a := by
  induction as generalizing s with
  | nil =>
    cases ht
    exact (h u hu).1
  | cons b as ih =>
    rw [foldlM_cons] at ht
    obtain ⟨s₁, hs₁, hrest⟩ := bind_eq_some_iff.1 ht
    exact ih (h s₁ hs₁).2 hrest

theorem Throughout.start (h : Throughout step P as s) : P s := by
  cases as with
  | nil => exact h
  | cons a as => exact h.1

theorem Throughout.finish (h : Throughout step P as s) (ht : as.foldlM step s = some t) : P t := by
  induction as generalizing s with
  | nil =>
    cases ht
    exact h
  | cons a as ih =>
    rw [foldlM_cons] at ht
    obtain ⟨s₁, hs₁, hrest⟩ := bind_eq_some_iff.1 ht
    exact ih (h.2 s₁ hs₁) hrest

/-- A property that no step can bring back holds throughout a run if it holds at the end. -/
theorem throughout_iff_finish (hback : ∀ s a t, step s a = some t → P t → P s)
    (h : as.foldlM step s = some t) : Throughout step P as s ↔ P t := by
  induction as generalizing s with
  | nil =>
    cases h
    exact Iff.rfl
  | cons a as ih =>
    rw [foldlM_cons] at h
    obtain ⟨s₁, hs₁, hrest⟩ := bind_eq_some_iff.1 h
    constructor
    · rintro ⟨-, htail⟩
      exact (ih hrest).mp (htail s₁ hs₁)
    · intro ht
      have htail := (ih hrest).mpr ht
      refine ⟨hback s a s₁ hs₁ htail.start, fun s₂ hs₂ => ?_⟩
      obtain rfl := some.inj (hs₁.symm.trans hs₂)
      exact htail

/-- If a step keeps the property exactly if it meets the condition, a run keeps it
exactly if all its steps do. The invariant `J` is one that the steps keep that keep the
property. -/
theorem throughout_iff_meets_of_both (hkeep : ∀ s a t, J s → P s → step s a = some t → P t → J t)
    (hstep : ∀ s a t, J s → P s → step s a = some t → (P t ↔ cond s a))
    (as : List α) (hJ : J s) (hP : P s) : Throughout step P as s ↔ Meets step cond as s := by
  induction as generalizing s with
  | nil => exact ⟨fun _ => trivial, fun _ => hP⟩
  | cons a as ih =>
    constructor
    · rintro ⟨-, htail⟩ t ht
      have hrest := htail t ht
      refine ⟨(hstep s a t hJ hP ht).mp hrest.start, ?_⟩
      exact (ih (hkeep s a t hJ hP ht hrest.start) hrest.start).mp hrest
    · intro hmeets
      refine ⟨hP, fun t ht => ?_⟩
      obtain ⟨hcond, hrest⟩ := hmeets t ht
      have hPt := (hstep s a t hJ hP ht).mpr hcond
      exact (ih (hkeep s a t hJ hP ht hPt) hPt).mpr hrest

/-- The invariant is one that every step keeps. -/
theorem throughout_iff_meets (hkeep : ∀ s a t, J s → step s a = some t → J t)
    (hstep : ∀ s a t, J s → P s → step s a = some t → (P t ↔ cond s a))
    (as : List α) (hJ : J s) (hP : P s) : Throughout step P as s ↔ Meets step cond as s :=
  throughout_iff_meets_of_both (fun s a t hs _ ht _ => hkeep s a t hs ht) hstep as hJ hP

/-- If the steps that meet the condition keep an invariant, the runs whose steps all meet
it have whatever the invariant implies. -/
theorem throughout_of_meets (hstep : ∀ s a t, J s → cond s a → step s a = some t → J t)
    (hsafe : ∀ s, J s → P s)
    (as : List α) (hJ : J s) (hmeets : Meets step cond as s) : Throughout step P as s := by
  induction as generalizing s with
  | nil => exact hsafe s hJ
  | cons a as ih =>
    refine ⟨hsafe s hJ, fun t ht => ?_⟩
    obtain ⟨hcond, hrest⟩ := hmeets t ht
    exact ih (hstep s a t hJ hcond ht) hrest

/-- If every step keeps an invariant, every run has whatever the invariant implies. -/
theorem throughout_of_invariant (hstep : ∀ s a t, J s → step s a = some t → J t)
    (hsafe : ∀ s, J s → P s) (as : List α) (hJ : J s) : Throughout step P as s := by
  induction as generalizing s with
  | nil => exact hsafe s hJ
  | cons a as ih => exact ⟨hsafe s hJ, fun t ht => ih (hstep s a t hJ ht)⟩

/-- If the steps that meet the condition keep an invariant, they meet whatever the invariant
implies of a step. -/
theorem meets_of_meets (hstep : ∀ s a t, J s → cond s a → step s a = some t → J t)
    (hsafe : ∀ s a t, J s → step s a = some t → cond' s a) (as : List α) (hJ : J s)
    (hmeets : Meets step cond as s) : Meets step cond' as s := by
  induction as generalizing s with
  | nil => trivial
  | cons a as ih =>
    intro t ht
    obtain ⟨hcond, hrest⟩ := hmeets t ht
    exact ⟨hsafe s a t hJ ht, ih (hstep s a t hJ hcond ht) hrest⟩

end Conditions

end Runs

section Delivery

variable {σ κ : Type*} (size : κ → Nat) (callback : σ → κ → Nat × σ)

/-- Give the chunks to the callback. The result says whether it took all of them, and
what it left behind. -/
def deliver : List κ → σ → Bool × σ
  | [], s => (true, s)
  | chunk :: chunks, s =>
    if (callback s chunk).1 = size chunk then deliver chunks (callback s chunk).2
    else (false, (callback s chunk).2)

/-- A callback that takes every chunk of the list whole gets all of them. -/
theorem deliver_of_takes {chunks : List κ}
    (htakes : ∀ chunk ∈ chunks, ∀ s, (callback s chunk).1 = size chunk) (s : σ) :
    deliver size callback chunks s =
      (true, chunks.foldl (fun s chunk => (callback s chunk).2) s) := by
  induction chunks generalizing s with
  | nil => rfl
  | cons chunk chunks ih =>
    obtain ⟨hchunk, hrest⟩ := forall_mem_cons.mp htakes
    rw [deliver, if_pos (hchunk s), ih hrest, foldl_cons]

/-- What every call of the callback keeps, a delivery keeps. -/
theorem deliver_invariant {P : σ → Prop} (hstep : ∀ s chunk, P s → P (callback s chunk).2)
    (chunks : List κ) {s : σ} (hs : P s) : P (deliver size callback chunks s).2 := by
  induction chunks generalizing s with
  | nil => exact hs
  | cons chunk chunks ih =>
    rw [deliver]
    split
    · exact ih (hstep s chunk hs)
    · exact hstep s chunk hs

/-- If the answer of the callback depends on the chunk only, a complete delivery has
chunks only that it takes. -/
theorem takes_of_deliver {answer : κ → Nat}
    (hanswer : ∀ s chunk, (callback s chunk).1 = answer chunk) {chunks : List κ} {s : σ}
    (h : (deliver size callback chunks s).1 = true) :
    ∀ chunk ∈ chunks, answer chunk = size chunk := by
  induction chunks generalizing s with
  | nil => exact fun chunk hmem => absurd hmem not_mem_nil
  | cons chunk chunks ih =>
    rw [deliver, hanswer] at h
    grind

end Delivery

/-- A flag that each step raises or keeps is raised by a loop over a list exactly
when it was up before or one of the steps raises it. -/
theorem foldl_flag {σ α : Type*} (flag : σ → Bool) {f : σ → α → σ} {raises : α → Bool}
    (hstep : ∀ s a, flag (f s a) = (flag s || raises a)) (as : List α) (s : σ) :
    flag (as.foldl f s) = (flag s || as.any raises) := by
  induction as generalizing s with
  | nil => simp
  | cons a as ih =>
    grind

end Netstack.Foundation.Execution
