import Netstack.HttpCache.LruInvariant

/-!
# Whole runs of the in-memory cache

The `Http` copy refines the reference recency list on every run. The
`HttpClient` copy forgets to reset `size_` in `Clear`; its loops still end on
every run, and its accounting is exact as long as `Clear` meets empty lists.
-/

namespace Netstack.HttpCache.LruCache

open Foundation Foundation.Execution Foundation.Recency List

variable (rt : Runtime) (c : Copy) {slack : Nat} {s : LruCache}

/-- A round that removes no cell changes nothing, so a loop that used up one
round per cell never ends. -/
theorem evict_eq_none_iff (s : LruCache) :
    s.evict rt c = none ↔ ∀ n, whileLoop overCapacity (eraseTailNode rt c) n s = none := by
  constructor
  · intro hnone n
    cases hn : whileLoop overCapacity (eraseTailNode rt c) n s with
    | none => rfl
    | some t =>
      have hmeasure :
          whileLoop overCapacity (eraseTailNode rt c) s.nodeList.length s = some t := by
        apply whileLoop_measure (μ := fun s => s.nodeList.length) _ _ _ hn
        intro a _
        unfold eraseTailNode
        cases hlast : a.nodeList.getLast? with
        | none => exact Or.inl rfl
        | some cell =>
          grind
      rw [evict, hmeasure] at hnone
      cases hnone
  · intro h
    exact h _

/-- The accepted key-value pairs of a list of nodes, in order. -/
def acceptedEntries (nodes : List Node) : List (Bytes × ValueMap) :=
  (nodes.map fun node => (node.key, node.value)).filter fun e => Accepted e.2

/-- The reference insertion: a value that is not accepted changes nothing. -/
def referencePut (b : Nat) (l : List (Bytes × ValueMap)) (node : Node) : List (Bytes × ValueMap) :=
  if Accepted node.value then Recency.put mapBytes b l (node.key, node.value) else l

theorem foldl_referencePut (b : Nat) (l : List (Bytes × ValueMap)) (nodes : List Node) :
    nodes.foldl (referencePut b) l = putAll mapBytes b l (acceptedEntries nodes) := by
  induction nodes generalizing l with
  | nil => rfl
  | cons node nodes ih =>
    rw [foldl_cons, ih]
    by_cases hv : Accepted node.value
    · simp [acceptedEntries, referencePut, hv, putAll]
    · simp [acceptedEntries, referencePut, hv]

/-- The bytes still charged after an operation: only `Clear` of the `HttpClient`
copy leaves the whole size charged. -/
def slackAfter (c : Copy) (s : LruCache) (slack : Nat) : Op → Nat
  | .clear => match c with
    | .http => 0
    | .httpClient => s.size
  | _ => slack

section

variable (h : Inv slack s)
include h

/-- A sequence of `Put` calls is the sequence of reference insertions. -/
theorem Inv.putNodes_spec (nodes : List Node) :
    ∃ s', s.putNodes rt c nodes = some s' ∧ Inv slack s' ∧ s'.capacity = s.capacity ∧
      s'.entries = putAll mapBytes (s.capacity - slack) s.entries (acceptedEntries nodes) := by
  rw [← foldl_referencePut]
  have hrun := foldlM_simulates (fun s (node : Node) => put rt c s node.key node.value)
    (fun t l => Inv slack t ∧ t.capacity = s.capacity ∧ t.entries = l)
    (referencePut (s.capacity - slack)) ?_ nodes ⟨h, rfl, rfl⟩
  · obtain ⟨s', hs', hinv, hcap, hent⟩ := hrun
    exact ⟨s', hs', hinv, hcap, hent⟩
  · rintro t l node ⟨hinv, hcap, rfl⟩
    obtain ⟨t', ht', hinv', hcap', hent⟩ := hinv.put_total rt c node.key node.value
    refine ⟨t', ht', hinv', hcap'.trans hcap, ?_⟩
    rw [hent, hcap]
    rfl

theorem Inv.mergeOtherCache_spec (other : LruCache) :
    ∃ s', s.mergeOtherCache rt c other = some s' ∧ Inv slack s' ∧ s'.capacity = s.capacity ∧
      s'.entries = putAll mapBytes (s.capacity - slack) s.entries
        (acceptedEntries (other.nodeList.map Cell.node).reverse) := by
  by_cases hempty : other.nodeList = []
  · refine ⟨s, by simp [mergeOtherCache, hempty], h, rfl, ?_⟩
    simp [hempty, acceptedEntries]
  · obtain ⟨s', hs', hrest⟩ :=
      h.putNodes_spec rt c (other.nodeList.map Cell.node).reverse
    grind [mergeOtherCache]

theorem Inv.clear_spec : Inv (slackAfter c s slack .clear) (s.clear c) := by
  have hcap := h.capacity_le
  cases c with
  | http =>
    exact {
      keys := nodup_nil
      addrs := nodup_nil
      addr_lt := by simp [clear]
      cache_iff := by simp [clear]
      accepted := by simp [clear, entries]
      size_eq := rfl
      slack_le := Nat.zero_le _
      capacity_le := hcap
      size_le := Nat.zero_le _ }
  | httpClient =>
    exact {
      keys := nodup_nil
      addrs := nodup_nil
      addr_lt := by simp [clear]
      cache_iff := by simp [clear]
      accepted := by simp [clear, entries]
      size_eq := rfl
      slack_le := h.size_le
      capacity_le := hcap
      size_le := h.size_le }

/-- Every operation returns and keeps the invariant, with the slack it leaves. -/
theorem Inv.step_spec (op : Op) :
    ∃ s', s.step rt c op = some s' ∧ Inv (slackAfter c s slack op) s' ∧
      s'.capacity = s.capacity := by
  cases op with
  | put k v =>
    obtain ⟨s', hs', hinv, hcap, -⟩ := h.put_total rt c k v
    exact ⟨s', hs', hinv, hcap⟩
  | get k =>
    obtain ⟨s', hs', hinv, hcap, -⟩ := h.get_spec k
    exact ⟨s', by simp [step, hs'], hinv, hcap⟩
  | mergeOtherCache other =>
    obtain ⟨s', hs', hinv, hcap, -⟩ := h.mergeOtherCache_spec rt c other
    exact ⟨s', hs', hinv, hcap⟩
  | mergeSelf =>
    cases c with
    | http => exact ⟨s, rfl, h, rfl⟩
    | httpClient =>
      obtain ⟨s', hs', hinv, hcap, -⟩ := h.mergeOtherCache_spec rt .httpClient s
      exact ⟨s', hs', hinv, hcap⟩
  | readCacheFromJsonValue root =>
    obtain ⟨s', hs', hinv, hcap, -⟩ := h.putNodes_spec rt c (nodesOfJson rt root)
    exact ⟨s', hs', hinv, hcap⟩
  | clear => exact ⟨s.clear c, rfl, h.clear_spec c, by cases c <;> rfl⟩

end

theorem run_concat (ops : List Op) (op : Op) (s : LruCache) :
    run rt c (ops ++ [op]) s = (run rt c ops s).bind fun t => step rt c t op :=
  foldlM_concat ops op s

/-- Every run of either copy has a result, which satisfies the invariant for some slack. -/
theorem run_inv (capacity : Nat) (ops : List Op) :
    ∃ s slack, run rt c ops (ofCapacity capacity) = some s ∧ Inv slack s := by
  induction ops using List.reverseRecOn with
  | nil => exact ⟨_, 0, rfl, inv_ofCapacity capacity⟩
  | append_singleton ops op ih =>
    obtain ⟨s, slack, hs, hinv⟩ := ih
    obtain ⟨s', hs', hinv', -⟩ := hinv.step_spec rt c op
    grind [run_concat]

/-- `size_` is the sum of `GetMapValueSize` over the values held in `nodeList_`. -/
def SizeExact (rt : Runtime) (s : LruCache) : Prop :=
  s.size = (s.nodeList.map fun cell => getMapValueSize rt cell.node.value).sum

instance (rt : Runtime) (s : LruCache) : Decidable (SizeExact rt s) :=
  inferInstanceAs (Decidable (s.size = _))

theorem Charged.sum_getMapValueSize (h : Charged slack s) :
    (s.nodeList.map fun cell => getMapValueSize rt cell.node.value).sum =
      total mapBytes s.entries := by
  simp only [total, entries, map_map, Function.comp_def]
  congr 1
  apply map_congr_left
  intro cell hc
  exact getMapValueSize_of_accepted rt (h.accepted _
    (mem_map_of_mem (f := fun a : Cell => (a.node.key, a.node.value)) hc))

theorem Charged.sizeExact_iff (h : Charged slack s) : SizeExact rt s ↔ slack = 0 := by
  rw [SizeExact, h.sum_getMapValueSize, h.size_eq]
  omega

theorem Charged.nodeList_eq_nil (h : Charged slack s) (hsize : s.size = 0) : s.nodeList = [] := by
  have hsum := h.size_eq
  cases hl : s.nodeList with
  | nil => rfl
  | cons cell rest =>
    have hacc : 1 ≤ mapBytes cell.node.value :=
      (h.accepted (cell.node.key, cell.node.value) (by simp [entries, hl])).1
    grind [total, entries]

/-- A run in which `Clear` only meets empty lists keeps the accounting exact. -/
theorem run_inv_zero {capacity : Nat} {ops : List Op}
    (h : ∀ pre, pre ++ [.clear] <+: ops → ∀ s,
      run rt c pre (ofCapacity capacity) = some s → s.nodeList = []) :
    ∃ s, run rt c ops (ofCapacity capacity) = some s ∧ Inv 0 s := by
  induction ops using List.reverseRecOn with
  | nil => exact ⟨_, rfl, inv_ofCapacity capacity⟩
  | append_singleton ops op ih =>
    obtain ⟨s, hs, hinv⟩ := ih fun pre hpre => h pre (hpre.trans (prefix_append _ _))
    obtain ⟨s', hs', hinv', -⟩ := hinv.step_spec rt c op
    refine ⟨s', by rw [run_concat, hs]; exact hs', ?_⟩
    cases op with
    | clear =>
      have hnil := h ops prefix_rfl s hs
      have hsize : s.size = 0 := by simp [hinv.size_eq, entries, hnil]
      have hzero : slackAfter c s 0 .clear = 0 := by
        cases c with
        | http => rfl
        | httpClient => exact hsize
      rwa [hzero] at hinv'
    | put k v => exact hinv'
    | get k => exact hinv'
    | mergeOtherCache other => exact hinv'
    | mergeSelf => exact hinv'
    | readCacheFromJsonValue root => exact hinv'

/-- In the `HttpClient` copy every `Put` of every run ends within the capacity.
The accounting is exact in every state of a run exactly when no `Clear` of the
run meets a stored value. -/
theorem httpClient_put_ends_and_size_exact_iff (rt : Runtime) (capacity : Nat) (ops : List Op) :
    (∀ pre, pre <+: ops → ∃ s, run rt .httpClient pre (ofCapacity capacity) = some s ∧
      ∀ k v, ∃ s', s.put rt .httpClient k v = some s' ∧ s'.size ≤ s'.capacity) ∧
    ((∀ pre, pre <+: ops → ∀ s,
        run rt .httpClient pre (ofCapacity capacity) = some s → SizeExact rt s) ↔
      ∀ pre, pre ++ [.clear] <+: ops → ∀ s,
        run rt .httpClient pre (ofCapacity capacity) = some s → s.nodeList = []) := by
  refine ⟨?_, ?_, ?_⟩
  · intro pre _
    obtain ⟨s, slack, hs, hinv⟩ := run_inv rt .httpClient capacity pre
    refine ⟨s, hs, ?_⟩
    intro k v
    obtain ⟨s', hs', hinv', -, -⟩ := hinv.put_total rt .httpClient k v
    exact ⟨s', hs', hinv'.size_le⟩
  · intro hexact pre hpre s hs
    obtain ⟨t, slack, ht, hinv⟩ := run_inv rt .httpClient capacity pre
    obtain rfl : t = s := Option.some.inj (ht.symm.trans hs)
    have hcleared : run rt .httpClient (pre ++ [.clear]) (ofCapacity capacity) =
        some (t.clear .httpClient) := by
      rw [run_concat, ht]
      rfl
    have hzero : SizeExact rt (t.clear .httpClient) := hexact _ hpre _ hcleared
    exact hinv.nodeList_eq_nil hzero
  · intro hclear pre hpre s hs
    obtain ⟨t, ht, hinv⟩ := run_inv_zero rt .httpClient 
      fun q hq => hclear q (hq.trans hpre)
    grind [@hinv.sizeExact_iff]

/-- One stored byte stays charged after `Clear` although the list is empty. -/
theorem httpClient_clear_leaves_size :
    ∃ s, run .ordered .httpClient [.put (ascii "k") ((∅ : ValueMap).insert (ascii "n") (ascii "v")),
        .clear] (ofCapacity 8) = some s ∧
      s.nodeList = [] ∧ s.size = 1 ∧ ¬ SizeExact .ordered s := by
  refine ⟨{ ofCapacity 8 with size := 1, nextAddr := 1 }, ?_, ?_, ?_, ?_⟩ <;> decide

/-- The reference recency list with budget `b`: most recently put or got key
first, each insertion dropping the shortest tail that brings the total to `b`. -/
def referenceStep (rt : Runtime) (b : Nat) (l : List (Bytes × ValueMap)) :
    Op → List (Bytes × ValueMap)
  | .put k v => referencePut b l ⟨k, v⟩
  | .get k => touch k l
  | .mergeOtherCache other => (other.nodeList.map Cell.node).reverse.foldl (referencePut b) l
  | .mergeSelf => l
  | .readCacheFromJsonValue root => (nodesOfJson rt root).foldl (referencePut b) l
  | .clear => []

/-- One operation of the `Http` copy is one step of the reference list. -/
theorem Inv.http_step_refines (h : Inv 0 s) (op : Op) :
    ∃ s', s.step rt .http op = some s' ∧ Inv 0 s' ∧ s'.capacity = s.capacity ∧
      s'.entries = referenceStep rt s.capacity s.entries op := by
  cases op with
  | put k v => exact h.put_total rt .http k v
  | get k =>
    obtain ⟨s', hs', hrest⟩ := h.get_spec k
    exact ⟨s', by simp [step, hs'], hrest⟩
  | mergeOtherCache other =>
    simp only [referenceStep, foldl_referencePut]
    exact h.mergeOtherCache_spec rt .http other
  | mergeSelf => exact ⟨s, rfl, h, rfl, rfl⟩
  | readCacheFromJsonValue root =>
    simp only [referenceStep, foldl_referencePut]
    exact h.putNodes_spec rt .http (nodesOfJson rt root)
  | clear => exact ⟨s.clear .http, rfl, h.clear_spec .http, rfl, rfl⟩

theorem http_run_inv (capacity : Nat) (ops : List Op) :
    ∃ s, run rt .http ops (ofCapacity capacity) = some s ∧ Inv 0 s ∧
      s.capacity = min maxSize capacity ∧
      s.entries = ops.foldl (referenceStep rt (min maxSize capacity)) [] :=
  foldlM_simulates (step rt .http)
    (fun t l => Inv 0 t ∧ t.capacity = min maxSize capacity ∧ t.entries = l)
    (referenceStep rt (min maxSize capacity))
    (by
      rintro t l op ⟨hinv, hcap, rfl⟩
      obtain ⟨t', ht', hinv', hcap', hent⟩ := hinv.http_step_refines rt op
      exact ⟨t', ht', hinv', hcap'.trans hcap, by rw [hent, hcap]⟩)
    ops ⟨inv_ofCapacity capacity, rfl, rfl⟩

/-- Every run of the `Http` copy returns, and its state is coherent, holds only
values of valid size, accounts exactly for them within the capacity, and lists
exactly the reference recency list. -/
theorem http_run_refines (rt : Runtime) (capacity : Nat) (ops : List Op) :
    ∃ s, run rt .http ops (ofCapacity capacity) = some s ∧ Coherent s ∧
      (∀ cell ∈ s.nodeList, 1 ≤ getMapValueSize rt cell.node.value ∧
        getMapValueSize rt cell.node.value ≤ maxSize) ∧
      SizeExact rt s ∧ s.size ≤ s.capacity ∧ s.capacity = min maxSize capacity ∧
      s.entries = ops.foldl (referenceStep rt (min maxSize capacity)) [] := by
  obtain ⟨s, hs, hinv, hcap, hent⟩ := http_run_inv rt capacity ops
  refine ⟨s, hs, hinv.toCoherent, ?_, (hinv.sizeExact_iff rt).mpr rfl, hinv.size_le, hcap, hent⟩
  intro cell hc
  have hacc := hinv.accepted (cell.node.key, cell.node.value)
    (mem_map_of_mem (f := fun a : Cell => (a.node.key, a.node.value)) hc)
  rw [getMapValueSize_of_accepted rt hacc]
  exact hacc

end Netstack.HttpCache.LruCache
