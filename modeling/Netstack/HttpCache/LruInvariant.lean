import Netstack.Foundation.FiniteMaps
import Netstack.Foundation.RecencyList
import Netstack.HttpCache.LruCache

/-!
# What one cache operation does

`Coherent` ties the iterator map to the list. `Charged slack` adds the byte
accounting: `size_` is the size of the stored values plus `slack` bytes that are
still charged although their values are gone. Every operation is described by
its effect on the recency list of entries.
-/

namespace Netstack.HttpCache

open Foundation Foundation.Execution Foundation.Recency List

variable (rt : Runtime) (m : ValueMap)

/-- The total number of value bytes of a map. -/
def mapBytes (m : ValueMap) : Nat := (m.toList.map fun p => p.2.length).sum

/-- A value `Put` stores: at least one byte and at most one mebibyte. -/
def Accepted (m : ValueMap) : Prop := 1 ≤ mapBytes m ∧ mapBytes m ≤ maxSize

instance (m : ValueMap) : Decidable (Accepted m) :=
  inferInstanceAs (Decidable (1 ≤ mapBytes m ∧ mapBytes m ≤ maxSize))

theorem getMapValueSizeLoop_eq (size : Nat) (l : List (Bytes × Bytes)) :
    getMapValueSizeLoop size l =
      if 1 ≤ size + (l.map fun p => p.2.length).sum ∧
          size + (l.map fun p => p.2.length).sum ≤ maxSize
        then size + (l.map fun p => p.2.length).sum else invalidSize := by
  induction l generalizing size with
  | nil =>
    simp only [getMapValueSizeLoop, map_nil, sum_nil, Nat.add_zero]
    split <;> split <;> omega
  | cons p rest ih =>
    simp only [getMapValueSizeLoop, map_cons, sum_cons]
    grind

/-- The loop's result does not depend on the order in which the map is visited. -/
theorem getMapValueSize_eq :
    getMapValueSize rt m = if Accepted m then mapBytes m else invalidSize := by
  have hsum : ((rt.iterate m).map fun p => p.2.length).sum = mapBytes m :=
    ((rt.iterate_perm m).map _).sum_eq
  unfold getMapValueSize
  rw [getMapValueSizeLoop_eq, hsum, Nat.zero_add]
  rfl

theorem getMapValueSize_of_accepted {m : ValueMap} (h : Accepted m) :
    getMapValueSize rt m = mapBytes m := by
  rw [getMapValueSize_eq, if_pos h]

theorem getMapValueSize_eq_invalid_iff :
    getMapValueSize rt m = invalidSize ↔ ¬ Accepted m := by
  rw [getMapValueSize_eq]
  constructor
  · intro h hacc
    rw [if_pos hacc] at h
    have hle := hacc.2
    rw [h] at hle
    exact absurd hle (by decide)
  · intro h
    rw [if_neg h]

variable {cell : Cell} {v : ValueMap} {front : List Cell} {k : Bytes}

namespace LruCache

/-- The keys and values of `nodeList_`, most recently used first. -/
def entries (s : LruCache) : List (Bytes × ValueMap) :=
  s.nodeList.map fun cell => (cell.node.key, cell.node.value)

/-- The iterator map holds exactly the listed keys, each at its own cell. -/
structure Coherent (s : LruCache) : Prop where
  keys : KeysNodup s.entries
  addrs : (s.nodeList.map Cell.addr).Nodup
  addr_lt : ∀ cell ∈ s.nodeList, cell.addr < s.nextAddr
  cache_iff : ∀ k it, s.cache[k]? = some it ↔
    ∃ cell ∈ s.nodeList, cell.addr = it ∧ cell.node.key = k

/-- `size_` is the stored bytes plus `slack`; the budget for storage is what
`slack` leaves of the capacity. -/
structure Charged (slack : Nat) (s : LruCache) : Prop extends Coherent s where
  accepted : ∀ e ∈ s.entries, Accepted e.2
  size_eq : s.size = slack + total mapBytes s.entries
  slack_le : slack ≤ s.capacity
  capacity_le : s.capacity ≤ maxSize

/-- Between operations the charged size is also within the capacity. -/
structure Inv (slack : Nat) (s : LruCache) : Prop extends Charged slack s where
  size_le : s.size ≤ s.capacity

/-- The bytes `Put` can keep: the capacity less what is charged without being stored. -/
def budget (s : LruCache) : Nat :=
  s.capacity - (s.size - total mapBytes s.entries)

theorem Inv.budget_eq {slack : Nat} {s : LruCache} (h : Inv slack s) :
    s.budget = s.capacity - slack := by
  have hsize := h.size_eq
  unfold budget
  omega

theorem inv_ofCapacity (capacity : Nat) : Inv 0 (ofCapacity capacity) where
  keys := nodup_nil
  addrs := nodup_nil
  addr_lt := by simp [ofCapacity]
  cache_iff := by simp [ofCapacity]
  accepted := by simp [entries, ofCapacity]
  size_eq := rfl
  slack_le := Nat.zero_le _
  capacity_le := Nat.min_le_left _ _
  size_le := Nat.zero_le _

theorem empty_eq_ofCapacity : empty = ofCapacity maxSize := by
  simp [empty, ofCapacity]

section Cells

variable {s : LruCache} {a b : Cell}

section

variable (h : Coherent s)
include h

theorem Coherent.key_eq_iff (ha : a ∈ s.nodeList)
    (hb : b ∈ s.nodeList) : a.node.key = b.node.key ↔ a = b := by
  have hkeys : (s.nodeList.map fun cell => cell.node.key).Nodup := by
    simpa only [KeysNodup, entries, map_map, Function.comp_def] using h.keys
  grind [inj_on_of_nodup_map]

theorem Coherent.addr_eq_iff (ha : a ∈ s.nodeList)
    (hb : b ∈ s.nodeList) : a.addr = b.addr ↔ a = b :=
  ⟨fun hk => inj_on_of_nodup_map h.addrs ha hb hk, fun hab => hab ▸ rfl⟩

theorem Coherent.deref_eq (hc : cell ∈ s.nodeList) : s.deref cell.addr = some cell.node := by
  unfold deref
  cases hf : s.nodeList.find? fun a => a.addr = cell.addr with
  | none =>
    grind
  | some a =>
    grind [@h.addr_eq_iff]

theorem Coherent.cache_eq_none_iff (k : Bytes) : s.cache[k]? = none ↔ ∀ e ∈ s.entries, e.1 ≠ k := by
  constructor
  · intro hnone e he hek
    obtain ⟨cell, hc, rfl⟩ := mem_map.mp he
    have hsome := (h.cache_iff k cell.addr).mpr ⟨cell, hc, rfl, hek⟩
    rw [hnone] at hsome
    cases hsome
  · intro hnot
    cases hl : s.cache[k]? with
    | none => rfl
    | some it =>
      obtain ⟨cell, hc, -, hk⟩ := (h.cache_iff k it).mp hl
      exact absurd hk (hnot _ (mem_map_of_mem hc))

/-- Erasing the cell at an address removes exactly the entry of its key. -/
theorem Coherent.eraseCell_entries (hc : cell ∈ s.nodeList) :
    (s.eraseCell cell.addr).entries = dropKey cell.node.key s.entries := by
  simp only [eraseCell, entries, dropKey, filter_map]
  congr 1
  apply filter_congr
  grind [@h.addr_eq_iff, @h.key_eq_iff]

end

theorem emplaceFront_entries (s : LruCache) (node : Node) :
    (s.emplaceFront node).entries = (node.key, node.value) :: s.entries := rfl

/-- A new head cell keeps the structures coherent if the list has no cell of
its key and every other key is mapped as before. -/
theorem emplaceFront_coherent {node : Node} (hkeys : KeysNodup s.entries)
    (haddrs : (s.nodeList.map Cell.addr).Nodup) (hlt : ∀ cell ∈ s.nodeList, cell.addr < s.nextAddr)
    (hfresh : ∀ e ∈ s.entries, e.1 ≠ node.key)
    (hcache : ∀ k it, k ≠ node.key → (s.cache[k]? = some it ↔
      ∃ cell ∈ s.nodeList, cell.addr = it ∧ cell.node.key = k)) :
    Coherent (s.emplaceFront node) := by
  constructor
  · rw [emplaceFront_entries]
    refine nodup_cons.mpr ⟨?_, hkeys⟩
    grind
  · refine nodup_cons.mpr ⟨?_, haddrs⟩
    grind
  · intro cell hc
    rcases mem_cons.mp hc with rfl | hc
    · exact Nat.lt_succ_self _
    · exact Nat.lt_succ_of_lt (hlt cell hc)
  · intro k it
    change (s.cache.insert node.key s.nextAddr)[k]? = some it ↔
      ∃ cell ∈ (⟨s.nextAddr, node⟩ : Cell) :: s.nodeList, cell.addr = it ∧ cell.node.key = k
    rw [FiniteMaps.getElem?_insert]
    by_cases hk : k = node.key
    · rw [if_pos hk]
      constructor
      · intro hit
        exact ⟨⟨s.nextAddr, node⟩, mem_cons_self, Option.some.inj hit, hk.symm⟩
      · rintro ⟨cell, hc, hca, hck⟩
        rcases mem_cons.mp hc with rfl | hc
        · exact congrArg some hca
        · exact absurd (hck.trans hk) (hfresh _ (mem_map_of_mem hc))
    grind

/-- `MoveNodeToHead` at a listed cell makes its entry the most recent one. -/
theorem Coherent.moveNodeToHead_spec (h : Coherent s) (hc : cell ∈ s.nodeList) :
    ∃ s', s.moveNodeToHead cell.addr = some s' ∧ Coherent s' ∧
      s'.entries = (cell.node.key, cell.node.value) :: dropKey cell.node.key s.entries ∧
      s'.size = s.size ∧ s'.capacity = s.capacity := by
  have hent := h.eraseCell_entries hc
  refine ⟨(s.eraseCell cell.addr).emplaceFront ⟨cell.node.key, cell.node.value⟩, ?_, ?_, ?_,
    rfl, rfl⟩
  · simp [moveNodeToHead, h.deref_eq hc]
  · apply emplaceFront_coherent
    · rw [hent]
      exact h.keys.sublist (dropKey_sublist _ _)
    · exact h.addrs.sublist (filter_sublist.map _)
    · intro a ha
      exact h.addr_lt a (mem_of_mem_filter ha)
    · intro e he
      rw [hent] at he
      exact (mem_dropKey.mp he).2
    · intro k it hk
      apply (h.cache_iff k it).trans
      constructor
      · rintro ⟨a, ha, haddr, hkey⟩
        refine ⟨a, mem_filter.mpr ⟨ha, ?_⟩, haddr, hkey⟩
        grind [@h.addr_eq_iff]
      · rintro ⟨a, ha, hrest⟩
        exact ⟨a, mem_of_mem_filter ha, hrest⟩
  · rw [emplaceFront_entries, hent]

/-- Dropping the last cell together with its key keeps the two in step. -/
theorem Coherent.dropLastCell (h : Coherent s) (hlist : s.nodeList = front ++ [cell]) (size : Nat) :
    Coherent { s with
      nodeList := front, cache := s.cache.erase cell.node.key, size := size } := by
  have hmem : ∀ a ∈ front, a ∈ s.nodeList := fun a ha => by simp [hlist, ha]
  have hcell : cell ∈ s.nodeList := by simp [hlist]
  have hnot : ∀ a ∈ front, a.node.key ≠ cell.node.key := by
    grind [@h.addrs, @h.key_eq_iff]
  have hfront : front.Sublist s.nodeList := by
    rw [hlist]
    exact sublist_append_left _ _
  constructor
  · exact h.keys.sublist (hfront.map _)
  · exact h.addrs.sublist (hfront.map _)
  · intro a ha
    exact h.addr_lt a (hmem a ha)
  · intro k it
    change (s.cache.erase cell.node.key)[k]? = some it ↔
      ∃ a ∈ front, a.addr = it ∧ a.node.key = k
    rw [FiniteMaps.getElem?_erase]
    by_cases hk : k = cell.node.key
    · grind
    · rw [if_neg hk, h.cache_iff k it]
      constructor
      · rintro ⟨a, ha, haddr, hak⟩
        rw [hlist, mem_append, mem_singleton] at ha
        rcases ha with ha | rfl
        · exact ⟨a, ha, haddr, hak⟩
        · exact absurd hak.symm hk
      · rintro ⟨a, ha, hrest⟩
        exact ⟨a, hmem a ha, hrest⟩

end Cells

section Accounting

variable (rt : Runtime) (c : Copy) {slack : Nat} {s : LruCache} {a b : Nat}

theorem sizeSub_add (h : a + b < 2 ^ 64) : sizeSub c (a + b) b = a := by
  cases c with
  | http => simp [sizeSub]
  | httpClient =>
    simp only [sizeSub]
    omega

theorem sizeAdd_eq (h : a + b < 2 ^ 64) : sizeAdd a b = a + b :=
  Nat.mod_eq_of_lt h

/-- `EraseTailNode` on a non-empty list drops the least recently used entry. -/
theorem Charged.eraseTailNode_spec (h : Charged slack s) (hbound : s.size < 2 ^ 64)
    (hlist : s.nodeList = front ++ [cell]) :
    Charged slack (s.eraseTailNode rt c) ∧
      (s.eraseTailNode rt c).nodeList = front ∧
      (s.eraseTailNode rt c).capacity = s.capacity ∧
      (s.eraseTailNode rt c).size ≤ s.size := by
  have hent : s.entries =
      front.map (fun a => (a.node.key, a.node.value)) ++ [(cell.node.key, cell.node.value)] := by
    simp [entries, hlist]
  have hacc : Accepted cell.node.value := h.accepted (cell.node.key, cell.node.value)
    (by simp [hent])
  have hsize : s.size = slack +
      total mapBytes (front.map fun a => (a.node.key, a.node.value)) +
        mapBytes cell.node.value := by
    simp only [h.size_eq, hent, total_append, total_cons, total_nil]
    omega
  have heq : s.eraseTailNode rt c =
      { s with
        nodeList := front
        cache := s.cache.erase cell.node.key
        size := slack + total mapBytes (front.map fun a => (a.node.key, a.node.value)) } := by
    have hvalid : ¬ getMapValueSize rt cell.node.value = invalidSize := by
      rw [getMapValueSize_eq_invalid_iff]
      exact not_not_intro hacc
    simp only [eraseTailNode, hlist, List.getLast?_concat, dropLast_concat]
    rw [if_neg (fun hboth => hvalid hboth.2), getMapValueSize_of_accepted rt hacc, hsize,
      sizeSub_add c (by omega)]
  rw [heq]
  refine ⟨?_, rfl, rfl, by simp only []; omega⟩
  constructor
  · exact h.dropLastCell hlist _
  · intro e he
    apply h.accepted e
    rw [hent]
    exact mem_append_left _ he
  · rfl
  · exact h.slack_le
  · exact h.capacity_le

/-- The eviction loop ends and keeps the longest prefix that the budget allows. -/
theorem Charged.evict_spec (h : Charged slack s) (hbound : s.size < 2 ^ 64) :
    ∃ s', s.evict rt c = some s' ∧ Inv slack s' ∧ s'.capacity = s.capacity ∧
      s'.entries = fit mapBytes (s.capacity - slack) s.entries := by
  unfold evict
  generalize hn : s.nodeList.length = n
  induction n generalizing s with
  | zero =>
    have hnil : s.nodeList = [] := length_eq_zero_iff.mp hn
    have hsize : s.size = slack := by simp [h.size_eq, entries, hnil]
    have hle : s.size ≤ s.capacity := by rw [hsize]; exact h.slack_le
    refine ⟨s, whileLoop_exit _ _ (by simpa [overCapacity] using hle) 0, ⟨h, hle⟩, rfl, ?_⟩
    simp [entries, hnil, fit]
  | succ n ih =>
    by_cases hover : s.capacity < s.size
    · obtain ⟨front, cell, hlist⟩ : ∃ front cell, s.nodeList = front ++ [cell] := by
        rcases eq_nil_or_concat s.nodeList with hnil | ⟨front, cell, hl⟩
        · simp [hnil] at hn
        · exact ⟨front, cell, by simpa using hl⟩
      obtain ⟨hcharged, hfront, hcap, hsz⟩ := h.eraseTailNode_spec rt c hbound hlist
      have hlen : (s.eraseTailNode rt c).nodeList.length = n := by
        rw [hfront]
        simpa [hlist] using hn
      obtain ⟨s', hrun, hinv, hcap', hent⟩ := ih hcharged (by omega) hlen
      refine ⟨s', ?_, hinv, hcap'.trans hcap, ?_⟩
      · rw [whileLoop_round _ _ (by simpa [overCapacity] using hover)]
        exact hrun
      grind [entries, fit_concat_of_lt, @h.size_eq, @h.slack_le]
    · have hle : s.size ≤ s.capacity := Nat.le_of_not_lt hover
      refine ⟨s, whileLoop_exit _ _ (by simpa [overCapacity] using hle) _, ⟨h, hle⟩, rfl, ?_⟩
      symm
      apply fit_eq_self
      have hsum := h.size_eq
      omega

section Assignment

variable (it : Nat) (value : ValueMap) (a : Cell)

@[simp] theorem assigned_addr :
    (if a.addr = it then { a with node := { a.node with value := value } } else a : Cell).addr =
      a.addr := by
  split <;> rfl

@[simp] theorem assigned_key :
    (if a.addr = it then { a with node := { a.node with value := value } } else a : Cell).node.key =
      a.node.key := by
  split <;> rfl

end Assignment

section

variable (h : Coherent s)
include h

/-- Assigning a value moves no cell and renames no key. -/
theorem Coherent.setValue_coherent (it : Nat) (value : ValueMap) :
    Coherent (s.setValue it value) := by
  have hkeys : (s.setValue it value).entries.map Prod.fst = s.entries.map Prod.fst := by
    simp [setValue, entries, Function.comp_def]
  have haddrs : (s.setValue it value).nodeList.map Cell.addr = s.nodeList.map Cell.addr := by
    simp [setValue, Function.comp_def]
  constructor
  · simpa only [KeysNodup, hkeys] using h.keys
  · simpa only [haddrs] using h.addrs
  · intro a ha
    obtain ⟨b, hb, rfl⟩ := mem_map.mp ha
    rw [assigned_addr]
    exact h.addr_lt b hb
  · intro k p
    apply (h.cache_iff k p).trans
    simp [setValue]

/-- Away from the assigned cell's key the entries stay as they are. -/
theorem Coherent.dropKey_setValue (hc : cell ∈ s.nodeList) (value : ValueMap) :
    dropKey cell.node.key (s.setValue cell.addr value).entries =
      dropKey cell.node.key s.entries := by
  simp only [setValue, entries, dropKey, filter_map, map_map, Function.comp_def,
    assigned_key]
  apply map_congr_left
  grind [@h.addr_eq_iff]

/-- Assigning the value of a listed cell rewrites the entry of its key. -/
theorem Coherent.setValue_spec (hc : cell ∈ s.nodeList) (value : ValueMap) :
    Coherent (s.setValue cell.addr value) ∧
      (⟨cell.addr, cell.node.key, value⟩ : Cell) ∈ (s.setValue cell.addr value).nodeList ∧
      dropKey cell.node.key (s.setValue cell.addr value).entries =
        dropKey cell.node.key s.entries := by
  refine ⟨h.setValue_coherent cell.addr value, ?_, h.dropKey_setValue hc value⟩
  exact mem_map.mpr ⟨cell, hc, by simp⟩

/-- A stored key: its iterator points to the cell that holds the listed value. -/
theorem Coherent.find_of_cache {it : Nat} (hit : s.cache[k]? = some it) :
    ∃ cell ∈ s.nodeList, cell.addr = it ∧ cell.node.key = k ∧
      find k s.entries = some cell.node.value := by
  obtain ⟨cell, hc, haddr, hkey⟩ := (h.cache_iff k it).mp hit
  refine ⟨cell, hc, haddr, hkey, h.keys.find_of_mem ?_⟩
  rw [← hkey]
  exact mem_map_of_mem (f := fun a : Cell => (a.node.key, a.node.value)) hc

end

/-- `Get` returns the stored value or the empty map, and makes the key the most recent. -/
theorem Inv.get_spec (h : Inv slack s) (k : Bytes) :
    ∃ s', s.get k = some ((find k s.entries).getD ∅, s') ∧ Inv slack s' ∧
      s'.capacity = s.capacity ∧ s'.entries = touch k s.entries := by
  cases hl : s.cache[k]? with
  | none =>
    grind [find, get, touch, @h.cache_eq_none_iff]
  | some it =>
    obtain ⟨cell, hc, rfl, rfl, hlook⟩ := h.find_of_cache hl
    obtain ⟨s', hrun, hcoh, hent, hsize, hcap⟩ := h.moveNodeToHead_spec hc
    have hsum : total mapBytes s'.entries = total mapBytes s.entries := by
      rw [hent, total_cons, h.keys.total_eq_of_find mapBytes hlook]
    refine ⟨s', by simp [get, hl, hlook, h.deref_eq hc, hrun], ?_, hcap, ?_⟩
    · refine ⟨⟨hcoh, ?_, ?_, ?_, ?_⟩, ?_⟩
      · intro e he
        rw [hent] at he
        rcases mem_cons.mp he with rfl | he
        · exact h.accepted (cell.node.key, cell.node.value) (mem_of_find hlook)
        · exact h.accepted e (mem_dropKey.mp he).1
      · rw [hsize, hsum]
        exact h.size_eq
      · rw [hcap]
        exact h.slack_le
      · rw [hcap]
        exact h.capacity_le
      · rw [hsize, hcap]
        exact h.size_le
    · rw [hent, touch, hlook]

theorem put_of_not_accepted (rt : Runtime) (c : Copy) (s : LruCache) (k : Bytes)
    (hv : ¬ Accepted v) : s.put rt c k v = some s := by
  rw [put, if_pos ((getMapValueSize_eq_invalid_iff rt v).mpr hv)]

variable (h : Inv slack s)
include h

theorem Inv.size_bound (hv : Accepted v) : s.size + mapBytes v < 2 ^ 64 := by
  have hsize := h.size_le
  have hcap := h.capacity_le
  have hbytes := hv.2
  grind [maxSize]

/-- A new key: the node is added in front and its bytes are charged. -/
theorem Inv.addNode_spec (hv : Accepted v) (hfresh : ∀ e ∈ s.entries, e.1 ≠ k) :
    Charged slack (s.addNode rt ⟨k, v⟩) ∧
      (s.addNode rt ⟨k, v⟩).entries = (k, v) :: s.entries ∧
      (s.addNode rt ⟨k, v⟩).size = s.size + mapBytes v := by
  have hsize : (s.addNode rt ⟨k, v⟩).size = s.size + mapBytes v := by
    change sizeAdd s.size (getMapValueSize rt v) = _
    rw [getMapValueSize_of_accepted rt hv, sizeAdd_eq (h.size_bound hv)]
  have hcoh : Coherent (s.emplaceFront ⟨k, v⟩) :=
    emplaceFront_coherent h.keys h.addrs h.addr_lt hfresh fun j it _ => h.cache_iff j it
  refine ⟨⟨⟨hcoh.keys, hcoh.addrs, hcoh.addr_lt, hcoh.cache_iff⟩, ?_, ?_, h.slack_le,
    h.capacity_le⟩, rfl, hsize⟩
  · intro e he
    rcases mem_cons.mp he with rfl | he
    · exact hv
    · exact h.accepted e he
  · rw [hsize, h.size_eq]
    change _ = slack + total mapBytes ((k, v) :: s.entries)
    simp only [total_cons]
    omega

/-- A stored key: overwriting and moving its cell charges the new bytes for the old. -/
theorem Inv.overwrite_spec (hc : cell ∈ s.nodeList) (hv : Accepted v) :
    ∃ u, (s.overwrite rt c cell.addr cell.node.value v).moveNodeToHead cell.addr = some u ∧
      Charged slack u ∧ u.capacity = s.capacity ∧ u.size < 2 ^ 64 ∧
      u.entries = (cell.node.key, v) :: dropKey cell.node.key s.entries := by
  have hmem : (cell.node.key, cell.node.value) ∈ s.entries :=
    mem_map_of_mem (f := fun a : Cell => (a.node.key, a.node.value)) hc
  have hold : Accepted cell.node.value := h.accepted _ hmem
  have hsplit := h.keys.total_eq_of_find mapBytes (h.keys.find_of_mem hmem)
  have hbound := h.size_bound hv
  have hsum := h.size_eq
  obtain ⟨hcoh, hnew, hdrop⟩ := h.setValue_spec hc v
  have hsize : (s.overwrite rt c cell.addr cell.node.value v).size =
      slack + total mapBytes (dropKey cell.node.key s.entries) + mapBytes v := by
    have hcharge : s.size = slack + total mapBytes (dropKey cell.node.key s.entries) +
        mapBytes cell.node.value := by omega
    change sizeAdd (sizeSub c s.size (getMapValueSize rt cell.node.value))
      (getMapValueSize rt v) = _
    rw [getMapValueSize_of_accepted rt hold, getMapValueSize_of_accepted rt hv, hcharge,
      sizeSub_add c (by omega), sizeAdd_eq (by omega)]
  have hcoht : Coherent (s.overwrite rt c cell.addr cell.node.value v) :=
    ⟨hcoh.keys, hcoh.addrs, hcoh.addr_lt, hcoh.cache_iff⟩
  obtain ⟨u, hmove, hcohu, hent, hsizeu, hcap⟩ := hcoht.moveNodeToHead_spec hnew
  have hentries : u.entries = (cell.node.key, v) :: dropKey cell.node.key s.entries := by
    rw [hent]
    exact congrArg (List.cons (cell.node.key, v)) hdrop
  have hcapu : u.capacity = s.capacity := hcap
  refine ⟨u, hmove, ⟨hcohu, ?_, ?_, ?_, ?_⟩, hcapu, ?_, hentries⟩
  · intro e he
    rw [hentries] at he
    rcases mem_cons.mp he with rfl | he
    · exact hv
    · exact h.accepted e (mem_dropKey.mp he).1
  · simp only [hsizeu, hsize, hentries, total_cons]
    omega
  · exact hcapu ▸ h.slack_le
  · exact hcapu ▸ h.capacity_le
  · rw [hsizeu, hsize]
    omega

/-- `Put` of an accepted value always returns; the list is the recency list with
the budget that the charged slack leaves. -/
theorem Inv.put_spec (k : Bytes) (hv : Accepted v) :
    ∃ s', s.put rt c k v = some s' ∧ Inv slack s' ∧ s'.capacity = s.capacity ∧
      s'.entries = Recency.put mapBytes (s.capacity - slack) s.entries (k, v) := by
  have hvalid : ¬ getMapValueSize rt v = invalidSize := by
    rw [getMapValueSize_eq_invalid_iff]
    exact not_not_intro hv
  cases hl : s.cache[k]? with
  | none =>
    have hfresh := (h.cache_eq_none_iff k).mp hl
    obtain ⟨hcharged, hent, hsize⟩ := h.addNode_spec rt hv hfresh
    obtain ⟨s', hrun, hinv, hcap, hent'⟩ :=
      hcharged.evict_spec rt c (hsize ▸ h.size_bound hv)
    refine ⟨s', ?_, hinv, hcap, ?_⟩
    · simp [put, hvalid, hl, hrun]
    · rw [hent', hent, Recency.put, dropKey_eq_self hfresh]
      rfl
  | some it =>
    obtain ⟨cell, hc, rfl, rfl, hfind⟩ := h.find_of_cache hl
    obtain ⟨u, hmove, hcharged, hcapu, hbound, hent⟩ :=
      h.overwrite_spec rt c hc hv
    obtain ⟨s', hrun, hinv, hcap, hent'⟩ := hcharged.evict_spec rt c hbound
    refine ⟨s', ?_, hinv, hcap.trans hcapu, ?_⟩
    · simp [put, hvalid, hl, h.deref_eq hc, hmove, hrun]
    · rw [hent', hent, hcapu, Recency.put]

/-- `Put` in general: a value that is not accepted changes nothing. -/
theorem Inv.put_total (k : Bytes) (v : ValueMap) :
    ∃ s', s.put rt c k v = some s' ∧ Inv slack s' ∧ s'.capacity = s.capacity ∧
      s'.entries = if Accepted v
        then Recency.put mapBytes (s.capacity - slack) s.entries (k, v) else s.entries := by
  by_cases hv : Accepted v
  · obtain ⟨s', hrun, hinv, hcap, hent⟩ := h.put_spec rt c k hv
    grind
  · exact ⟨s, put_of_not_accepted rt c s k hv, h, rfl, by rw [if_neg hv]⟩

end Accounting

end LruCache

end Netstack.HttpCache
