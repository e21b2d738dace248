import Netstack.HttpCache.LruRuns

/-!
# The cache as a JSON value

`WriteCacheToJsonValue` stores the position of a node under the extra name
`LRUIndex`, and `ReadCacheFromJsonValue` sorts by it. The two are inverse on
entries that survive C strings and do not use the extra name themselves; every
entry that is read is of this kind.
-/

namespace Netstack.HttpCache.LruCache

open Foundation Foundation.FiniteMaps Foundation.Recency Cell
open List hiding getElem?_insert

variable {slack : Nat} {s : LruCache}

/-- An entry that JSON text can hold unchanged: no NUL byte anywhere, and no
name that collides with the index. -/
def Portable (e : Bytes × ValueMap) : Prop :=
  (0 : UInt8) ∉ e.1 ∧ ∀ p ∈ e.2.toList, (0 : UInt8) ∉ p.1 ∧ (0 : UInt8) ∉ p.2 ∧ p.1 ≠ lruIndex

instance (e : Bytes × ValueMap) : Decidable (Portable e) :=
  inferInstanceAs (Decidable (_ ∧ _))

/-- A node list as the entries it puts. -/
def nodeEntries (nodes : List Node) : List (Bytes × ValueMap) :=
  nodes.map fun node => (node.key, node.value)

theorem acceptedEntries_eq_filter (nodes : List Node) :
    acceptedEntries nodes = (nodeEntries nodes).filter fun e => Accepted e.2 := rfl

variable (rt : Runtime)

section Reading

/-- Everything the inner loop has stored is free of NUL bytes. -/
theorem readValueItem_nulFree (items : List (Bytes × Json)) {n v : Bytes}
    (h : (items.foldl readValueItem ∅)[n]? = some v) : (0 : UInt8) ∉ n ∧ (0 : UInt8) ∉ v := by
  induction items using List.reverseRecOn with
  | nil => simp at h
  | append_singleton items item ih =>
    rw [foldl_append, foldl_cons, foldl_nil] at h
    obtain ⟨name, value⟩ := item
    cases value with
    | str t =>
      simp only [readValueItem, getElem?_insert] at h
      by_cases hn : n = cString name
      · rw [if_pos hn, Option.some.injEq] at h
        grind [zero_notMem_cString]
      · rw [if_neg hn] at h
        exact ih h
    | null => exact ih h
    | bool b => exact ih h
    | number t => exact ih h
    | arr l => exact ih h
    | obj l => exact ih h

theorem readKeyItem_nulFree {item : Bytes × Json} {node : Node} (h : readKeyItem item = some node) :
    (0 : UInt8) ∉ node.key ∧
      ∀ n v : Bytes, node.value[n]? = some v → (0 : UInt8) ∉ n ∧ (0 : UInt8) ∉ v := by
  obtain ⟨name, value⟩ := item
  cases value with
  | obj members =>
    simp only [readKeyItem] at h
    split at h
    · cases h
      exact ⟨zero_notMem_cString name, fun n v hv => readValueItem_nulFree members hv⟩
    · cases h
  | null => cases h
  | bool b => cases h
  | number t => cases h
  | str t => cases h
  | arr l => cases h

theorem mem_nodeVec {root : Json} {node : Node} (h : node ∈ nodeVec root) :
    ∃ item, readKeyItem item = some node := by
  cases root with
  | obj members =>
    obtain ⟨item, -, hitem⟩ := mem_filterMap.mp h
    exact ⟨item, hitem⟩
  | null => cases h
  | bool b => cases h
  | number t => cases h
  | str t => cases h
  | arr l => cases h

/-- Whatever the JSON value, the entries read from it are portable. -/
theorem nodesOfJson_portable (root : Json) :
    ∀ e ∈ nodeEntries (nodesOfJson rt root), Portable e := by
  intro e he
  obtain ⟨node, hnode, rfl⟩ := mem_map.mp he
  obtain ⟨hnode, -⟩ := mem_filter.mp hnode
  obtain ⟨raw, hraw, rfl⟩ := mem_map.mp hnode
  obtain ⟨item, hitem⟩ := mem_nodeVec ((rt.sort_perm indexGreater (nodeVec root)).mem_iff.mp hraw)
  obtain ⟨hkey, hvalue⟩ := readKeyItem_nulFree hitem
  refine ⟨hkey, ?_⟩
  grind

end Reading

section RoundTrip

/-- The node as the reader collects it, with its position under the extra name. -/
def withIndex (index : Nat) (node : Node) : Node :=
  { node with value := node.value.insert lruIndex (decimal index) }

theorem Portable.lruIndex_none {e : Bytes × ValueMap} (h : Portable e) : e.2[lruIndex]? = none := by
  cases hget : e.2[lruIndex]? with
  | none => rfl
  | some v =>
    have hmem := Std.ExtTreeMap.mem_toList_iff_getElem?_eq_some.mpr hget
    exact absurd rfl (h.2 _ hmem).2.2

theorem foldl_readValueItem_str (l : List (Bytes × Bytes))
    (h : ∀ p ∈ l, (0 : UInt8) ∉ p.1 ∧ (0 : UInt8) ∉ p.2) :
    (l.map fun p => (cString p.1, Json.str (cString p.2))).foldl readValueItem ∅ = collect l := by
  induction l using List.reverseRecOn with
  | nil => rfl
  | append_singleton l p ih =>
    obtain ⟨hname, hvalue⟩ := h p (by simp)
    have hl := ih fun q hq => h q (by simp [hq])
    simp only [map_append, map_cons, map_nil, foldl_append, foldl_cons,
      foldl_nil, hl, collect_concat, readValueItem, cString_of_notMem hname,
      cString_of_notMem hvalue]

theorem zero_notMem_decimal (n : Nat) : (0 : UInt8) ∉ decimal n :=
  notMem_decimal (by decide) n

theorem zero_notMem_lruIndex : (0 : UInt8) ∉ lruIndex := by decide

/-- Reading the item written for a portable node gives the node and its index. -/
theorem readKeyItem_nodeToJson (index : Nat) {node : Node} (h : Portable (node.key, node.value)) :
    readKeyItem (nodeToJson rt index node) = some (withIndex index node) := by
  have hitems : ∀ p ∈ rt.iterate node.value ++ [(lruIndex, decimal index)],
      (0 : UInt8) ∉ p.1 ∧ (0 : UInt8) ∉ p.2 := by
    intro p hp
    rcases mem_append.mp hp with hp | hp
    · obtain ⟨hname, hvalue, -⟩ := h.2 p ((rt.iterate_perm node.value).mem_iff.mp hp)
      exact ⟨hname, hvalue⟩
    · obtain rfl := mem_singleton.mp hp
      exact ⟨zero_notMem_lruIndex, zero_notMem_decimal index⟩
  have hmap : (rt.iterate node.value).map (fun p => (cString p.1, Json.str (cString p.2))) ++
      [(lruIndex, Json.str (decimal index))] =
        (rt.iterate node.value ++ [(lruIndex, decimal index)]).map
          fun p => (cString p.1, Json.str (cString p.2)) := by
    have hindex := cString_of_notMem (zero_notMem_decimal index)
    have hname := cString_of_notMem zero_notMem_lruIndex
    simp only [map_append, map_cons, map_nil, hindex, hname]
  have hvalue : collect (rt.iterate node.value ++ [(lruIndex, decimal index)]) =
      node.value.insert lruIndex (decimal index) :=
    (collect_concat _ _).trans (by rw [collect_of_perm (rt.iterate_perm node.value)])
  simp only [nodeToJson, readKeyItem, hmap, foldl_readValueItem_str _ hitems, hvalue,
    Std.ExtTreeMap.mem_insert_self, if_true, cString_of_notMem h.1, withIndex]

theorem nodeVec_writeCacheToJsonValue (h : ∀ e ∈ s.entries, Portable e) :
    nodeVec (s.writeCacheToJsonValue rt) =
      (s.nodeList.map node).zipIdx.map fun p => withIndex p.2 p.1 := by
  have hitems : ∀ p ∈ (s.nodeList.map node).zipIdx,
      readKeyItem (nodeToJson rt p.2 p.1) = some (withIndex p.2 p.1) := by
    rintro ⟨node, index⟩ hp
    obtain ⟨cell, hcell, rfl⟩ := mem_map.mp (fst_mem_of_mem_zipIdx hp)
    exact readKeyItem_nodeToJson rt index (h _ (mem_map_of_mem hcell))
  calc
    nodeVec (s.writeCacheToJsonValue rt) = (s.nodeList.map node).zipIdx.filterMap
        fun p => readKeyItem (nodeToJson rt p.2 p.1) := by
      simp only [nodeVec, writeCacheToJsonValue, filterMap_map, Function.comp_def]
    _ = (s.nodeList.map node).zipIdx.filterMap fun p => some (withIndex p.2 p.1) :=
      filterMap_congr hitems
    _ = _ := congrFun filterMap_eq_map' _

theorem indexGreater_weakOrder : IsStrictWeakOrder Node (fun a b => indexGreater a b = true) where
  irrefl a := by simp [indexGreater]
  trans a b c := by
    simp only [indexGreater, decide_eq_true_eq]
    intro hab hbc
    exact lt_trans hbc hab
  incomp_trans a b c := by
    simp only [indexGreater, decide_eq_true_eq]
    omega

theorem strtol_withIndex {index : Nat} (node : Node) (h : index ≤ longMax) :
    strtol ((withIndex index node).value.getD lruIndex []) = index := by
  rw [withIndex, Std.ExtTreeMap.getD_insert_self]
  exact strtol_decimal h

/-- Sorting by index undoes the numbering: the least recent node comes first. -/
theorem sort_withIndex (nodes : List Node) (hlen : nodes.length ≤ longMax) :
    rt.sort indexGreater (nodes.zipIdx.map fun p => withIndex p.2 p.1) =
      (nodes.zipIdx.map fun p => withIndex p.2 p.1).reverse := by
  have hindex : ∀ p ∈ nodes.zipIdx,
      strtol ((withIndex p.2 p.1).value.getD lruIndex []) = p.2 := by
    rintro ⟨node, index⟩ hp
    have hlt := snd_lt_of_mem_zipIdx hp
    exact strtol_withIndex node (by omega)
  have hanti : ∀ a b, a ∈ rt.sort indexGreater (nodes.zipIdx.map fun p => withIndex p.2 p.1) →
      b ∈ (nodes.zipIdx.map fun p => withIndex p.2 p.1).reverse →
      indexGreater b a = false → indexGreater a b = false → a = b := by
    intro a b ha hb hab hba
    obtain ⟨p, hp, rfl⟩ := mem_map.mp ((rt.sort_perm indexGreater _).mem_iff.mp ha)
    obtain ⟨q, hq, rfl⟩ := mem_map.mp (mem_reverse.mp hb)
    simp only [indexGreater, hindex p hp, hindex q hq, decide_eq_false_iff_not] at hab hba
    have hpq : p.2 = q.2 := by omega
    have hp' := mem_zipIdx_iff_getElem?.mp hp
    have hq' := mem_zipIdx_iff_getElem?.mp hq
    have hnode : p.1 = q.1 := Option.some.inj (hp'.symm.trans (hpq ▸ hq'))
    rw [hpq, hnode]
  have hsorted : ((nodes.zipIdx.map fun p => withIndex p.2 p.1).reverse).Pairwise
      fun a b => indexGreater b a = false := by
    have hrange : (nodes.zipIdx.map Prod.snd).Pairwise (· ≤ ·) := by
      rw [zipIdx_map_snd]
      exact pairwise_le_range'
    apply pairwise_reverse.mpr
    apply pairwise_map.mpr
    apply (pairwise_map.mp hrange).imp_of_mem
    intro p q hp hq hle
    simp only [indexGreater, hindex p hp, hindex q hq, decide_eq_false_iff_not]
    omega
  exact List.Perm.eq_of_pairwise hanti (rt.sort_sorted indexGreater _ indexGreater_weakOrder)
    hsorted ((rt.sort_perm indexGreater _).trans (reverse_perm _).symm)

/-- Reading back what was written puts the stored nodes again, least recent first. -/
theorem nodesOfJson_writeCacheToJsonValue (hportable : ∀ e ∈ s.entries, Portable e)
    (haccepted : ∀ e ∈ s.entries, Accepted e.2) (hlen : s.nodeList.length ≤ longMax) :
    nodesOfJson rt (s.writeCacheToJsonValue rt) = (s.nodeList.map node).reverse := by
  have hlen' : (s.nodeList.map node).length ≤ longMax := by simpa using hlen
  have herase : (s.nodeList.map node).zipIdx.map
      (fun p => ({ withIndex p.2 p.1 with value := (withIndex p.2 p.1).value.erase lruIndex } :
        Node)) = s.nodeList.map node := by
    conv_rhs => rw [← zipIdx_map_fst 0 (s.nodeList.map node)]
    apply map_congr_left
    rintro ⟨node, index⟩ hp
    obtain ⟨cell, hcell, rfl⟩ := mem_map.mp (fst_mem_of_mem_zipIdx hp)
    have hnone := (hportable _ (mem_map_of_mem hcell)).lruIndex_none
    simp only [withIndex, erase_insert_of_none _ hnone]
  unfold nodesOfJson
  rw [nodeVec_writeCacheToJsonValue rt hportable, sort_withIndex rt _ hlen', map_reverse,
    map_map]
  simp only [Function.comp_def, herase]
  apply filter_eq_self.mpr
  intro node hnode
  obtain ⟨cell, hcell, rfl⟩ := mem_map.mp (mem_reverse.mp hnode)
  have hpos : 1 ≤ mapBytes cell.node.value := (haccepted _ (mem_map_of_mem hcell)).1
  cases hempty : cell.node.value.isEmpty with
  | false => rfl
  | true =>
    have hnil : cell.node.value = ∅ := Std.ExtTreeMap.isEmpty_iff.mp hempty
    rw [hnil] at hpos
    exact absurd hpos (by decide)

/-- What is written is an object of objects of C strings. -/
theorem writeCacheToJsonValue_isPage (s : LruCache) : (s.writeCacheToJsonValue rt).IsPage := by
  intro item hitem
  obtain ⟨⟨node, index⟩, -, rfl⟩ := mem_map.mp hitem
  refine ⟨zero_notMem_cString node.key, _, rfl, ?_⟩
  grind [zero_notMem_cString, zero_notMem_lruIndex, zero_notMem_decimal]

/-- A merge puts exactly the listed entries, least recent first. -/
theorem Charged.acceptedEntries_reverse (h : Charged slack s) :
    acceptedEntries (s.nodeList.map node).reverse = s.entries.reverse := by
  have hnodes : nodeEntries (s.nodeList.map node).reverse = s.entries.reverse := by
    simp only [nodeEntries, entries, map_reverse, map_map, Function.comp_def]
  rw [acceptedEntries_eq_filter, hnodes]
  apply filter_eq_self.mpr
  intro e he
  simpa using h.accepted e (mem_reverse.mp he)

/-- Every stored value has a byte, so the list is no longer than its size. -/
theorem Inv.length_le (h : Inv slack s) : s.nodeList.length ≤ longMax := by
  have hbytes : s.entries.length ≤ total mapBytes s.entries := by
    have hone := card_nsmul_le_sum (s.entries.map fun e => mapBytes e.2) 1 (by
      intro n hn
      obtain ⟨e, he, rfl⟩ := mem_map.mp hn
      exact (h.accepted e he).1)
    simpa [total] using hone
  have hlen : s.entries.length = s.nodeList.length := length_map _
  grind [maxSize, longMax, @h.size_eq, @h.size_le, @h.capacity_le]

/-- The entries put when a cache reads back what another has written. -/
theorem Inv.acceptedEntries_written (h : Inv slack s) (hportable : ∀ e ∈ s.entries, Portable e) :
    acceptedEntries (nodesOfJson rt (s.writeCacheToJsonValue rt)) = s.entries.reverse := by
  rw [nodesOfJson_writeCacheToJsonValue rt hportable h.accepted h.length_le]
  exact h.toCharged.acceptedEntries_reverse

/-- A cache of the `Http` copy that is written to JSON and read into an empty one comes back, with
its entries in their order and with its size. -/
theorem http_json_round_trip (capacity : Nat) (ops : List Op)
    (hs : run rt .http ops (ofCapacity capacity) = some s)
    (hportable : ∀ e ∈ s.entries, Portable e) :
    ∃ s', (ofCapacity capacity).readCacheFromJsonValue rt .http (s.writeCacheToJsonValue rt) =
      some s' ∧ s'.entries = s.entries ∧ s'.size = s.size := by
  obtain ⟨t, ht, hinv, hcap, -⟩ := http_run_inv rt capacity ops
  obtain rfl := Option.some.inj (hs.symm.trans ht)
  obtain ⟨s', hs', hinv', -, hent⟩ := (inv_ofCapacity capacity).putNodes_spec rt .http
    (nodesOfJson rt (s.writeCacheToJsonValue rt))
  have hfits : total mapBytes s.entries ≤ (ofCapacity capacity).capacity - 0 := by
    have hsize := hinv.size_eq
    have hle := hinv.size_le
    rw [hcap] at hle
    exact (Nat.zero_add _ ▸ hsize).symm.trans_le hle
  have hsame : s'.entries = s.entries := by
    rw [hent, hinv.acceptedEntries_written rt hportable]
    exact putAll_reverse mapBytes _ hinv.keys hfits
  exact ⟨s', hs', hsame, by rw [hinv'.size_eq, hinv.size_eq, hsame]⟩

/-- Three entries are put, and the oldest of them is read. -/
def sampleUse : List Op :=
  let value (text : Bytes) : ValueMap := (∅ : ValueMap).insert (ascii "n") text
  [.put (ascii "a") (value (ascii "v")), .put (ascii "b") (value (ascii "w")),
    .put (ascii "c") (value (ascii "v")), .get (ascii "a")]

theorem sampleUse_round_trip :
    ∃ s s', run .ordered .http sampleUse (ofCapacity 100) = some s ∧
      s.entries.map Prod.fst = [ascii "a", ascii "c", ascii "b"] ∧
      (ofCapacity 100).readCacheFromJsonValue .ordered .http (s.writeCacheToJsonValue .ordered) =
        some s' ∧ s'.entries = s.entries ∧ s'.size = s.size := by
  obtain ⟨s, hs, -, -, hent⟩ := http_run_inv .ordered 100 sampleUse
  obtain ⟨s', hs', hsame, hsize⟩ :=
    http_json_round_trip .ordered 100 sampleUse hs (by rw [hent]; decide)
  exact ⟨s, s', hs, by rw [hent]; decide, hs', hsame, hsize⟩

end RoundTrip

end Netstack.HttpCache.LruCache
