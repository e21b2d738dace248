import Netstack.CApi.HashMap

/-!
# The hash map refines a finite map

The invariant joins the places of the entries, the shape of the capacity and the
count of the chains. Each operation keeps it and changes the content as the
operation of a finite map does; a resize changes no content.

## Implementation notes

A key of `2 ^ 32` bytes or more has no hash. All results are about shorter keys.
-/

namespace Netstack.CApi

open Foundation Foundation.Execution Foundation.Recency List Option
  Netstack.Foundation.Chains

variable {V : Type} {sign : CharSign}

/-- The length of the key can be counted in 32 bits. -/
def CString.Short (key : CString) : Prop := key.bytes.length < 2 ^ 32

instance (key : CString) : Decidable key.Short :=
  inferInstanceAs (Decidable (key.bytes.length < 2 ^ 32))

theorem hashLoop_returns {key : CString} (hshort : key.Short) (n : Nat) {s : HashLoop}
    (hleft : s.i.toNat + n = key.bytes.length) :
    (whileLoop (HashLoop.cond key) (HashLoop.body sign key) n s).isSome := by
  induction n generalizing s with
  | zero =>
    grind [HashLoop.cond, whileLoop_exit]
  | succ n ih =>
    have hround : HashLoop.cond key s = true := decide_eq_true (by omega)
    have hshort' : key.bytes.length < 2 ^ 32 := hshort
    have hnext : (s.i + 1).toNat = s.i.toNat + 1 := by
      rw [UInt32.toNat_add]
      exact Nat.mod_eq_of_lt (by simp; omega)
    rw [whileLoop_round _ _ hround]
    apply ih
    change (s.i + 1).toNat + n = key.bytes.length
    omega

/-- With a longer key the counter never reaches the length. -/
theorem hashLoop_diverges {key : CString} (hlong : ¬ key.Short) (n : Nat) (s : HashLoop) :
    whileLoop (HashLoop.cond key) (HashLoop.body sign key) n s = none := by
  have hround : ∀ s : HashLoop, HashLoop.cond key s = true := by
    intro s
    exact decide_eq_true (lt_of_lt_of_le s.i.toNat_lt (Nat.le_of_not_lt hlong))
  induction n generalizing s with
  | zero => rw [whileLoop, if_pos (hround s)]
  | succ n ih =>
    rw [whileLoop_round _ _ (hround s)]
    exact ih _

theorem netstackHash_isSome_iff (sign : CharSign) (key : CString) (capacity : Nat) :
    (netstackHash sign key capacity).isSome ↔ key.Short := by
  rw [netstackHash, isSome_map]
  constructor
  · grind [hashLoop_diverges]
  · intro hshort
    apply hashLoop_returns hshort
    exact Nat.zero_add _

theorem netstackHash_lt {key : CString} {capacity i : Nat} (hpos : 0 < capacity)
    (h : netstackHash sign key capacity = some i) : i < capacity := by
  obtain ⟨s, -, rfl⟩ := map_eq_some_iff.mp h
  exact Nat.mod_lt _ hpos

theorem netstackHash_eq_none {key : CString} (hlong : ¬ key.Short) (capacity : Nat) :
    netstackHash sign key capacity = none := by
  rw [netstackHash, hashLoop_diverges hlong]
  rfl

/-- Every key is in the chain of its hash and nowhere else, once; the capacity is a
doubling of the first one; the chains that are not empty are counted. -/
structure HashMap.WellFormed (sign : CharSign) (map : HashMap V) : Prop where
  doubled : ∃ j, map.capacity = defaultMapCapacity * 2 ^ j
  bounded : map.capacity ≤ maxMapCapacity
  length : map.entries.length = map.capacity
  size : map.size = occupied map.entries
  placed : Placed (fun key => netstackHash sign key map.capacity) map.entries

/-- What the map has under a key. -/
def HashMap.content (sign : CharSign) (map : HashMap V) (key : CString) : Option (Option V) :=
  Chains.content (fun key => netstackHash sign key map.capacity) map.entries key

namespace HashMap.WellFormed

variable {map : HashMap V}

variable (hwf : map.WellFormed sign)
include hwf

theorem capacity_pos : 0 < map.capacity := by
  obtain ⟨j, hj⟩ := hwf.doubled
  rw [hj]
  exact Nat.mul_pos (by decide) (Nat.two_pow_pos j)

theorem valid : netstackInvalidMap map = false := by
  obtain ⟨j, hj⟩ := hwf.doubled
  have hlow : defaultMapCapacity ≤ map.capacity := by
    rw [hj]
    exact Nat.le_mul_of_pos_right _ (Nat.two_pow_pos j)
  rw [netstackInvalidMap, Bool.or_eq_false_iff]
  grind [@hwf.bounded]

/-- A short key has a place in the table. -/
theorem exists_hash {key : CString} (hshort : key.Short) :
    ∃ i < map.entries.length, netstackHash sign key map.capacity = some i := by
  obtain ⟨i, hi⟩ := isSome_iff_exists.mp
    ((netstackHash_isSome_iff sign key map.capacity).mpr hshort)
  exact ⟨i, hwf.length ▸ netstackHash_lt hwf.capacity_pos hi, hi⟩

/-- The keys of a map are short. -/
theorem short_of_mem {e : Entry V} (he : e ∈ map.entries.flatten) : e.1.Short := by
  obtain ⟨chain, hchain, hin⟩ := mem_flatten.mp he
  obtain ⟨i, hi, rfl⟩ := getElem_of_mem hchain
  have hhome := hwf.placed.home i e (by rw [chainAt, getD_eq_getElem _ _ hi]; exact hin)
  grind [netstackHash_isSome_iff]

end HashMap.WellFormed

theorem createMap_wellFormed (sign : CharSign) :
    ∃ map : HashMap V, createMap .ample = some map ∧ map.WellFormed sign ∧
      ∀ key, map.content sign key = none := by
  refine ⟨_, rfl, ⟨⟨0, rfl⟩, (by decide : defaultMapCapacity ≤ maxMapCapacity),
    length_replicate, ?_, placed_replicate _ _⟩, ?_⟩
  · exact (occupied_replicate _).symm
  · intro key
    rw [HashMap.content, Chains.content]
    cases netstackHash sign key defaultMapCapacity with
    | none => rfl
    | some i =>
      rw [bind_some, chainAt_replicate]
      rfl

section Resize

theorem rehashRound_eq_place (n : Nat) :
    rehashRound (V := V) sign n = place fun key => netstackHash sign key n := by
  funext s e
  rw [rehashRound, place]
  cases netstackHash sign e.1 n with
  | none => rfl
  | some i =>
    simp only [bind_eq_bind, bind_some, map_some]
    cases chainAt s.1 i with
    | nil => rfl
    | cons head rest => rfl

/-- The loop over the chains of the old table is one loop over its entries. -/
theorem foldlM_rehashEntry (n : Nat) (chains : List (List (Entry V)))
    (s : List (List (Entry V)) × Nat) :
    chains.foldlM
      (fun s chain =>
        if chain = [] then pure s
        else do
          let r ← rehashEntry sign chain n s.1
          pure (r.1, s.2 + r.2)) s =
      chains.flatten.foldlM (place fun key => netstackHash sign key n) s := by
  induction chains generalizing s with
  | nil => rfl
  | cons chain chains ih =>
    rw [foldlM_cons, flatten_cons, foldlM_append]
    have hchain : (if chain = [] then pure s
        else do
          let r ← rehashEntry sign chain n s.1
          pure (r.1, s.2 + r.2)) =
        chain.foldlM (place fun key => netstackHash sign key n) s := by
      split_ifs with hnil
      · rw [hnil]
        rfl
      · rw [rehashEntry, rehashRound_eq_place, foldlM_place_count _ chain s.1 s.2,
          map_eq_bind]
        rfl
    rw [hchain]
    congr 1
    funext s'
    exact ih s'

theorem double_le_max {capacity j : Nat} (hdoubled : capacity = defaultMapCapacity * 2 ^ j)
    (hless : capacity < maxMapCapacity) : capacity * 2 ≤ maxMapCapacity := by
  have hpow : 2 ^ j < 2 ^ 10 := by
    rw [hdoubled, defaultMapCapacity, maxMapCapacity] at hless
    omega
  have hj : j < 10 := (Nat.pow_lt_pow_iff_right Nat.one_lt_two).mp hpow
  calc capacity * 2 = defaultMapCapacity * 2 ^ (j + 1) := by
        rw [hdoubled, Nat.pow_succ, Nat.mul_assoc]
    _ ≤ defaultMapCapacity * 2 ^ 10 :=
        Nat.mul_le_mul_left _ (Nat.pow_le_pow_right Nat.two_pos hj)

/-- A resize that takes place keeps the invariant and the content. -/
theorem netstackResizeMap_spec (heap : Heap) {map : HashMap V} (hwf : map.WellFormed sign) :
    ∃ code map', netstackResizeMap sign heap map = some (code, map') ∧ map'.WellFormed sign ∧
      ∀ key, map'.content sign key = map.content sign key := by
  rw [netstackResizeMap]
  split_ifs with hmax hcalloc
  · exact ⟨_, map, rfl, hwf, fun _ => rfl⟩
  · exact ⟨_, map, rfl, hwf, fun _ => rfl⟩
  · have hnew : 0 < map.capacity * 2 := Nat.mul_pos hwf.capacity_pos Nat.two_pos
    have hrange : ∀ e ∈ map.entries.flatten,
        ∃ i < map.capacity * 2, netstackHash sign e.1 (map.capacity * 2) = some i := by
      intro e he
      obtain ⟨i, hi⟩ := isSome_iff_exists.mp
        ((netstackHash_isSome_iff sign e.1 (map.capacity * 2)).mpr (hwf.short_of_mem he))
      exact ⟨i, netstackHash_lt hnew hi, hi⟩
    have hempty : (List.replicate (map.capacity * 2) ([] : List (Entry V))).flatten = [] :=
      flatten_replicate_nil
    obtain ⟨t, hrun, hlength, hplaced, hperm⟩ := foldlM_place
      (fun key => netstackHash sign key (map.capacity * 2)) map.entries.flatten hrange
      (t := List.replicate (map.capacity * 2) []) length_replicate (placed_replicate _ _)
      (by rw [hempty, append_nil]; exact hwf.placed.nodup)
    rw [hempty, append_nil] at hperm
    rw [occupied_replicate] at hrun
    refine ⟨.ok, ⟨t, occupied t, map.capacity * 2⟩, ?_, ⟨?_, ?_, hlength, rfl, hplaced⟩, ?_⟩
    · simp only [foldlM_rehashEntry, hrun]
      rfl
    · obtain ⟨j, hj⟩ := hwf.doubled
      exact ⟨j + 1, by rw [hj, Nat.pow_succ, Nat.mul_assoc]⟩
    · obtain ⟨j, hj⟩ := hwf.doubled
      exact double_le_max hj (Nat.lt_of_not_le hmax)
    · intro key
      apply content_eq_of_perm hwf.placed hplaced hperm
      rw [Bool.eq_iff_iff, netstackHash_isSome_iff, netstackHash_isSome_iff]

end Resize

section Operations

variable (heap : Heap) {map : HashMap V} {key : CString} {i : Nat}

/-- What storing a value does: it keeps the invariant, and either the key has the value
and nothing else has changed, or memory was short and nothing has. -/
structure Stores (sign : CharSign) (heap : Heap) (map : HashMap V) (key : CString)
    (value : Option V) (r : ResultCode × HashMap V) : Prop where
  wellFormed : r.2.WellFormed sign
  stored : r.1 = .ok → ∀ j, r.2.content sign j =
    if j = key then some value else map.content sign j
  failed : r.1 ≠ .ok → ∀ j, r.2.content sign j = map.content sign j
  ample : heap = .ample → r.1 = .ok

theorem Stores.of_ok {value : Option V} {map' : HashMap V} (hwf : map'.WellFormed sign)
    (hcontent : ∀ j, map'.content sign j = if j = key then some value else map.content sign j) :
    Stores sign heap map key value (.ok, map') :=
  ⟨hwf, fun _ => hcontent, fun hne => absurd rfl hne, fun _ => rfl⟩

section

variable (hwf : map.WellFormed sign)
include hwf

/-- Replacing a chain of a well-formed map by a chain that keeps the places. -/
theorem HashMap.WellFormed.set_chain {c : List (Entry V)} {size : Nat}
    (hplaced : Placed (fun key => netstackHash sign key map.capacity) (map.entries.set i c))
    (hsize : size = occupied (map.entries.set i c)) :
    HashMap.WellFormed sign { map with entries := map.entries.set i c, size := size } :=
  ⟨hwf.doubled, hwf.bounded, by rw [length_set, hwf.length], hsize, hplaced⟩

theorem Stores.outOfMemory (hfail : heap.malloc = false ∨ heap.strdup = false) (value : Option V) :
    Stores sign heap map key value (.outOfMemory, map) := by
  refine ⟨hwf, fun hok => ResultCode.noConfusion hok, fun _ _ => rfl, fun hample => ?_⟩
  rw [hample] at hfail
  exact absurd hfail (by decide)

theorem HashMap.WellFormed.set_unlink (hi : i < map.entries.length) {size : Nat}
    (hsize : size = occupied (map.entries.set i (unlink key (chainAt map.entries i)))) :
    HashMap.WellFormed sign
      { map with
        entries := map.entries.set i (unlink key (chainAt map.entries i))
        size := size } :=
  hwf.set_chain (hwf.placed.set_unlink hi key) hsize

end

/-- What deleting a key does. -/
structure Deletes (sign : CharSign) (map : HashMap V) (key : CString)
    (r : ResultCode × HashMap V) : Prop where
  code : r.1 = .ok
  wellFormed : r.2.WellFormed sign
  content : ∀ j, r.2.content sign j = if j = key then none else map.content sign j

section

variable (hi : i < map.entries.length)
  (hk : netstackHash sign key map.capacity = some i)
include hi hk

theorem HashMap.WellFormed.content_set_link
    (hnew : find key (chainAt map.entries i) = none) (value : Option V) (size : Nat) (j : CString) :
    HashMap.content sign
      { map with
        entries := map.entries.set i (link (key, value) (chainAt map.entries i))
        size := size } j = if j = key then some value else map.content sign j :=
  Chains.content_set_link (h := fun key => netstackHash sign key map.capacity) hi
    (e := (key, value)) hk hnew j

variable (hwf : map.WellFormed sign)
include hwf

/-- An entry of a new key is linked into its chain. -/
theorem HashMap.WellFormed.set_link
    (hnew : find key (chainAt map.entries i) = none) (value : Option V) (size : Nat)
    (hsize : size = if (chainAt map.entries i).isEmpty then map.size + 1 else map.size) :
    HashMap.WellFormed sign
      { map with
        entries := map.entries.set i (link (key, value) (chainAt map.entries i))
        size := size } := by
  apply hwf.set_chain
  · exact (hwf.placed.set_link hi (e := (key, value)) hk hnew).1
  · rw [occupied_set_link hi, hsize, hwf.size]

theorem putIntoChain_stores (value : Option V) :
    Stores sign heap map key value (putIntoChain heap map i key value) := by
  rw [putIntoChain]
  cases hchain : chainAt map.entries i with
  | nil =>
    have hnew : find key (chainAt map.entries i) = none := by
      rw [hchain]
      rfl
    by_cases hfail : heap.malloc = false ∨ heap.strdup = false
    · rw [if_pos hfail]
      exact Stores.outOfMemory heap hwf hfail value
    · have hwf' := hwf.set_link hi hk hnew value (map.size + 1) (by rw [hchain]; rfl)
      have hcontent := HashMap.WellFormed.content_set_link hi hk hnew value (map.size + 1)
      rw [hchain] at hwf' hcontent
      rw [if_neg hfail]
      exact Stores.of_ok heap hwf' hcontent
  | cons head rest =>
    cases hassign : assign key value (head :: rest) with
    | some chain =>
      simp only [hassign]
      rw [← hchain] at hassign
      apply Stores.of_ok
      · apply hwf.set_chain (hwf.placed.set_assign hi hassign)
        rw [occupied_set_eq hi (isEmpty_assign hassign)]
        exact hwf.size
      · intro j
        exact content_set_assign (h := fun key => netstackHash sign key map.capacity) hi hk
          hassign j
    | none =>
      have hnew : find key (chainAt map.entries i) = none := by
        rw [hchain]
        exact assign_eq_none_iff.mp hassign
      by_cases hfail : heap.malloc = false ∨ heap.strdup = false
      · simp only [hassign, if_pos hfail]
        exact Stores.outOfMemory heap hwf hfail value
      · have hwf' := hwf.set_link hi hk hnew value map.size (by rw [hchain]; rfl)
        have hcontent := HashMap.WellFormed.content_set_link hi hk hnew value map.size
        rw [hchain] at hwf' hcontent
        simp only [hassign, if_neg hfail]
        exact Stores.of_ok heap hwf' hcontent

theorem HashMap.WellFormed.content_set_unlink (size : Nat) (j : CString) :
    HashMap.content sign
      { map with
        entries := map.entries.set i (unlink key (chainAt map.entries i))
        size := size } j = if j = key then none else map.content sign j :=
  Chains.content_set_unlink hi hwf.placed hk j

theorem deleteFromChain_deletes : Deletes sign map key (deleteFromChain map i key) := by
  rw [deleteFromChain]
  cases hchain : chainAt map.entries i with
  | nil =>
    refine ⟨rfl, hwf, fun j => ?_⟩
    split_ifs with hj
    · rw [hj, HashMap.content, Chains.content, hk, bind_some, hchain]
      rfl
    · rfl
  | cons head rest =>
    by_cases hhead : head.1 = key
    · have hunlink : unlink key (chainAt map.entries i) = rest := by
        rw [hchain, unlink, if_pos hhead]
      have hset := occupied_set (c := rest) hi
      have hsize : (if rest.isEmpty then map.size - 1 else map.size) =
          occupied (map.entries.set i (unlink key (chainAt map.entries i))) := by
        rw [hchain] at hset
        rw [hunlink, hwf.size]
        cases hempty : rest.isEmpty with
        | true =>
          grind
        | false =>
          grind
      have hwf' := hwf.set_unlink hi hsize
      have hcontent := hwf.content_set_unlink hi hk
        (if rest.isEmpty then map.size - 1 else map.size)
      rw [hunlink] at hwf' hcontent
      simp only [if_pos hhead]
      exact ⟨rfl, hwf', hcontent⟩
    · have hunlink : unlink key (chainAt map.entries i) = head :: unlink key rest := by
        rw [hchain, unlink, if_neg hhead]
      have hsize : map.size =
          occupied (map.entries.set i (unlink key (chainAt map.entries i))) := by
        rw [hunlink, occupied_set_eq hi (by rw [hchain]; rfl)]
        exact hwf.size
      have hwf' := hwf.set_unlink hi hsize
      have hcontent := hwf.content_set_unlink hi hk map.size
      rw [hunlink] at hwf' hcontent
      simp only [if_neg hhead]
      exact ⟨rfl, hwf', hcontent⟩

end

variable (hwf : map.WellFormed sign)
include hwf

/-- The entry is stored in the map, after a resize of the table if the count of chains
has reached the capacity. -/
theorem putMapEntry_stores (hshort : key.Short) (value : Option V) :
    ∃ r, putMapEntry sign heap map (some key) value = some r ∧
      Stores sign heap map key value r := by
  have hroom : ∃ map₁ : HashMap V,
      (if map.capacity ≤ map.size then (netstackResizeMap sign heap map).map Prod.snd
        else some map) = some map₁ ∧ map₁.WellFormed sign ∧
        ∀ j, map₁.content sign j = map.content sign j := by
    by_cases hfull : map.capacity ≤ map.size
    · obtain ⟨code, map₁, hresize, hwf₁, hcontent⟩ := netstackResizeMap_spec heap hwf
      refine ⟨map₁, ?_, hwf₁, hcontent⟩
      rw [if_pos hfull, hresize]
      rfl
    · refine ⟨map, ?_, hwf, fun _ => rfl⟩
      rw [if_neg hfull]
  obtain ⟨map₁, hmap₁, hwf₁, hcontent⟩ := hroom
  obtain ⟨i, hi, hk⟩ := hwf₁.exists_hash hshort
  have hstores := putIntoChain_stores heap hi hk hwf₁ value
  refine ⟨putIntoChain heap map₁ i key value, ?_, hstores.wellFormed, fun hok j => ?_,
    fun hne j => ?_, hstores.ample⟩
  · simp only [putMapEntry, hwf.valid, hmap₁, bind_eq_bind, bind_some, hk]
    rfl
  · rw [hstores.stored hok j, hcontent]
  · rw [hstores.failed hne j, hcontent]

theorem getMapEntry_spec (hshort : key.Short) :
    getMapEntry sign map (some key) = some ((map.content sign key).getD none) := by
  obtain ⟨i, -, hk⟩ := hwf.exists_hash hshort
  simp only [getMapEntry, hwf.valid, hk, bind_eq_bind, bind_some, HashMap.content,
    Chains.content]
  rfl

theorem deleteMapEntry_deletes (hshort : key.Short) :
    ∃ r, deleteMapEntry sign map (some key) = some r ∧ Deletes sign map key r := by
  obtain ⟨i, hi, hk⟩ := hwf.exists_hash hshort
  refine ⟨deleteFromChain map i key, ?_, deleteFromChain_deletes hi hk hwf⟩
  simp only [deleteMapEntry, hwf.valid, hk, bind_eq_bind, bind_some]
  rfl

end Operations

section Runs

inductive Op (V : Type) where
  | put (key : CString) (value : Option V)
  | get (key : CString)
  | delete (key : CString)

def Op.key : Op V → CString
  | put key _ => key
  | get key => key
  | delete key => key

inductive Answer (V : Type) where
  | code (c : ResultCode)
  | value (v : Option V)

/-- One operation, all allocations succeeding. -/
def perform (sign : CharSign) (map : HashMap V) : Op V → Option (Answer V × HashMap V)
  | .put key value =>
    (putMapEntry sign .ample map (some key) value).map fun r => (.code r.1, r.2)
  | .get key => (getMapEntry sign map (some key)).map fun v => (.value v, map)
  | .delete key => (deleteMapEntry sign map (some key)).map fun r => (.code r.1, r.2)

def run (sign : CharSign) (ops : List (Op V)) : Option (HashMap V) :=
  (createMap .ample).bind fun map =>
    ops.foldlM (fun map op => (perform sign map op).map Prod.snd) map

/-- The value of the last put of the key that no delete of the key follows. -/
def valueAfter (key : CString) (ops : List (Op V)) : Option (Option V) :=
  ops.foldl
    (fun current op =>
      match op with
      | .put k value => if key = k then some value else current
      | .get _ => current
      | .delete k => if key = k then none else current)
    none

/-- The answer of a finite map after the operations before. -/
def expected (before : List (Op V)) : Op V → Answer V
  | .put _ _ => .code .ok
  | .get key => .value ((valueAfter key before).getD none)
  | .delete _ => .code .ok

/-- After every part of the run the map is well-formed, and the next operation returns
the answer of a finite map. -/
def Refines (sign : CharSign) (ops : List (Op V)) : Prop :=
  ∀ before, before <+: ops → ∃ map, run sign before = some map ∧ map.WellFormed sign ∧
    ∀ op, before ++ [op] <+: ops → ∃ map', perform sign map op = some (expected before op, map')

/-- One operation with a short key. -/
theorem perform_spec {map : HashMap V} (hwf : map.WellFormed sign) {before : List (Op V)}
    (hcontent : ∀ j, map.content sign j = valueAfter j before) {op : Op V} (hshort : op.key.Short) :
    ∃ map', perform sign map op = some (expected before op, map') ∧ map'.WellFormed sign ∧
      ∀ j, map'.content sign j = valueAfter j (before ++ [op]) := by
  cases op with
  | put key value =>
    have hkey : key.Short := hshort
    obtain ⟨⟨code, map'⟩, hput, hstores⟩ := putMapEntry_stores .ample hwf hkey value
    have hok : code = .ok := hstores.ample rfl
    refine ⟨map', ?_, hstores.wellFormed, fun j => ?_⟩
    · rw [perform, hput, hok]
      rfl
    · rw [hstores.stored hok j, hcontent, valueAfter, valueAfter, foldl_concat]
  | get key =>
    have hkey : key.Short := hshort
    refine ⟨map, ?_, hwf, fun j => ?_⟩
    · rw [perform, getMapEntry_spec hwf hkey, hcontent]
      rfl
    · rw [hcontent, valueAfter, valueAfter, foldl_concat]
  | delete key =>
    have hkey : key.Short := hshort
    obtain ⟨⟨code, map'⟩, hdelete, hdeletes⟩ := deleteMapEntry_deletes hwf hkey
    have hok : code = .ok := hdeletes.code
    refine ⟨map', ?_, hdeletes.wellFormed, fun j => ?_⟩
    · rw [perform, hdelete, hok]
      rfl
    · rw [hdeletes.content j, hcontent, valueAfter, valueAfter, foldl_concat]

theorem run_concat (ops : List (Op V)) (op : Op V) :
    run sign (ops ++ [op]) =
      (run sign ops).bind fun map => (perform sign map op).map Prod.snd := by
  rw [run, run, bind_assoc]
  congr 1
  funext map
  exact foldlM_concat ops op map

/-- A run with short keys has a result that holds what a finite map holds. -/
theorem run_spec (sign : CharSign) (ops : List (Op V)) (hshort : ∀ op ∈ ops, op.key.Short) :
    ∃ map, run sign ops = some map ∧ map.WellFormed sign ∧
      ∀ j, map.content sign j = valueAfter j ops := by
  induction ops using List.reverseRecOn with
  | nil =>
    obtain ⟨map, hmap, hwf, hcontent⟩ := createMap_wellFormed (V := V) sign
    refine ⟨map, ?_, hwf, hcontent⟩
    rw [run, hmap]
    rfl
  | append_singleton ops op ih =>
    obtain ⟨map, hrun, hwf, hcontent⟩ := ih fun o ho => hshort o (mem_append_left [op] ho)
    obtain ⟨map', hperform, hwf', hcontent'⟩ := perform_spec hwf hcontent
      (hshort op (mem_append_right ops mem_cons_self))
    refine ⟨map', ?_, hwf', hcontent'⟩
    rw [run_concat, hrun, bind_some, hperform]
    rfl

/-- An operation with a longer key does not return. -/
theorem perform_eq_none {map : HashMap V} (hwf : map.WellFormed sign) {op : Op V}
    (hlong : ¬ op.key.Short) : perform sign map op = none := by
  cases op with
  | put key value =>
    have hkey : ¬ key.Short := hlong
    have hput : putMapEntry sign .ample map (some key) value = none := by
      simp only [putMapEntry, hwf.valid, netstackHash_eq_none hkey, bind_eq_bind,
        bind_none, bind_fun_none]
    rw [perform, hput]
    rfl
  | get key =>
    have hkey : ¬ key.Short := hlong
    have hget : getMapEntry sign map (some key) = none := by
      simp only [getMapEntry, hwf.valid, netstackHash_eq_none hkey, bind_eq_bind,
        bind_none]
    rw [perform, hget]
    rfl
  | delete key =>
    have hkey : ¬ key.Short := hlong
    have hdelete : deleteMapEntry sign map (some key) = none := by
      simp only [deleteMapEntry, hwf.valid, netstackHash_eq_none hkey, bind_eq_bind,
        bind_none]
    rw [perform, hdelete]
    rfl

/-- A run refines a finite map exactly if all its keys are shorter than `2 ^ 32` bytes. -/
theorem hashMap_refines_iff (sign : CharSign) (ops : List (Op V)) :
    Refines sign ops ↔ ∀ op ∈ ops, op.key.Short := by
  constructor
  · intro hrefines op hop
    by_contra hlong
    obtain ⟨before, after, rfl⟩ := append_of_mem hop
    obtain ⟨map, -, hwf, hnext⟩ := hrefines before (prefix_append _ _)
    obtain ⟨map', hperform⟩ := hnext op ⟨after, by simp⟩
    rw [perform_eq_none hwf hlong] at hperform
    cases hperform
  · intro hshort before hbefore
    obtain ⟨map, hrun, hwf, hcontent⟩ := run_spec sign before fun op hop =>
      hshort op (hbefore.subset hop)
    refine ⟨map, hrun, hwf, fun op hop => ?_⟩
    obtain ⟨map', hperform, -⟩ := perform_spec hwf hcontent
      (hshort op (hop.subset (mem_append_right before mem_cons_self)))
    exact ⟨map', hperform⟩

/-- A key of `2 ^ 32` times the letter `a`. -/
def longKey : CString where
  bytes := List.replicate (2 ^ 32) 97
  noNul h := absurd (eq_of_mem_replicate h) (by decide)

/-- The lookup of such a key never returns, not even in an empty map. -/
theorem get_longKey_does_not_return : ¬ Refines (V := Unit) .unsigned [.get longKey] := by
  intro hrefines
  obtain ⟨map, -, hwf, hnext⟩ := hrefines [] nil_prefix
  obtain ⟨map', hperform⟩ := hnext (.get longKey) (prefix_refl _)
  have hlong : ¬ (Op.get longKey : Op Unit).key.Short := by
    rw [Op.key, CString.Short, longKey, length_replicate]
    exact lt_irrefl _
  rw [perform_eq_none hwf hlong] at hperform
  cases hperform

end Runs

end Netstack.CApi
