import Netstack.Foundation.JsonText
import Netstack.HttpCache.DiskStore

/-!
# Which value a lookup returns

A key can have a value in the memory and another one in the file. The lookup
prefers the memory, so it returns the latest value unless that value left the
memory while an older one stayed in the file, which also a flush does that cannot
open the file, or an older one was read back over it. `StepSafe` names the steps
that do neither.
-/

namespace Netstack.HttpCache

open Foundation Foundation.Recency JsonText List Option

/-- The entries that leave the memory when an accepted entry is put. -/
def LruCache.evictedBy (s : LruCache) (e : Bytes × ValueMap) : List (Bytes × ValueMap) :=
  let l := e :: dropKey e.1 s.entries
  l.drop (fit mapBytes s.budget l).length

variable {slack : Nat} {k : Bytes} {v : ValueMap}

namespace LruCacheDiskHandler

/-- The operations of the store, with the outcome of opening the file for writing. -/
inductive Op where
  | put (key : Bytes) (value : ValueMap)
  | get (key : Bytes)
  | writeCacheToJsonFile (opened : Bool)
  | readCacheFromJsonFile
  | setCapacity (opened : Bool) (capacity : Nat)

section Runs

variable (rt : Runtime) (c : Copy) (js : JsonLibrary)

variable (h : LruCacheDiskHandler)

def step : Op → Option LruCacheDiskHandler
  | .put key value => h.put rt c key value
  | .get key => (h.get rt c js key).map Prod.snd
  | .writeCacheToJsonFile opened => h.writeCacheToJsonFile rt c js opened
  | .readCacheFromJsonFile => h.readCacheFromJsonFile rt c js
  | .setCapacity opened capacity => h.setCapacity rt c js opened capacity

def run (ops : List Op) (h : LruCacheDiskHandler) : Option LruCacheDiskHandler :=
  ops.foldlM (step rt c js) h

/-- A flush always returns; an unreadable file leaves everything as it is. -/
theorem Inv.exists_writeCacheToJsonFile {h : LruCacheDiskHandler} (hinv : Inv slack h)
    (opened : Bool) : ∃ h', h.writeCacheToJsonFile rt c js opened = some h' ∧ ∃ t, Inv t h' := by
  cases hread : h.readJsonValueFromFile c js with
  | none => exact ⟨h, by simp [writeCacheToJsonFile, hread], slack, hinv⟩
  | some root =>
    obtain ⟨h', hwrite, hinv', -⟩ := hinv.writeCacheToJsonFile_spec rt c js opened hread
    exact ⟨h', hwrite, _, hinv'⟩

theorem Inv.exists_step {h : LruCacheDiskHandler} (hinv : Inv slack h) (op : Op) :
    ∃ h', h.step rt c js op = some h' ∧ ∃ t, Inv t h' := by
  cases op with
  | put key value =>
    obtain ⟨h', hput, hinv', -⟩ := hinv.put_spec rt c key value
    exact ⟨h', hput, slack, hinv'⟩
  | get key =>
    obtain ⟨h', hget, hinv', -⟩ := hinv.get_spec rt c js key
    exact ⟨h', by simp [step, hget], slack, hinv'⟩
  | writeCacheToJsonFile opened => exact hinv.exists_writeCacheToJsonFile rt c js opened
  | readCacheFromJsonFile =>
    obtain ⟨h', hread, hinv', -⟩ := hinv.readCacheFromJsonFile_spec rt c js
    exact ⟨h', hread, slack, hinv'⟩
  | setCapacity opened capacity =>
    have hresized : Inv slack { h with capacity := boundedCapacity capacity } :=
      ⟨hinv.memory, hinv.memory_capacity, le_boundedCapacity capacity⟩
    exact hresized.exists_writeCacheToJsonFile rt c js opened

/-- Every run of the store returns, in a state with a sound memory cache. -/
theorem Inv.exists_run {h : LruCacheDiskHandler} (hinv : Inv slack h)
    (ops : List Op) : ∃ h', h.run rt c js ops = some h' ∧ ∃ t, Inv t h' :=
  Execution.foldlM_simulates (step rt c js) (fun s (_ : Unit) => ∃ t, Inv t s) (fun r _ => r)
    (fun _ _ op hs => hs.choose_spec.exists_step rt c js op) ops (r := ()) ⟨slack, hinv⟩

/-- The file has no value, or the same value, for the key of the entry. -/
def Agrees (e : Bytes × ValueMap) : Prop :=
  ∀ w ∈ lastValue (h.fileEntries rt c js) e.1, w = e.2

instance (h : LruCacheDiskHandler) (e : Bytes × ValueMap) : Decidable (Agrees rt c js h e) :=
  inferInstanceAs (Decidable (∀ w ∈ lastValue (h.fileEntries rt c js) e.1, w = e.2))

/-- The step drops no entry whose key has another value in the file, stores only
entries that a file can hold, and reads no value of the file over another one. A flush
drops the whole memory if it cannot open the file. -/
def StepSafe : Op → Prop
  | .put key value => Accepted value →
      LruCache.Portable (key, value) ∧
        ∀ e ∈ h.cache.evictedBy (key, value), Agrees rt c js h e
  | .get key => find key h.cache.entries = none →
      ∀ v ∈ find key (h.fileView rt c js),
        ∀ e ∈ h.cache.evictedBy (key, v), Agrees rt c js h e
  | .readCacheFromJsonFile => ∀ e ∈ h.cache.entries, Agrees rt c js h e
  | .writeCacheToJsonFile opened | .setCapacity opened _ =>
    opened = false → ∀ e ∈ h.cache.entries, Agrees rt c js h e

instance (h : LruCacheDiskHandler) (op : Op) : Decidable (StepSafe rt c js h op) := by
  cases op <;> dsimp only [StepSafe] <;> infer_instance

/-- Every step of the run is safe in the state in which it is taken. -/
def SafeRun : List Op → LruCacheDiskHandler → Prop
  | [], _ => True
  | op :: ops, h => StepSafe rt c js h op ∧
      ∀ h' ∈ h.step rt c js op, SafeRun ops h'

instance decidableSafeRun : (ops : List Op) → (h : LruCacheDiskHandler) →
    Decidable (SafeRun rt c js ops h)
  | [], _ => isTrue trivial
  | op :: ops, h =>
    have := decidableSafeRun ops
    inferInstanceAs (Decidable (StepSafe rt c js h op ∧
      ∀ h' ∈ h.step rt c js op, SafeRun rt c js ops h'))

/-- The entries that a run puts. -/
def acceptedPuts (ops : List Op) : List (Bytes × ValueMap) :=
  ops.filterMap fun
    | .put key value => if Accepted value then some (key, value) else none
    | _ => none

/-- The memory has only latest values, and so has the file for all other keys. -/
structure Tracks (written : List (Bytes × ValueMap)) (h : LruCacheDiskHandler) : Prop where
  inv : ∃ slack, Inv slack h
  readable : (h.readJsonValueFromFile c js).isSome
  portable : ∀ e ∈ h.cache.entries, LruCache.Portable e
  memory : ∀ k v, find k h.cache.entries = some v → lastValue written k = some v
  file : ∀ k v, find k h.cache.entries = none →
    lastValue (h.fileEntries rt c js) k = some v → lastValue written k = some v

variable {rt c js} {written : List (Bytes × ValueMap)} {h h' : LruCacheDiskHandler}

section

variable (htracks : Tracks rt c js written h)
include htracks

/-- Putting an entry whose value is then the latest of its key. -/
theorem Tracks.put_entry (hinv : Inv slack h) (hportable : LruCache.Portable (k, v))
    (hagrees : ∀ e ∈ h.cache.evictedBy (k, v), Agrees rt c js h e)
    (hinv' : Inv slack h') (hdisk : h'.diskHandler = h.diskHandler)
    (hent : h'.cache.entries = Recency.put mapBytes (maxSize - slack) h.cache.entries (k, v))
    {written' : List (Bytes × ValueMap)}
    (hwritten : ∀ j, lastValue written' j = if j = k then some v else lastValue written j) :
    Tracks rt c js written' h' := by
  have hfile : h'.fileEntries rt c js = h.fileEntries rt c js := fileEntries_congr hdisk
  have hbudget : h.cache.budget = maxSize - slack := by
    rw [hinv.memory.budget_eq, hinv.memory_capacity]
  have hlatest : ∀ j u, find j ((k, v) :: dropKey k h.cache.entries) = some u →
      lastValue written' j = some u := by
    intro j u hj
    rw [hwritten]
    by_cases hjk : j = k
    · simpa [find_cons, hjk] using hj
    · simp only [find_cons, find_dropKey, if_neg hjk] at hj ⊢
      exact htracks.memory j u hj
  refine ⟨⟨slack, hinv'⟩, ?_, ?_, ?_, ?_⟩
  · rw [readJsonValueFromFile_congr hdisk]
    exact htracks.readable
  · grind [mem_put, @htracks.portable]
  · intro j u hj
    rw [hent] at hj
    exact hlatest j u (find_of_isPrefix (fit_isPrefix mapBytes _ _) hj)
  · intro j w hj hw
    rw [hfile] at hw
    rw [hent, Recency.put, ← hbudget] at hj
    cases hfind : find j ((k, v) :: dropKey k h.cache.entries) with
    | some u =>
      have hsplit : find j (h.cache.evictedBy (k, v)) = some u := by
        rw [← prefix_iff_eq_append.mp
          (fit_isPrefix mapBytes h.cache.budget ((k, v) :: dropKey k h.cache.entries)),
          find_append, hj, none_or] at hfind
        exact hfind
      obtain rfl : w = u := hagrees _ (mem_of_find hsplit) w hw
      exact hlatest j w hfind
    | none =>
      by_cases hjk : j = k
      · simp [find_cons, hjk] at hfind
      · simp only [find_cons, find_dropKey, if_neg hjk] at hfind
        grind [@htracks.file]

/-- A step that leaves the file and every lookup in the memory as they were. -/
theorem Tracks.of_find_eq (hinv' : Inv slack h') (hdisk : h'.diskHandler = h.diskHandler)
    (hfind : ∀ j, find j h'.cache.entries = find j h.cache.entries)
    (hmem : ∀ e ∈ h'.cache.entries, e ∈ h.cache.entries) : Tracks rt c js written h' := by
  have hfile : h'.fileEntries rt c js = h.fileEntries rt c js := fileEntries_congr hdisk
  refine ⟨⟨slack, hinv'⟩, ?_, fun e he => htracks.portable e (hmem e he), ?_, ?_⟩
  · rw [readJsonValueFromFile_congr hdisk]
    exact htracks.readable
  · intro k v hk
    exact htracks.memory k v ((hfind k).symm.trans hk)
  · intro k v hk hv
    rw [hfile] at hv
    exact htracks.file k v ((hfind k).symm.trans hk) hv

theorem Tracks.put (hsafe : StepSafe rt c js h (.put k v)) : ∃ h', h.put rt c k v = some h' ∧
      Tracks rt c js (written ++ acceptedPuts [.put k v]) h' := by
  obtain ⟨slack, hinv⟩ := htracks.inv
  obtain ⟨h', hput, hinv', hdisk, hent⟩ := hinv.put_spec rt c k v
  refine ⟨h', hput, ?_⟩
  by_cases hv : Accepted v
  · obtain ⟨hportable, hagrees⟩ := hsafe hv
    rw [if_pos hv] at hent
    grind [acceptedPuts, put, lastValue_concat, @htracks.put_entry]
  · rw [if_neg hv] at hent
    have hputs : acceptedPuts [.put k v] = [] := by simp [acceptedPuts, hv]
    rw [hputs, append_nil]
    exact htracks.of_find_eq hinv' hdisk (fun j => by rw [hent]) fun e he => hent ▸ he

theorem Tracks.get (hsafe : StepSafe rt c js h (.get k)) :
    ∃ h', h.get rt c js k = some ((h.lookup rt c js k).getD ∅, h') ∧
      Tracks rt c js written h' := by
  obtain ⟨slack, hinv⟩ := htracks.inv
  obtain ⟨h', hget, hinv', hdisk, hent⟩ := hinv.get_spec rt c js k
  refine ⟨h', hget, ?_⟩
  cases hmem : find k h.cache.entries with
  | some v =>
    grind [entriesAfterGet, find_touch, mem_touch, @htracks.of_find_eq]
  | none =>
    cases hview : find k (h.fileView rt c js) with
    | none =>
      grind [entriesAfterGet, @htracks.of_find_eq]
    | some v =>
      simp only [entriesAfterGet, hmem, hview] at hent
      have hlast := htracks.file k v hmem (lastValue_of_fileView hview)
      have hportable := fileView_portable (k, v) (mem_of_find hview)
      apply htracks.put_entry hinv hportable (hsafe hmem v hview) hinv' hdisk hent
      grind

/-- The file has the latest values of all keys if it agrees with the memory. -/
theorem Tracks.file_latest (hagrees : ∀ e ∈ h.cache.entries, Agrees rt c js h e)
    (hv : lastValue (h.fileEntries rt c js) k = some v) : lastValue written k = some v := by
  cases hmem : find k h.cache.entries with
  | none => exact htracks.file k v hmem hv
  | some u =>
    obtain rfl : v = u := hagrees (k, u) (mem_of_find hmem) v hv
    exact htracks.memory k v hmem

/-- A flush moves the latest values of the memory over those of the file, or drops them. -/
theorem Tracks.writeCacheToJsonFile {opened : Bool}
    (hsafe : StepSafe rt c js h (.writeCacheToJsonFile opened)) :
    ∃ h', h.writeCacheToJsonFile rt c js opened = some h' ∧ Tracks rt c js written h' := by
  obtain ⟨slack, hinv⟩ := htracks.inv
  obtain ⟨root, hread⟩ := isSome_iff_exists.mp htracks.readable
  obtain ⟨h', hwrite, hinv', hent, hkept, hread', hfile⟩ :=
    hinv.writeCacheToJsonFile_spec rt c js opened hread
  refine ⟨h', hwrite, ⟨_, hinv'⟩, hread', ?_, ?_, ?_⟩
  · rw [hent]
    exact fun e he => absurd he not_mem_nil
  · intro k v hk
    rw [hent] at hk
    cases hk
  · intro k v _ hk
    cases opened with
    | false =>
      rw [fileEntries_congr (hkept rfl)] at hk
      exact htracks.file_latest (hsafe rfl) hk
    | true =>
      rw [hfile rfl htracks.portable, lastValue_reverse] at hk
      rcases find_putAll mapBytes maxSize hk with hmem | ⟨hmem, hview⟩
      · rw [lastValue_reverse] at hmem
        exact htracks.memory k v hmem
      · rw [lastValue_reverse] at hmem
        exact htracks.file k v hmem (lastValue_of_fileView hview)

theorem Tracks.readCacheFromJsonFile (hsafe : StepSafe rt c js h .readCacheFromJsonFile) :
    ∃ h', h.readCacheFromJsonFile rt c js = some h' ∧ Tracks rt c js written h' := by
  obtain ⟨slack, hinv⟩ := htracks.inv
  obtain ⟨h', hread, hinv', hdisk, hent⟩ := hinv.readCacheFromJsonFile_spec rt c js
  have hfile : h'.fileEntries rt c js = h.fileEntries rt c js := fileEntries_congr hdisk
  refine ⟨h', hread, ⟨_, hinv'⟩, ?_, ?_, ?_, ?_⟩
  · rw [readJsonValueFromFile_congr hdisk]
    exact htracks.readable
  · intro e he
    rw [hent] at he
    rcases mem_putAll mapBytes _ he with hmem | hput
    · exact htracks.portable e hmem
    · exact fileEntries_portable e hput
  · intro k v hk
    rw [hent] at hk
    rcases find_putAll mapBytes _ hk with hlast | ⟨-, hmem⟩
    · exact htracks.file_latest hsafe hlast
    · exact htracks.memory k v hmem
  · intro k v _ hv
    rw [hfile] at hv
    exact htracks.file_latest hsafe hv

/-- One safe step keeps track of the latest values. -/
theorem Tracks.step {op : Op} (hsafe : StepSafe rt c js h op) :
    ∃ h', h.step rt c js op = some h' ∧ Tracks rt c js (written ++ acceptedPuts [op]) h' := by
  cases op with
  | put k v => exact htracks.put hsafe
  | get k =>
    grind [LruCacheDiskHandler.step, acceptedPuts, @htracks.get]
  | writeCacheToJsonFile opened =>
    obtain ⟨h', hwrite, htracks'⟩ := htracks.writeCacheToJsonFile hsafe
    exact ⟨h', hwrite, by simpa [acceptedPuts] using htracks'⟩
  | readCacheFromJsonFile =>
    obtain ⟨h', hread, htracks'⟩ := htracks.readCacheFromJsonFile hsafe
    exact ⟨h', hread, by simpa [acceptedPuts] using htracks'⟩
  | setCapacity opened capacity =>
    obtain ⟨slack, hinv⟩ := htracks.inv
    have hresized : Tracks rt c js written { h with capacity := boundedCapacity capacity } :=
      htracks.of_find_eq ⟨hinv.memory, hinv.memory_capacity, le_boundedCapacity capacity⟩ rfl
        (fun _ => rfl) fun _ he => he
    obtain ⟨h', hwrite, htracks'⟩ := hresized.writeCacheToJsonFile hsafe
    exact ⟨h', hwrite, by simpa [acceptedPuts] using htracks'⟩

theorem Tracks.run {ops : List Op} (hsafe : SafeRun rt c js ops h) :
    ∃ h', h.run rt c js ops = some h' ∧ Tracks rt c js (written ++ acceptedPuts ops) h' := by
  induction ops generalizing h written with
  | nil => exact ⟨h, rfl, by simpa [acceptedPuts] using htracks⟩
  | cons op ops ih =>
    obtain ⟨h₁, hstep, htracks₁⟩ := htracks.step hsafe.1
    obtain ⟨h', hrun, htracks'⟩ := ih htracks₁ (hsafe.2 h₁ hstep)
    refine ⟨h', ?_, ?_⟩
    · rw [LruCacheDiskHandler.run, foldlM_cons, hstep]
      exact hrun
    · have hputs : acceptedPuts (op :: ops) = acceptedPuts [op] ++ acceptedPuts ops := by
        rw [← singleton_append]
        exact filterMap_append
      rwa [hputs, ← append_assoc]

end

theorem SafeRun.of_append {ops rest : List Op} (hsafe : SafeRun rt c js (ops ++ rest) h) :
    SafeRun rt c js ops h := by
  induction ops generalizing h with
  | nil => trivial
  | cons op ops ih => exact ⟨hsafe.1, fun h₁ hstep => ih (hsafe.2 h₁ hstep)⟩

theorem tracks_create {disk : DiskHandler} {capacity : Nat}
    (hreadable : ((create disk capacity).readJsonValueFromFile c js).isSome) :
    Tracks rt c js ((create disk capacity).fileEntries rt c js) (create disk capacity) where
  inv := ⟨0, inv_create disk capacity⟩
  readable := hreadable
  portable := fun _ he => absurd he not_mem_nil
  memory := fun _ _ hk => by cases hk
  file := fun _ _ _ hv => hv

/-- A lookup that finds a value finds the latest one. -/
theorem Tracks.lookup_eq (htracks : Tracks rt c js written h)
    (hv : h.lookup rt c js k = some v) : lastValue written k = some v := by
  rcases or_eq_some_iff.mp hv with hmem | ⟨hmem, hview⟩
  · exact htracks.memory k v hmem
  · exact htracks.file k v hmem (lastValue_of_fileView hview)

end Runs

/-- From a readable file, in every state of a run whose steps are all safe, `Get`
returns the empty map or the value most recently put, where the entries of the
initial file count as put before the run. -/
theorem safeRun_get_latest (rt : Runtime) (c : Copy) (js : JsonLibrary) (disk : DiskHandler)
    (capacity : Nat) (ops : List Op)
    (hreadable : ((create disk capacity).readJsonValueFromFile c js).isSome)
    (hsafe : SafeRun rt c js ops (create disk capacity)) :
    ∀ pre, pre <+: ops → ∃ h, (create disk capacity).run rt c js pre = some h ∧
      ∀ k, ∃ v h', h.get rt c js k = some (v, h') ∧
        (v = ∅ ∨ lastValue ((create disk capacity).fileEntries rt c js ++ acceptedPuts pre) k =
          some v) := by
  rintro pre ⟨rest, rfl⟩
  obtain ⟨h, hrun, htracks⟩ := (tracks_create hreadable).run hsafe.of_append
  refine ⟨h, hrun, ?_⟩
  intro k
  obtain ⟨slack, hinv⟩ := htracks.inv
  obtain ⟨h', hget, -⟩ := hinv.get_spec rt c js k
  refine ⟨_, h', hget, ?_⟩
  cases hlookup : h.lookup rt c js k with
  | none => exact Or.inl rfl
  | some v => exact Or.inr (htracks.lookup_eq hlookup)

/-- Put a value, flush it and replace it. -/
def replaceFlushed : List Op :=
  [.put (ascii "k") (field (ascii "1")), .writeCacheToJsonFile true,
    .put (ascii "k") (field (ascii "2"))]

theorem safeRun_get_latest_replaced :
    ∃ h, (create emptyObjectFile 0).run .ordered .http cJson replaceFlushed = some h ∧
      ∀ k, ∃ v h', h.get .ordered .http cJson k = some (v, h') ∧
        (v = ∅ ∨ lastValue ((create emptyObjectFile 0).fileEntries .ordered .http cJson ++
          acceptedPuts replaceFlushed) k = some v) :=
  safeRun_get_latest .ordered .http cJson emptyObjectFile 0 replaceFlushed
    (by decide) (by decide) replaceFlushed prefix_rfl

/-- A value of one mebibyte drives the latest value of another key out of the
memory, and the next lookup finds the flushed value that it had replaced. -/
theorem get_replaced_of_crowded {text : Bytes} (hlen : text.length = maxSize) :
    ∃ h h', (create emptyObjectFile 0).run .ordered .http cJson
        (replaceFlushed ++ [.put (ascii "j") (field text)]) = some h ∧
      h.get .ordered .http cJson (ascii "k") = some (field (ascii "1"), h') ∧
      lastValue ((create emptyObjectFile 0).fileEntries .ordered .http cJson ++
        acceptedPuts (replaceFlushed ++ [.put (ascii "j") (field text)])) (ascii "k") =
          some (field (ascii "2")) := by
  have hbig : mapBytes (field text) = maxSize := (mapBytes_field text).trans hlen
  have hbigAccepted : Accepted (field text) := by
    rw [Accepted, hbig]
    decide
  have hcreated : Tracks .ordered .http cJson
      ((create emptyObjectFile 0).fileEntries .ordered .http cJson)
      (create emptyObjectFile 0) := tracks_create (by decide)
  have hsafe : SafeRun .ordered .http cJson replaceFlushed (create emptyObjectFile 0) := by
    decide
  have hfile : ((create emptyObjectFile 0).run .ordered .http cJson replaceFlushed).map
      (fun h => h.fileEntries .ordered .http cJson) =
        some [(ascii "k", field (ascii "1"))] := by
    decide
  obtain ⟨h, hrun, htracks⟩ := hcreated.run hsafe
  obtain ⟨slack, hinv⟩ := htracks.inv
  rw [hrun, map_some, some.injEq] at hfile
  obtain ⟨h', hput, hinv', hdisk, hent'⟩ :=
    hinv.put_spec .ordered .http (ascii "j") (field text)
  obtain ⟨h'', hget, -⟩ := hinv'.get_spec .ordered .http cJson (ascii "k")
  have hkj : ascii "k" ≠ ascii "j" := by decide
  have hgone : find (ascii "k") h'.cache.entries = none := by
    rw [hent', if_pos hbigAccepted]
    apply find_put_of_full
    · rw [hbig]
      exact Nat.sub_le _ _
    · exact fun e he => (hinv.memory.accepted e he).1
    · exact hkj
  have hview : find (ascii "k") (h'.fileView .ordered .http cJson) =
      some (field (ascii "1")) := by
    rw [fileView, fileEntries_congr hdisk, hfile]
    decide
  refine ⟨h', h'', ?_, ?_, ?_⟩
  · rw [run, Execution.foldlM_concat, ← run, hrun]
    exact hput
  · rw [hget, lookup, hgone, hview]
    rfl
  · have hputs : acceptedPuts
        (replaceFlushed ++ [.put (ascii "j") (field text)]) =
        acceptedPuts replaceFlushed ++ [(ascii "j", field text)] := by
      simp [acceptedPuts, hbigAccepted]
    rw [hputs, ← append_assoc, lastValue_concat, if_neg hkj]
    decide

theorem get_returns_replaced_value :
    ∃ h h', (create emptyObjectFile 0).run .ordered .http cJson
        (replaceFlushed ++ [.put (ascii "j") (field (List.replicate maxSize 97))]) = some h ∧
      h.get .ordered .http cJson (ascii "k") = some (field (ascii "1"), h') ∧
      field (ascii "1") ≠ ∅ ∧ field (ascii "1") ≠ field (ascii "2") ∧
      lastValue ((create emptyObjectFile 0).fileEntries .ordered .http cJson ++
        acceptedPuts (replaceFlushed ++ [.put (ascii "j") (field (List.replicate maxSize 97))]))
          (ascii "k") = some (field (ascii "2")) := by
  obtain ⟨h, h', hrun, hget, hlast⟩ := get_replaced_of_crowded (length_replicate (a := 97))
  exact ⟨h, h', hrun, hget, by decide, by decide, hlast⟩

end LruCacheDiskHandler

end Netstack.HttpCache
