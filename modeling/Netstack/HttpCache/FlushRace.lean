import Netstack.Foundation.JsonText
import Netstack.HttpCache.DiskStore

/-!
# A flush among concurrent puts

No lock spans `WriteCacheToJsonFile`: it reads the file, copies the memory list, writes the file and
clears the memory in four atomic steps, and a `Put` of another thread can fall between any two of
them. A `Put` between the copy and the clear is lost unless the copy has its value, and so is what
the copy has if the file cannot be opened for writing.
-/

namespace Netstack.HttpCache

open Foundation Foundation.Recency List LruCacheDiskHandler JsonText LruCache

/-- How far a flush has come, with its local cache. -/
inductive FlushPhase where
  | start
  | loaded (oldCache : LruCache)
  | merged (oldCache : LruCache)
  | written (oldCache : LruCache)
  | finished
  deriving DecidableEq

/-- The shared store and the flushing thread. -/
structure FlushState where
  handler : LruCacheDiskHandler
  phase : FlushPhase
  deriving DecidableEq

/-- A `Put` of a request thread, or the next atomic step of the flush; if that is to write, the file
is `opened` or not. -/
inductive FlushEvent where
  | put (key : Bytes) (value : ValueMap)
  | flush (opened : Bool)

variable {k : Bytes} {v : ValueMap} {oldCache : LruCache} {puts l : List (Bytes × ValueMap)}

namespace FlushState

section Schedules

variable (rt : Runtime) (c : Copy) (js : JsonLibrary)

variable (s : FlushState)

/-- One atomic step of `WriteCacheToJsonFile`; a file that does not parse ends it. -/
def flushStep (opened : Bool) : Option FlushState :=
  match s.phase with
  | .start =>
    match s.handler.readJsonValueFromFile c js with
    | none => some { s with phase := .finished }
    | some readRoot => do
        let oldCache ← s.handler.cacheOfJson rt c readRoot
        return { s with phase := .loaded oldCache }
  | .loaded oldCache => do
      let oldCache ← oldCache.mergeOtherCache rt c s.handler.cache
      return { s with phase := .merged oldCache }
  | .merged oldCache =>
    some ⟨s.handler.writeJsonValueToFile js opened (oldCache.writeCacheToJsonValue rt),
      .written oldCache⟩
  | .written _ =>
    some ⟨{ s.handler with cache := s.handler.cache.clear c }, .finished⟩
  | .finished => some s

def step : FlushEvent → Option FlushState
  | .put key value => do
      let handler ← s.handler.put rt c key value
      return { s with handler := handler }
  | .flush opened => s.flushStep rt c js opened

def run (events : List FlushEvent) (s : FlushState) : Option FlushState :=
  events.foldlM (step rt c js) s

/-- Without puts in between, the atomic steps make up `WriteCacheToJsonFile`. -/
theorem run_flush_alone (h : LruCacheDiskHandler) (opened : Bool) :
    run rt c js (replicate 4 (.flush opened)) ⟨h, .start⟩ =
      (h.writeCacheToJsonFile rt c js opened).map fun h' => ⟨h', .finished⟩ := by
  simp only [run, replicate_succ, replicate_zero, foldlM_cons, foldlM_nil, step, flushStep,
    writeCacheToJsonFile]
  cases hread : h.readJsonValueFromFile c js with
  | none => rfl
  | some root =>
    cases hold : h.cacheOfJson rt c root with
    | none => simp [hold]
    | some oldCache =>
      cases hmerge : oldCache.mergeOtherCache rt c h.cache with
      | none => simp [hold, hmerge]
      | some oldCache => simp [hold, hmerge]

/-- A put between the copy of the memory list and the clear must put what the
local cache already has, and the file must be opened. -/
def StepQuiet : FlushEvent → Prop
  | .put key value =>
    match s.phase with
    | .merged oldCache => find key oldCache.entries = some value
    | .written oldCache => find key oldCache.entries = some value
    | _ => True
  | .flush opened =>
    match s.phase with
    | .merged _ => opened = true
    | _ => True

instance (event : FlushEvent) : Decidable (StepQuiet s event) := by
  cases event <;> simp only [StepQuiet] <;> (try split) <;> infer_instance

def QuietRun : List FlushEvent → FlushState → Prop
  | [], _ => True
  | event :: events, s => StepQuiet s event ∧ ∀ s' ∈ s.step rt c js event, QuietRun events s'

instance decidableQuietRun : (events : List FlushEvent) → (s : FlushState) →
    Decidable (QuietRun rt c js events s)
  | [], _ => isTrue trivial
  | event :: events, s =>
    have := decidableQuietRun events
    inferInstanceAs (Decidable (StepQuiet s event ∧
      ∀ s' ∈ s.step rt c js event, QuietRun rt c js events s'))

end Schedules

/-- The entries put by the request threads, in order. -/
def putsOf (events : List FlushEvent) : List (Bytes × ValueMap) :=
  events.filterMap fun
    | .put key value => some (key, value)
    | .flush _ => none

/-- The last value of every key put so far is in the list. -/
def HasAll (puts l : List (Bytes × ValueMap)) : Prop :=
  ∀ k v, lastValue puts k = some v → find k l = some v

theorem hasAll_of_recents (h : recents puts <+: l) : HasAll puts l := by
  intro k v hv
  exact find_of_isPrefix h ((find_recents puts k).trans hv)

theorem HasAll.concat (h : HasAll puts l)
    (hk : find k l = some v) : HasAll (puts ++ [(k, v)]) l := by
  intro j u hj
  rw [lastValue_concat] at hj
  split at hj
  · rename_i hjk
    grind
  · exact h j u hj

section Invariant

variable (rt : Runtime) (js : JsonLibrary)

/-- The local cache of a flush is sound and can be written and read back. -/
structure Local (h : LruCacheDiskHandler) (oldCache : LruCache) : Prop where
  inv : LruCache.Inv 0 oldCache
  capacity_eq : oldCache.capacity = maxSize
  portable : ∀ e ∈ oldCache.entries, Portable e
  readable : (h.readJsonValueFromFile .http js).isSome

/-- Where the last values put so far are, phase by phase. -/
def PhaseKeeps (puts : List (Bytes × ValueMap)) (h : LruCacheDiskHandler) : FlushPhase → Prop
  | .start => recents puts <+: h.cache.entries
  | .loaded oldCache => recents puts <+: h.cache.entries ∧ Local js h oldCache
  | .merged oldCache => HasAll puts oldCache.entries ∧ Local js h oldCache
  | .written oldCache =>
    HasAll puts oldCache.entries ∧ h.fileView rt .http js = oldCache.entries
  | .finished => ∃ early late, puts = early ++ late ∧ recents late <+: h.cache.entries ∧
      HasAll early (h.fileView rt .http js)

structure Keeps (puts : List (Bytes × ValueMap)) (s : FlushState) : Prop where
  inv : LruCacheDiskHandler.Inv 0 s.handler
  portable : ∀ e ∈ s.handler.cache.entries, Portable e
  phase : PhaseKeeps rt js puts s.handler s.phase

variable {rt js} {puts : List (Bytes × ValueMap)} {s : FlushState} {opened : Bool}

section

variable (hkeeps : Keeps rt js puts s)
include hkeeps

theorem Keeps.put (hv : Accepted v)
    (hportable : Portable (k, v)) (hfit : total mapBytes (puts ++ [(k, v)]) ≤ maxSize)
    (hquiet : StepQuiet s (.put k v)) :
    ∃ s', s.step rt .http js (.put k v) = some s' ∧ Keeps rt js (puts ++ [(k, v)]) s' := by
  obtain ⟨h', hput, hinv', hdisk, hent⟩ := hkeeps.inv.put_spec rt .http k v
  rw [if_pos hv, Nat.sub_zero] at hent
  have hview : h'.fileView rt .http js = s.handler.fileView rt .http js :=
    fileView_congr hdisk
  have hlocal : ∀ oldCache, Local js s.handler oldCache → Local js h' oldCache := by
    intro oldCache hl
    refine ⟨hl.inv, hl.capacity_eq, hl.portable, ?_⟩
    rw [readJsonValueFromFile_congr hdisk]
    exact hl.readable
  have hfront : ∀ early late, puts = early ++ late → recents late <+: s.handler.cache.entries →
      recents (late ++ [(k, v)]) <+: h'.cache.entries := by
    rintro early late rfl hlate
    rw [hent]
    apply recents_prefix_put mapBytes maxSize hlate
    refine (total_recents_le mapBytes _).trans (le_trans ?_ hfit)
    rw [append_assoc, total_append mapBytes early]
    exact Nat.le_add_left _ _
  refine ⟨{ s with handler := h' }, by simp [step, hput], hinv', ?_, ?_⟩
  · grind [mem_put, @hkeeps.portable]
  · have hphase := hkeeps.phase
    cases hs : s.phase with
    | start =>
      rw [hs] at hphase
      exact hfront [] puts rfl hphase
    | loaded oldCache =>
      rw [hs] at hphase
      exact ⟨hfront [] puts rfl hphase.1, hlocal oldCache hphase.2⟩
    | merged oldCache =>
      rw [hs] at hphase
      simp only [StepQuiet, hs] at hquiet
      exact ⟨hphase.1.concat hquiet, hlocal oldCache hphase.2⟩
    | written oldCache =>
      rw [hs] at hphase
      simp only [StepQuiet, hs] at hquiet
      exact ⟨hphase.1.concat hquiet, hview.trans hphase.2⟩
    | finished =>
      rw [hs] at hphase
      obtain ⟨early, late, hputs, hlate, hearly⟩ := hphase
      refine ⟨early, late ++ [(k, v)], by rw [hputs, append_assoc],
        hfront early late hputs hlate, ?_⟩
      rw [hview]
      exact hearly

/-- Reading the file gives a local cache that can be written back. -/
theorem Keeps.load (hs : s.phase = .start) :
    ∃ s', s.flushStep rt .http js opened = some s' ∧ Keeps rt js puts s' := by
  have hphase := hkeeps.phase
  rw [hs] at hphase
  cases hread : s.handler.readJsonValueFromFile .http js with
  | none =>
    refine ⟨{ s with phase := .finished }, by simp [flushStep, hs, hread], hkeeps.inv,
      hkeeps.portable, [], puts, rfl, hphase, ?_⟩
    intro k v hv
    cases hv
  | some root =>
    obtain ⟨d, hd, hinvd, hcapd, hentd⟩ := hkeeps.inv.cacheOfJson_spec rt .http root
    refine ⟨{ s with phase := .loaded d }, by simp [flushStep, hs, hread, hd], hkeeps.inv,
      hkeeps.portable, hphase, hinvd, hcapd, ?_, Option.isSome_iff_exists.mpr ⟨root, hread⟩⟩
    intro e he
    rw [hentd, ← fileEntries_of_some hread] at he
    exact fileView_portable e he

/-- The copied memory list comes to the front of the local cache. -/
theorem Keeps.merge (hs : s.phase = .loaded oldCache) :
    ∃ s', s.flushStep rt .http js opened = some s' ∧ Keeps rt js puts s' := by
  have hphase := hkeeps.phase
  rw [hs] at hphase
  obtain ⟨hrecents, hlocal⟩ := hphase
  have hmemory := hkeeps.inv.memory
  obtain ⟨m, hm, hinvm, hcapm, hentm⟩ := hlocal.inv.mergeOtherCache_spec rt .http s.handler.cache
  rw [hmemory.acceptedEntries_reverse, Nat.sub_zero, hlocal.capacity_eq] at hentm
  have hfront : s.handler.cache.entries <+: m.entries := by
    rw [hentm]
    apply prefix_putAll_reverse mapBytes maxSize _ hmemory.keys
    calc
      total mapBytes s.handler.cache.entries ≤ s.handler.cache.size := by
        rw [hmemory.size_eq, Nat.zero_add]
      _ ≤ s.handler.cache.capacity := hmemory.size_le
      _ = maxSize := hkeeps.inv.memory_capacity
  refine ⟨{ s with phase := .merged m }, by simp [flushStep, hs, hm], hkeeps.inv,
    hkeeps.portable, hasAll_of_recents (hrecents.trans hfront), hinvm,
    hcapm.trans hlocal.capacity_eq, ?_, hlocal.readable⟩
  intro e he
  rw [hentm] at he
  rcases mem_putAll mapBytes maxSize he with hold | hmem
  · exact hlocal.portable e hold
  · exact hkeeps.portable e (mem_reverse.mp hmem)

/-- The written file holds exactly the local cache. -/
theorem Keeps.write (hs : s.phase = .merged oldCache) :
    ∃ s', s.flushStep rt .http js true = some s' ∧ Keeps rt js puts s' := by
  have hphase := hkeeps.phase
  rw [hs] at hphase
  obtain ⟨hall, hlocal⟩ := hphase
  obtain ⟨root, hread⟩ := Option.isSome_iff_exists.mp hlocal.readable
  have hback := readJsonValueFromFile_write .http js hread
    (writeCacheToJsonValue_isPage rt oldCache)
  refine ⟨⟨s.handler.writeJsonValueToFile js true (oldCache.writeCacheToJsonValue rt),
    .written oldCache⟩, by simp only [flushStep, hs], ⟨hkeeps.inv.memory,
    hkeeps.inv.memory_capacity, hkeeps.inv.capacity_ge⟩, hkeeps.portable, hall, ?_⟩
  rw [fileView, fileEntries_of_some hback,
    hlocal.inv.acceptedEntries_written rt hlocal.portable]
  apply putAll_reverse mapBytes maxSize hlocal.inv.keys
  calc
    total mapBytes oldCache.entries ≤ oldCache.size := by
      rw [hlocal.inv.size_eq, Nat.zero_add]
    _ ≤ oldCache.capacity := hlocal.inv.size_le
    _ = maxSize := hlocal.capacity_eq

theorem Keeps.clear (hs : s.phase = .written oldCache) :
    ∃ s', s.flushStep rt .http js opened = some s' ∧ Keeps rt js puts s' := by
  have hphase := hkeeps.phase
  rw [hs] at hphase
  obtain ⟨hall, hview⟩ := hphase
  refine ⟨⟨{ s.handler with cache := s.handler.cache.clear .http }, .finished⟩,
    by simp only [flushStep, hs], ⟨hkeeps.inv.memory.clear_spec .http,
    hkeeps.inv.memory_capacity, hkeeps.inv.capacity_ge⟩, ?_, puts, [],
    (append_nil puts).symm, nil_prefix, ?_⟩
  · exact fun e he => absurd he not_mem_nil
  · intro k v hv
    exact (congrArg (find k) hview).trans (hall k v hv)

theorem Keeps.flush (hquiet : StepQuiet s (.flush opened)) :
    ∃ s', s.flushStep rt .http js opened = some s' ∧ Keeps rt js puts s' := by
  cases hs : s.phase with
  | start => exact hkeeps.load hs
  | loaded oldCache => exact hkeeps.merge hs
  | merged oldCache =>
    simp only [StepQuiet, hs] at hquiet
    subst hquiet
    exact hkeeps.write hs
  | written oldCache => exact hkeeps.clear hs
  | finished => exact ⟨s, by simp [flushStep, hs], hkeeps⟩

theorem Keeps.run {events : List FlushEvent}
    (hputs : ∀ e ∈ putsOf events, Accepted e.2 ∧ Portable e)
    (hfit : total mapBytes (puts ++ putsOf events) ≤ maxSize)
    (hquiet : QuietRun rt .http js events s) :
    ∃ s', s.run rt .http js events = some s' ∧ Keeps rt js (puts ++ putsOf events) s' := by
  induction events generalizing s puts with
  | nil => exact ⟨s, rfl, by simpa [putsOf] using hkeeps⟩
  | cons event events ih =>
    have hrun : ∀ {s₁ s' : FlushState}, s.step rt .http js event = some s₁ →
        s₁.run rt .http js events = some s' → s.run rt .http js (event :: events) = some s' := by
      intro s₁ s' hs₁ hs'
      rw [FlushState.run, foldlM_cons, hs₁]
      exact hs'
    cases event with
    | flush opened =>
      obtain ⟨s₁, hs₁, hkeeps₁⟩ := hkeeps.flush hquiet.1
      obtain ⟨s', hs', hkeeps'⟩ := ih hkeeps₁ hputs hfit (hquiet.2 s₁ hs₁)
      exact ⟨s', hrun hs₁ hs', hkeeps'⟩
    | put k v =>
      have hsplit : puts ++ putsOf (.put k v :: events) =
          puts ++ [(k, v)] ++ putsOf events := by
        rw [append_assoc]
        rfl
      obtain ⟨hv, hportable⟩ := hputs (k, v) mem_cons_self
      rw [hsplit] at hfit ⊢
      have hfit₁ : total mapBytes (puts ++ [(k, v)]) ≤ maxSize :=
        (total_le_of_sublist mapBytes (sublist_append_left _ _)).trans hfit
      obtain ⟨s₁, hs₁, hkeeps₁⟩ := hkeeps.put hv hportable hfit₁ hquiet.1
      obtain ⟨s', hs', hkeeps'⟩ := ih hkeeps₁
        (fun e he => hputs e (mem_cons_of_mem _ he)) hfit (hquiet.2 s₁ hs₁)
      exact ⟨s', hrun hs₁ hs', hkeeps'⟩

end

theorem QuietRun.of_append {events rest : List FlushEvent}
    (hquiet : QuietRun rt .http js (events ++ rest) s) : QuietRun rt .http js events s := by
  induction events generalizing s with
  | nil => trivial
  | cons event events ih => exact ⟨hquiet.1, fun s₁ hs₁ => ih (hquiet.2 s₁ hs₁)⟩

/-- In the finished state the last values are split between the memory and the file. -/
theorem Keeps.held (hkeeps : Keeps rt js puts s) (hs : s.phase = .finished)
    (hv : lastValue puts k = some v) :
    find k s.handler.cache.entries = some v ∨
      find k (s.handler.fileView rt .http js) = some v := by
  have hphase := hkeeps.phase
  rw [hs] at hphase
  obtain ⟨early, late, rfl, hlate, hearly⟩ := hphase
  rw [lastValue_append] at hv
  rcases Option.or_eq_some_iff.mp hv with hv | ⟨-, hv⟩
  · exact Or.inl (hasAll_of_recents hlate k v hv)
  · exact Or.inr (hearly k v hv)

end Invariant

/-- In every schedule of one flush of the `Http` copy with puts of accepted values
that fit the capacity together, if the file is opened and no put between the copy of
the memory list and the clear has a value that the local cache lacks, then whenever the
flush has finished, the last value put under every key is in the memory or in the file. -/
theorem quiet_flush_keeps_last_put (rt : Runtime) (js : JsonLibrary) (h : LruCacheDiskHandler)
    (events : List FlushEvent) (hinv : LruCacheDiskHandler.Inv 0 h)
    (hportable : ∀ e ∈ h.cache.entries, Portable e)
    (hputs : ∀ e ∈ putsOf events, Accepted e.2 ∧ Portable e)
    (hfit : total mapBytes (putsOf events) ≤ maxSize)
    (hquiet : QuietRun rt .http js events ⟨h, .start⟩) :
    ∀ pre, pre <+: events → ∃ s, run rt .http js pre ⟨h, .start⟩ = some s ∧
      (s.phase = .finished → ∀ k v, lastValue (putsOf pre) k = some v →
        find k s.handler.cache.entries = some v ∨
          find k (s.handler.fileView rt .http js) = some v) := by
  rintro pre ⟨rest, rfl⟩
  have hstart : Keeps rt js [] ⟨h, .start⟩ := ⟨hinv, hportable, nil_prefix⟩
  have happend : putsOf (pre ++ rest) = putsOf pre ++ putsOf rest := filterMap_append
  rw [happend] at hputs hfit
  have hfit' : total mapBytes (putsOf pre) ≤ maxSize :=
    (total_le_of_sublist mapBytes (sublist_append_left _ _)).trans hfit
  obtain ⟨s, hs, hkeeps⟩ := hstart.run (fun e he => hputs e (mem_append_left _ he))
    hfit' hquiet.of_append
  exact ⟨s, hs, fun hdone k v hv => hkeeps.held hdone hv⟩

open LruCacheDiskHandler in
/-- Puts before the read, before the copy and after the clear. -/
def quietEvents : List FlushEvent :=
  [.put (ascii "k") (field (ascii "1")), .flush false, .put (ascii "k") (field (ascii "2")),
    .flush false, .flush true, .flush false, .put (ascii "j") (field (ascii "3"))]

open LruCacheDiskHandler in
theorem quiet_flush_keeps_last_put_of_quietEvents :
    ∃ s, run .ordered .http cJson quietEvents ⟨create emptyObjectFile 0, .start⟩ =
        some s ∧
      (s.phase = .finished → ∀ k v, lastValue (putsOf quietEvents) k = some v →
        find k s.handler.cache.entries = some v ∨
          find k (s.handler.fileView .ordered .http cJson) = some v) :=
  quiet_flush_keeps_last_put .ordered cJson (create emptyObjectFile 0) quietEvents
    (inv_create emptyObjectFile 0) (by decide) (by decide) (by decide) (by decide) quietEvents
    prefix_rfl

open LruCacheDiskHandler in
/-- A put between the copy of the memory list and the write is in neither place. -/
theorem put_after_copy_is_lost :
    ∃ s, run .ordered .http cJson
        [.flush true, .flush true, .put (ascii "k") (field (ascii "1")), .flush true, .flush true]
        ⟨create emptyObjectFile 0, .start⟩ = some s ∧
      s.phase = .finished ∧ Accepted (field (ascii "1")) ∧
      find (ascii "k") s.handler.cache.entries = none ∧
      find (ascii "k") (s.handler.fileView .ordered .http cJson) = none := by
  decide

end FlushState

end Netstack.HttpCache
