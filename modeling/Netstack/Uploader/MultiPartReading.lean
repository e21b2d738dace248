import Netstack.Uploader.MultiPart

/-!
# What the polls of a multipart body write

The bytes in the buffer followed by those that are still to come are the same before and after
every round of the loop, whatever the bodies answer. So the polls write the parts in the format of
multipart messages, and as much of it as they have been given room for.
-/

namespace Netstack.Uploader

open Foundation Foundation.Execution List Option ReadBuf MultiPartStates UInt64

variable {ρ ε : Type} (bytes : Bytes)

namespace MultiPartState

variable (c : ρ → Bytes) (d : ρ → Nat)

/-- The bytes of a state that are still to come, if `c` says so for the bodies. -/
def contents : MultiPartState ρ → Bytes
  | .bytes cursor => cursor.bytes.drop cursor.position
  | .stream reader => c reader

/-- How often a state will be pending. -/
def delays : MultiPartState ρ → Nat
  | .bytes _ => 0
  | .stream reader => d reader

@[simp] theorem contents_ofBytes :
    (ofBytes bytes : MultiPartState ρ).contents c = bytes := rfl

@[simp] theorem delays_ofBytes :
    (ofBytes bytes : MultiPartState ρ).delays d = 0 := rfl

end MultiPartState

variable {s s' s₁ : MultiPartStates ρ} {items : Bytes} {state : MultiPartState ρ}
  {buf : ReadBuf UInt8}

namespace MultiPartStates

section Contents

variable (c : ρ → Bytes) (d : ρ → Nat)

variable (curr : Option (MultiPartState ρ))

def currContents : Bytes :=
  curr.elim [] (MultiPartState.contents c)

def currDelays : Nat :=
  curr.elim 0 (MultiPartState.delays d)

/-- The bytes that are still to come. -/
def contents (s : MultiPartStates ρ) : Bytes :=
  currContents c s.curr ++ s.states.flatMap (MultiPartState.contents c)

def delays (s : MultiPartStates ρ) : Nat :=
  currDelays d s.curr + (s.states.map (MultiPartState.delays d)).sum

theorem contents_of_takeNext_none (h : s.takeNext = none) : s.contents c = [] := by
  obtain ⟨states, curr⟩ := s
  cases curr with
  | some state => exact absurd h (by simp [takeNext])
  | none =>
    cases states with
    | nil => rfl
    | cons state states => exact absurd h (by simp [takeNext])

theorem takeNext_eq_some (h : s.takeNext = some s') :
    ∃ state, s'.curr = some state ∧ s'.count = s.count ∧ s'.contents c = s.contents c ∧
      ∀ d : ρ → Nat, s'.delays d = s.delays d := by
  obtain ⟨states, curr⟩ := s
  cases curr with
  | some state =>
    cases h
    exact ⟨state, rfl, rfl, rfl, fun _ => rfl⟩
  | none =>
    cases states with
    | nil => exact absurd h (by simp [takeNext])
    | cons state states =>
      cases h
      refine ⟨state, rfl, rfl, rfl, fun d => ?_⟩
      simp [MultiPartStates.delays, currDelays]

end Contents

section Rounds

variable [AsyncRead ρ UInt8 ε] {c : ρ → Bytes} {l : Loop ρ ε}

/-- The state fills a part of the buffer and is kept as long as it does. -/
structure Fills (c : ρ → Bytes) (state : MultiPartState ρ) (room : Nat) (items : Bytes)
    (curr : Option (MultiPartState ρ)) : Prop where
  fits : items.length ≤ room
  same : state.contents c = items ++ currContents c curr
  kept : curr = none ∨ items ≠ []
  delays : ∀ d : ρ → Nat, Wakes d → currDelays d curr ≤ state.delays d

theorem fills_bytes (cursor : Cursor) {room : Nat} (hroom : room ≠ 0) :
    Fills c (.bytes cursor) room (cursor.read room).1
      (if room ≤ (cursor.read room).1.length then some (.bytes (cursor.read room).2)
      else none) := by
  have hlength : (cursor.read room).1.length =
      min room (cursor.bytes.drop cursor.position).length := length_take
  refine ⟨by omega, ?_, ?_, fun d _ => ?_⟩
  · split
    · have hdrop : (cursor.read room).2.bytes.drop (cursor.read room).2.position =
          (cursor.bytes.drop cursor.position).drop room := by
        change cursor.bytes.drop (cursor.position + (cursor.read room).1.length) = _
        rw [drop_drop]
        congr 2
        omega
      change _ = (cursor.read room).1 ++ (cursor.read room).2.bytes.drop _
      rw [hdrop]
      exact (take_append_drop room _).symm
    · have hall : (cursor.read room).1 = cursor.bytes.drop cursor.position :=
        take_of_length_le (by omega)
      exact hall.symm.trans (append_nil _).symm
  · split
    · refine Or.inr fun hnil => ?_
      have hzero := congrArg List.length hnil
      rw [length_nil] at hzero
      omega
    · exact Or.inl rfl
  · split <;> exact Nat.zero_le _

theorem fills_stream (hc : Delivers c) {stream stream' : ρ} {room : Nat}
    (hroom : room ≠ 0) (h : AsyncRead.pollRead stream room = .ready items stream') :
    Fills c (.stream stream) room items (if items ≠ [] then some (.stream stream') else none) := by
  obtain ⟨hfits, hsame⟩ := hc.ready h
  refine ⟨hfits, ?_, ?_, fun d hd => ?_⟩
  · split
    · exact hsame
    · rename_i hnil
      obtain rfl := not_not.1 hnil
      exact hc.atEnd h hroom
  · split
    · exact Or.inr ‹_›
    · exact Or.inl rfl
  · split
    · exact hd.ready h
    · exact Nat.zero_le _

/-- What one poll of the current state does. -/
theorem pollReadCurr_spec (hc : Delivers c) (hcurr : s.curr = some state)
    (hroom : buf.unfilled ≠ 0) :
    (∃ items curr, s.pollReadCurr (ε := ε) buf = (.ready, { s with curr := curr }, buf.fill items) ∧
      Fills c state buf.unfilled items curr) ∨
    ∃ state', s.pollReadCurr (ε := ε) buf = (.pending, { s with curr := some state' }, buf) ∧
      state'.contents c = state.contents c ∧
      ∀ d : ρ → Nat, Wakes d → state'.delays d < state.delays d := by
  unfold pollReadCurr
  rw [hcurr]
  cases state with
  | bytes cursor => exact Or.inl ⟨_, _, rfl, fills_bytes cursor hroom⟩
  | stream stream =>
    dsimp only
    cases hpoll : AsyncRead.pollRead stream buf.unfilled with
    | ready items stream' =>
      have hgrows : buf.filled.length ≠ (buf.fill items).filled.length ↔ items ≠ [] := by
        rw [fill_filled (hc.ready hpoll).1, length_append, ← length_pos_iff]
        omega
      grind [fills_stream]
    | pending stream' =>
      exact Or.inr ⟨_, rfl, hc.pending hpoll, fun d hd => hd.pending hpoll⟩
    | failed error => exact absurd hpoll (hc.notFailed stream _ error)

/-- What the loop keeps: the bytes in the buffer and those to come are the same, and what has
come is kept. -/
structure Reads (c : ρ → Bytes) (s : MultiPartStates ρ) (buf : ReadBuf UInt8) (l : Loop ρ ε) :
    Prop where
  capacity : l.buf.capacity = buf.capacity
  grows : buf.filled <+: l.buf.filled
  same : l.buf.filled ++ l.states.contents c = buf.filled ++ s.contents c
  ready : l.result = some .ready → l.states.contents c = []
  notFailed : ∀ error, l.result ≠ some (.failed error)
  delays : ∀ d : ρ → Nat, Wakes d → l.states.delays d ≤ s.delays d
  pending : ∀ d : ρ → Nat, Wakes d → l.result = some .pending → l.states.delays d < s.delays d

/-- The loop goes on as long as there are states and room. -/
def Loop.measure (l : Loop ρ ε) : Nat :=
  l.states.count + l.buf.unfilled + l.result.elim 1 fun _ => 0

theorem body_of_none (h : l.states.takeNext = none) :
    l.body = { l with result := some .ready } := by
  unfold Loop.body
  rw [h]

theorem body_of_ready (h : l.states.takeNext = some s)
    (hpoll : s.pollReadCurr (ε := ε) l.buf = (.ready, s', buf)) :
    l.body = { states := s', buf := buf } := by
  unfold Loop.body
  rw [h]
  dsimp only
  rw [hpoll]

theorem body_of_pending (h : l.states.takeNext = some s)
    (hpoll : s.pollReadCurr (ε := ε) l.buf = (.pending, s', buf)) :
    l.body = { states := s', buf := buf, result := some .pending } := by
  unfold Loop.body
  rw [h]
  dsimp only
  rw [hpoll]

theorem contents_eq (h : s.curr = some state) :
    s.contents c = state.contents c ++ s.states.flatMap (MultiPartState.contents c) := by
  unfold MultiPartStates.contents
  rw [h]
  rfl

theorem delays_eq (h : s.curr = some state) (d : ρ → Nat) :
    s.delays d = state.delays d + (s.states.map (MultiPartState.delays d)).sum := by
  unfold MultiPartStates.delays
  rw [h]
  rfl

theorem count_eq (h : s.curr = some state) : s.count = s.states.length + 1 := by
  unfold count
  rw [h]
  rfl

variable {curr : Option (MultiPartState ρ)}

theorem reads_ready (hl : Reads c s buf l)
    (hcurr : s₁.curr = some state) (hcontents : s₁.contents c = l.states.contents c)
    (hdelays : ∀ d : ρ → Nat, s₁.delays d = l.states.delays d)
    (hfills : Fills c state l.buf.unfilled items curr) :
    Reads c s buf (ε := ε) { states := { s₁ with curr := curr }, buf := l.buf.fill items } where
  capacity := hl.capacity
  grows := hl.grows.trans (prefix_append _ _)
  same := by
    rw [← hl.same, ← hcontents, contents_eq hcurr, hfills.same,
      fill_filled hfills.fits, append_assoc, append_assoc]
    rfl
  ready := nofun
  notFailed _ := nofun
  delays d hd := by
    refine le_trans ?_ (hl.delays d hd)
    rw [← hdelays d, delays_eq hcurr]
    exact Nat.add_le_add_right (hfills.delays d hd) _
  pending _ _ := nofun

theorem measure_ready (hcurr : s₁.curr = some state) {room : ReadBuf UInt8}
    (hfills : Fills c state room.unfilled items curr) :
    count { s₁ with curr := curr } + (room.fill items).unfilled <
      s₁.count + room.unfilled := by
  have hroom := unfilled_fill hfills.fits
  rw [count_eq hcurr, count]
  obtain rfl | hitems := hfills.kept
  · simp only [toList_none, length_nil]
    omega
  · have hpos := length_pos_iff.2 hitems
    grind

theorem reads_pending (hl : Reads c s buf l)
    {state' : MultiPartState ρ} (hcurr : s₁.curr = some state)
    (hcontents : s₁.contents c = l.states.contents c)
    (hdelays : ∀ d : ρ → Nat, s₁.delays d = l.states.delays d)
    (hsame : state'.contents c = state.contents c)
    (hless : ∀ d : ρ → Nat, Wakes d → state'.delays d < state.delays d) :
    Reads c s buf
      { states := { s₁ with curr := some state' }, buf := l.buf, result := some .pending } := by
  have hshrinks : ∀ d : ρ → Nat, Wakes d →
      MultiPartStates.delays d { s₁ with curr := some state' } < s.delays d := by
    intro d hd
    refine lt_of_lt_of_le ?_ (hl.delays d hd)
    rw [← hdelays d, delays_eq hcurr]
    exact Nat.add_lt_add_right (hless d hd) _
  refine ⟨hl.capacity, hl.grows, ?_, nofun, fun _ => nofun, fun d hd => (hshrinks d hd).le,
    fun d hd _ => hshrinks d hd⟩
  rw [← hl.same, ← hcontents, contents_eq hcurr, ← hsame]
  rfl

theorem reads_body (hc : Delivers c) (hl : Reads c s buf l) (hcond : l.cond = true) :
    Reads c s buf l.body ∧ l.body.measure < l.measure := by
  obtain ⟨hresult, hroom⟩ : l.result = none ∧ l.buf.unfilled ≠ 0 := by
    simpa [Loop.cond] using hcond
  have hmeasure : l.measure = l.states.count + l.buf.unfilled + 1 := by
    rw [Loop.measure, hresult]
    rfl
  rw [hmeasure]
  cases hnext : l.states.takeNext with
  | none =>
    rw [body_of_none hnext]
    refine ⟨⟨hl.capacity, hl.grows, hl.same, fun _ => contents_of_takeNext_none c hnext,
      fun _ => nofun, hl.delays, fun _ _ => nofun⟩, ?_⟩
    exact Nat.lt_succ_self _
  | some s₁ =>
    obtain ⟨state, hcurr, hcount, hcontents, hdelays⟩ := takeNext_eq_some c hnext
    rw [← hcount]
    obtain ⟨items, curr, hpoll, hfills⟩ | ⟨state', hpoll, hsame, hless⟩ :=
      pollReadCurr_spec (ε := ε) hc hcurr hroom
    · rw [body_of_ready hnext hpoll]
      exact ⟨reads_ready hl hcurr hcontents hdelays hfills,
        Nat.add_lt_add_right (measure_ready hcurr hfills) 1⟩
    · rw [body_of_pending hnext hpoll]
      refine ⟨reads_pending hl hcurr hcontents hdelays hsame hless, ?_⟩
      rw [Loop.measure, count_eq hcurr]
      exact Nat.lt_succ_self _

/-- What one poll of the queue does. -/
theorem pollRead_spec (hc : Delivers c) (s : MultiPartStates ρ) (buf : ReadBuf UInt8) :
    ∃ l : Loop ρ ε, s.pollRead (ε := ε) buf = some (l.result.getD .ready, l.states, l.buf) ∧
      Reads c s buf l ∧ (l.result = none → l.buf.unfilled = 0) := by
  have hstart : Reads c s buf (ε := ε) { states := s, buf := buf } :=
    ⟨rfl, prefix_rfl, rfl, nofun, fun _ => nofun, fun _ _ => le_refl _, fun _ _ => nofun⟩
  obtain ⟨l, hloop, hl, hexit⟩ := whileLoop_total Loop.cond (Loop.body (ε := ε))
    (μ := Loop.measure) (n := s.count + buf.unfilled + 1)
    (fun _ hl hcond => reads_body hc hl hcond) hstart (le_refl _)
  grind [pollRead, Loop.cond]

/-- A poll that finds room is ready with nothing only at the end, and pending only with a
body. -/
theorem pollRead_outcome (hc : Delivers c) (s : MultiPartStates ρ) (hroom : buf.unfilled ≠ 0) :
    ∃ poll s' newBuf written, s.pollRead (ε := ε) buf = some (poll, s', newBuf) ∧
      newBuf.filled = buf.filled ++ written ∧ s.contents c = written ++ s'.contents c ∧
      (∀ d : ρ → Nat, Wakes d → s'.delays d ≤ s.delays d) ∧
      (poll = .ready ∧ (written = [] → s'.contents c = []) ∨
        poll = .pending ∧ ∀ d : ρ → Nat, Wakes d → s'.delays d < s.delays d) := by
  obtain ⟨l, hpoll, hl, hfull⟩ := pollRead_spec (ε := ε) hc s buf
  obtain ⟨written, hwritten⟩ := hl.grows
  have hsame : s.contents c = written ++ l.states.contents c := by
    grind [append_cancel_left, @hl.same]
  refine ⟨_, l.states, l.buf, written, hpoll, hwritten.symm, hsame, hl.delays, ?_⟩
  cases hresult : l.result with
  | none =>
    refine Or.inl ⟨rfl, fun hnil => absurd ?_ hroom⟩
    rw [← hfull hresult, unfilled, unfilled, hl.capacity, ← hwritten, hnil,
      append_nil]
  | some poll =>
    cases poll with
    | ready => exact Or.inl ⟨rfl, fun _ => hl.ready hresult⟩
    | pending => exact Or.inr ⟨rfl, fun d hd => hl.pending d hd hresult⟩
    | failed error => exact absurd hresult (hl.notFailed error)

end Rounds

end MultiPartStates

section Format

variable (c : ρ → Bytes) (d : ρ → Nat)

open MultiPart

/-- The lines of the header of a part. -/
def Part.headers (part : Part ρ) : List Bytes :=
  (ascii "Content-Disposition: form-data" ++
    (part.name.elim [] fun name => ascii "; name=\"" ++ name ++ ascii "\"") ++
    (part.fileName.elim [] fun name => ascii "; filename=\"" ++ name ++ ascii "\"")) ::
  (part.mime.map (ascii "Content-Type: " ++ ·)).toList

def Part.bodyBytes (part : Part ρ) : Bytes := MultiPartStates.currContents c part.body

variable (boundary : Bytes)

/-- A part in a multipart message: the delimiter, the header, a blank line and the body. -/
def serializePart (part : Part ρ) : Bytes :=
  ascii "--" ++ boundary ++ crlf ++ part.headers.flatMap (· ++ crlf) ++ crlf ++
    part.bodyBytes c ++ crlf

/-- The parts in order and the final delimiter. -/
def serialize (parts : List (Part ρ)) : Bytes :=
  parts.flatMap (serializePart c boundary) ++ (ascii "--" ++ boundary ++ ascii "--" ++ crlf)

theorem contents_partStates (part : Part ρ) :
    (partStates boundary part).flatMap (MultiPartState.contents c) =
      serializePart c boundary part := by
  obtain ⟨name, fileName, mime, length, body⟩ := part
  cases name <;> cases fileName <;> cases mime <;> cases body <;>
    simp [partStates, serializePart, Part.headers, Part.bodyBytes, MultiPartStates.currContents]

theorem delays_partStates (part : Part ρ) :
    ((partStates boundary part).map (MultiPartState.delays d)).sum =
      currDelays d part.body := by
  obtain ⟨name, fileName, mime, length, body⟩ := part
  cases name <;> cases fileName <;> cases mime <;> cases body <;>
    simp [partStates, currDelays]

theorem delays_flatMap_partStates (parts : List (Part ρ)) :
    ((parts.flatMap (partStates boundary)).map (MultiPartState.delays d)).sum =
      (parts.map fun part => currDelays d part.body).sum := by
  induction parts with
  | nil => rfl
  | cons part parts ih =>
    rw [flatMap_cons, map_append, sum_append, delays_partStates, ih,
      map_cons, sum_cons]

end Format

variable {m : MultiPart ρ} {poll : Poll ε} {written : Bytes}

namespace MultiPart

section Polls

variable (c : ρ → Bytes) (d : ρ → Nat)

/-- The bytes that the polls of a message will still write. -/
def contents (m : MultiPart ρ) : Bytes :=
  match m.status with
  | .never => serialize c m.boundary m.parts
  | .reading states => states.contents c
  | .finish => []

def delays (m : MultiPart ρ) : Nat :=
  match m.status with
  | .never => (m.parts.map fun part => currDelays d part.body).sum
  | .reading states => states.delays d
  | .finish => 0

theorem contents_buildStatus (h : m.status = .never) : m.buildStatus.contents c = m.contents c := by
  simp only [contents, buildStatus, h, MultiPartStates.contents, MultiPartStates.currContents,
    flatMap_append, flatMap_assoc, contents_partStates, serialize]
  simp

theorem delays_buildStatus (h : m.status = .never) : m.buildStatus.delays d = m.delays d := by
  simp only [delays, buildStatus, h, MultiPartStates.delays, map_append, sum_append,
    delays_flatMap_partStates]
  simp [currDelays]

variable {c} [AsyncRead ρ UInt8 ε]

/-- What one poll does. -/
structure Polled (c : ρ → Bytes) (m : MultiPart ρ) (buf : ReadBuf UInt8) (poll : Poll ε)
    (m' : MultiPart ρ) (written : Bytes) : Prop where
  same : m.contents c = written ++ m'.contents c
  notFailed : ∀ error, poll ≠ .failed error
  atEnd : poll = .ready → buf.unfilled ≠ 0 → written = [] → m.contents c = []
  delays : ∀ d : ρ → Nat, Wakes d → m'.delays d ≤ m.delays d
  progress : ∀ d : ρ → Nat, Wakes d → buf.unfilled ≠ 0 → m.contents c ≠ [] →
    (m'.contents c).length + m'.delays d < (m.contents c).length + m.delays d

variable (ε) in
theorem polled_nothing
    (h : buf.unfilled ≠ 0 → m.contents c = []) : Polled c m buf (.ready : Poll ε) m [] where
  same := rfl
  notFailed := nofun
  atEnd _ hroom _ := h hroom
  delays _ _ := le_refl _
  progress _ _ hroom hne := absurd (h hroom) hne

/-- The message was being read and goes on to be. -/
theorem polled_reading (hstatus : m.status = .reading s)
    (hsame : s.contents c = written ++ s'.contents c)
    (hdelays : ∀ d : ρ → Nat, Wakes d → s'.delays d ≤ s.delays d)
    (hfailed : ∀ error, poll ≠ .failed error) (hready : poll = .ready → written ≠ [])
    (hless : written = [] → ∀ d : ρ → Nat, Wakes d → s'.delays d < s.delays d) :
    Polled c m buf poll { m with status := .reading s' } written := by
  have hcontents : m.contents c = s.contents c := by
    unfold contents
    rw [hstatus]
  have hbefore : ∀ d : ρ → Nat, m.delays d = s.delays d := by
    intro d
    unfold delays
    rw [hstatus]
  refine ⟨hcontents.trans hsame, hfailed, fun hpoll _ hnil => absurd hnil (hready hpoll),
    fun d hd => (hdelays d hd).trans_eq (hbefore d).symm, fun d hd _ _ => ?_⟩
  rw [hcontents, hbefore, hsame, length_append]
  change (s'.contents c).length + s'.delays d < _
  grind [length_pos_iff]

variable (ε) in
theorem polled_finish (hstatus : m.status = .reading s)
    (hnil : written = []) (hend : s.contents c = []) :
    Polled c m buf (.ready : Poll ε) { m with status := .finish } written := by
  have hcontents : m.contents c = [] := by
    unfold contents
    rw [hstatus]
    exact hend
  subst hnil
  exact ⟨hcontents, nofun, fun _ _ _ => hcontents, fun _ _ => Nat.zero_le _,
    fun _ _ _ hne => absurd hcontents hne⟩

theorem pollReadBuilt_spec (hc : Delivers c) (m : MultiPart ρ) (hm : m.status ≠ .never)
    (buf : ReadBuf UInt8) :
    ∃ poll m' newBuf written, m.pollReadBuilt (ε := ε) buf = some (poll, m', newBuf) ∧
      newBuf.filled = buf.filled ++ written ∧ Polled c m buf poll m' written := by
  unfold pollReadBuilt
  cases hstatus : m.status with
  | never => exact absurd hstatus hm
  | finish =>
    refine ⟨.ready, m, buf, [], rfl, (append_nil _).symm, polled_nothing ε fun _ => ?_⟩
    unfold contents
    rw [hstatus]
  | reading states =>
    by_cases hroom : buf.unfilled = 0
    · exact ⟨.ready, m, buf, [], if_pos hroom, (append_nil _).symm,
        polled_nothing ε fun hne => absurd hroom hne⟩
    · obtain ⟨poll, s', newBuf, written, hpoll, hwritten, hsame, hdelays, hpolled⟩ :=
        states.pollRead_outcome (ε := ε) hc hroom
      have hgrows : buf.filled.length = newBuf.filled.length ↔ written = [] := by
        rw [hwritten, length_append, ← length_eq_zero_iff]
        omega
      dsimp only
      rw [if_neg hroom, hpoll]
      obtain ⟨rfl, hend⟩ | ⟨rfl, hless⟩ := hpolled
      · by_cases hnil : written = []
        · refine ⟨.ready, { m with status := .finish }, newBuf, written, ?_, hwritten,
            polled_finish ε hstatus hnil (by rw [hsame, hnil, hend hnil, append_nil])⟩
          grind
        · refine ⟨.ready, { m with status := .reading s' }, newBuf, written, ?_, hwritten,
            polled_reading hstatus hsame hdelays nofun (fun _ => hnil)
              fun h => absurd h hnil⟩
          grind
      · refine ⟨_, _, newBuf, written, rfl, hwritten,
          polled_reading hstatus hsame hdelays ?_ ?_ fun _ => hless⟩
        · intro error
          split <;> nofun
        grind

theorem Polled.of_buildStatus {m' : MultiPart ρ} (hm : m.status = .never)
    (h : Polled c m.buildStatus buf poll m' written) : Polled c m buf poll m' written := by
  have hcontents := contents_buildStatus c hm
  have hdelays := fun d : ρ → Nat => delays_buildStatus d hm
  refine ⟨hcontents ▸ h.same, h.notFailed, hcontents ▸ h.atEnd, fun d hd => ?_, fun d hd => ?_⟩
  · exact (h.delays d hd).trans_eq (hdelays d)
  · rw [← hcontents, ← hdelays d]
    exact h.progress d hd

theorem pollRead_spec (hc : Delivers c) (m : MultiPart ρ) (buf : ReadBuf UInt8) :
    ∃ poll m' newBuf written, m.pollRead (ε := ε) buf = some (poll, m', newBuf) ∧
      newBuf.filled = buf.filled ++ written ∧ Polled c m buf poll m' written := by
  have hbuilt := fun h => pollReadBuilt_spec (ε := ε) hc m h buf
  unfold pollRead
  cases hstatus : m.status with
  | never =>
    obtain ⟨poll, m', newBuf, written, hpoll, hwritten, hpolled⟩ :=
      pollReadBuilt_spec (ε := ε) hc m.buildStatus nofun buf
    grind [@hpolled.of_buildStatus]
  | reading states => exact hbuilt (by rw [hstatus]; nofun)
  | finish =>
    grind [pollReadBuilt]

/-- What a caller has got after some polls. -/
structure Reported (c : ρ → Bytes) (m : MultiPart ρ) (bufs : List (ReadBuf UInt8))
    (reports : List (Report ε)) (m' : MultiPart ρ) : Prop where
  same : m.contents c = reports.flatMap Report.written ++ m'.contents c
  notFailed : ∀ report ∈ reports, ∀ error, report.poll ≠ .failed error
  atEnd : ∀ report ∈ reports, report.room ≠ 0 → report.poll = .ready → report.written = [] →
    m'.contents c = []
  complete : ∀ d : ρ → Nat, Wakes d →
    (m.contents c).length + m.delays d ≤ bufs.countP (fun buf => buf.unfilled != 0) →
      m'.contents c = []

theorem Polled.reported {m₁ m' : MultiPart ρ}
    {bufs : List (ReadBuf UInt8)} {reports : List (Report ε)}
    (hfirst : Polled c m buf poll m₁ written) (hrest : Reported c m₁ bufs reports m') :
    Reported c m (buf :: bufs)
      ({ room := buf.unfilled, poll := poll, written := written } :: reports) m' := by
  have hsame : m.contents c =
      written ++ (reports.flatMap Report.written ++ m'.contents c) := by
    rw [hfirst.same, hrest.same]
  have hnil : m.contents c = [] → m'.contents c = [] := by
    grind [append_eq_nil_iff]
  refine ⟨?_, ?_, ?_, fun d hd hle => ?_⟩
  · rw [flatMap_cons, append_assoc]
    exact hsame
  · grind [@hfirst.notFailed, @hrest.notFailed]
  · grind [@hfirst.atEnd, @hrest.atEnd]
  · by_cases hempty : m.contents c = []
    · exact hnil hempty
    · rw [countP_cons] at hle
      apply hrest.complete d hd
      by_cases hroom : buf.unfilled = 0
      · have hless := hfirst.delays d hd
        grind [@hfirst.same]
      · have hless := hfirst.progress d hd hroom hempty
        grind

theorem polls_spec (hc : Delivers c) (bufs : List (ReadBuf UInt8)) (m : MultiPart ρ) :
    ∃ reports m', polls (ε := ε) bufs m = some (reports, m') ∧ Reported c m bufs reports m' := by
  induction bufs generalizing m with
  | nil =>
    refine ⟨[], m, rfl, rfl, nofun, nofun, fun d _ hle => ?_⟩
    rw [countP_nil] at hle
    exact length_eq_zero_iff.1 (by omega)
  | cons buf bufs ih =>
    obtain ⟨poll, m₁, newBuf, written, hpoll, hwritten, hpolled⟩ :=
      pollRead_spec (ε := ε) hc m buf
    obtain ⟨reports, m', hpolls, hreported⟩ := ih m₁
    refine ⟨_, m', ?_, hpolled.reported hreported⟩
    simp [polls, hpoll, hpolls, hwritten]

end Polls

section TotalBytes

variable (c : ρ → Bytes) (boundary : Bytes)

/-- How many bytes of a part are not its body. -/
def overhead (part : Part ρ) : Nat :=
  boundary.length + (part.name.elim 0 fun name => 9 + name.length) +
    (part.fileName.elim 0 fun name => 13 + name.length) +
    (part.mime.elim 0 fun mime => 16 + mime.length) + 40

theorem length_serializePart (part : Part ρ) :
    (serializePart c boundary part).length =
      (part.bodyBytes c).length + overhead boundary part := by
  have hdelimiter : (ascii "--").length = 2 := by decide
  have hcrlf : crlf.length = 2 := by decide
  have hdisposition : (ascii "Content-Disposition: form-data").length = 30 := by decide
  have hname : (ascii "; name=\"").length = 8 := by decide
  have hfileName : (ascii "; filename=\"").length = 12 := by decide
  have hquote : (ascii "\"").length = 1 := by decide
  have htype : (ascii "Content-Type: ").length = 14 := by decide
  obtain ⟨name, fileName, mime, length, body⟩ := part
  cases name <;> cases fileName <;> cases mime <;>
    simp only [serializePart, Part.headers, overhead, Part.bodyBytes, Option.elim, map_none,
      map_some, toList_none, toList_some, flatMap_cons,
      flatMap_nil, length_append, length_nil, hdelimiter, hcrlf, hdisposition,
      hname, hfileName, hquote, htype] <;> omega

theorem addPart_eq (size : UInt64) (part : Part ρ) :
    addPart boundary size part =
      part.length.map fun length => size + length + ofNat (overhead boundary part) := by
  obtain ⟨name, fileName, mime, length, body⟩ := part
  cases length with
  | none => rfl
  | some length =>
    refine congrArg some (UInt64.toNat_inj.1 ?_)
    cases name <;> cases fileName <;> cases mime <;> simp [overhead] <;> omega

/-- The length of the body is declared. -/
def Declared (part : Part ρ) : Prop :=
  ∃ length, part.length = some length ∧ length.toNat = (part.bodyBytes c).length

variable {c}

theorem addPart_of_declared {part : Part ρ} (h : Declared c part) (n : Nat) :
    addPart boundary (ofNat n) part =
      some (ofNat (n + (serializePart c boundary part).length)) := by
  obtain ⟨length, hlength, hbody⟩ := h
  have hsize : length = ofNat (part.bodyBytes c).length := by
    rw [← hbody, UInt64.ofNat_toNat]
  rw [addPart_eq, hlength, map_some, hsize, length_serializePart, ← ofNat_add,
    ← ofNat_add, Nat.add_assoc]

theorem foldlM_addPart {parts : List (Part ρ)} (h : ∀ part ∈ parts, Declared c part) (n : Nat) :
    parts.foldlM (addPart boundary) (ofNat n) =
      some (ofNat (n + (parts.flatMap (serializePart c boundary)).length)) := by
  induction parts generalizing n with
  | nil => rfl
  | cons part parts ih =>
    rw [foldlM_cons, addPart_of_declared boundary (h part mem_cons_self)]
    refine (ih (fun other hother => h other (mem_cons_of_mem _ hother)) _).trans ?_
    grind

/-- The size is the length of the message, as a number of 64 bits. -/
theorem totalBytes_eq (h : ∀ part ∈ m.parts, Declared c part) :
    m.totalBytes = some (ofNat (serialize c m.boundary m.parts).length) := by
  have hfold := foldlM_addPart m.boundary h 0
  have hlast : (ascii "--" ++ m.boundary ++ ascii "--" ++ crlf).length =
      2 + m.boundary.length + 4 := by
    simp only [length_append]
    exact rfl
  unfold totalBytes
  rw [show (0 : UInt64) = ofNat 0 from rfl, hfold]
  refine congrArg some ?_
  rw [serialize, length_append, hlast, ofNat_add _ (2 + _ + 4),
    ofNat_add _ 4, ofNat_add 2, Nat.zero_add]
  rfl

end TotalBytes

/-- The polls of a message write it from the beginning, they say that they are at the end when it
is written, and with enough room it gets written. If the lengths of the bodies are declared, the
size is that of the message as long as it is a number of 64 bits. -/
theorem polls_write_message [AsyncRead ρ UInt8 ε] {c : ρ → Bytes} (hc : Delivers c)
    (boundary : Bytes) (parts : List (Part ρ)) (bufs : List (ReadBuf UInt8)) :
    (∃ reports m', polls (ε := ε) bufs { parts := parts, boundary := boundary } =
        some (reports, m') ∧
      reports.flatMap Report.written <+: serialize c boundary parts ∧
      (∀ report ∈ reports, ∀ error, report.poll ≠ .failed error) ∧
      ((∃ report ∈ reports, report.room ≠ 0 ∧ report.poll = .ready ∧ report.written = []) →
        reports.flatMap Report.written = serialize c boundary parts) ∧
      ∀ d : ρ → Nat, Wakes d →
        (serialize c boundary parts).length +
            (parts.map fun part => currDelays d part.body).sum ≤
          bufs.countP (fun buf => buf.unfilled != 0) →
        reports.flatMap Report.written = serialize c boundary parts) ∧
    ((∀ part ∈ parts, Declared c part) →
      ∃ total, totalBytes { parts := parts, boundary := boundary } = some total ∧
        total.toNat = (serialize c boundary parts).length % 2 ^ 64) := by
  constructor
  · obtain ⟨reports, m', hpolls, hreported⟩ :=
      polls_spec (ε := ε) hc bufs { parts := parts, boundary := boundary }
    have hsame : serialize c boundary parts =
        reports.flatMap Report.written ++ m'.contents c := hreported.same
    have hall : m'.contents c = [] →
        reports.flatMap Report.written = serialize c boundary parts := by
      intro hnil
      rw [hsame, hnil, append_nil]
    refine ⟨reports, m', hpolls, ?_, hreported.notFailed, ?_, fun d hd hle => ?_⟩
    · rw [hsame]
      exact prefix_append _ _
    · rintro ⟨report, hreport, hroom, hready, hwritten⟩
      exact hall (hreported.atEnd report hreport hroom hready hwritten)
    · exact hall (hreported.complete d hd hle)
  · intro hdeclared
    exact ⟨_, totalBytes_eq (m := { parts := parts, boundary := boundary }) hdeclared,
      toNat_ofNat⟩

/-- A text, and a body that is pending twice and comes in pieces. -/
def sampleParts : List (Part (ScriptedReader UInt8)) :=
  [Part.setBody { name := some (ascii "n") } (ascii "ab"),
    Part.setStream { fileName := some (ascii "f"), mime := some (ascii "t"), length := some 3 }
      { rest := ascii "xyz", script := [none, some 0, none, some 1] }]

theorem polls_write_sampleParts :
    (polls (List.replicate 200 (empty UInt8 1))
        { parts := sampleParts, boundary := ascii "b" }).map
      (fun p => p.1.flatMap Report.written) =
        some (serialize ScriptedReader.rest (ascii "b") sampleParts) := by
  obtain ⟨⟨reports, m', hpolls, -, -, -, hcomplete⟩, -⟩ :=
    polls_write_message ScriptedReader.delivers (ascii "b") sampleParts
      (List.replicate 200 (empty UInt8 1))
  rw [hpolls, map_some, hcomplete ScriptedReader.delays ScriptedReader.wakes]
  decide +kernel

/-- A body of zeros whose length is declared. -/
def zeros (n : Nat) : Part (ScriptedReader UInt8) :=
  { length := some (ofNat n), body := some (.stream { rest := List.replicate n 0 }) }

/-- Two bodies that are declared and together too long for the size. -/
theorem totalBytes_too_small :
    Declared ScriptedReader.rest (zeros (2 ^ 63)) ∧
      (totalBytes { parts := [zeros (2 ^ 63), zeros (2 ^ 63)], boundary := [] }).map toNat ≠
        some (serialize ScriptedReader.rest [] [zeros (2 ^ 63), zeros (2 ^ 63)]).length := by
  have hbody : ((zeros (2 ^ 63)).bodyBytes ScriptedReader.rest).length = 2 ^ 63 :=
    length_replicate
  have hdeclared : Declared ScriptedReader.rest (zeros (2 ^ 63)) :=
    ⟨ofNat (2 ^ 63), rfl, hbody.symm⟩
  refine ⟨hdeclared, ?_⟩
  have hlong : 2 ^ 64 ≤
      (serialize ScriptedReader.rest [] [zeros (2 ^ 63), zeros (2 ^ 63)]).length := by
    simp only [serialize, flatMap_cons, flatMap_nil, length_append,
      length_serializePart, hbody]
    omega
  rw [totalBytes_eq (c := ScriptedReader.rest) (by simpa using hdeclared), map_some]
  intro heq
  rw [← Option.some.inj heq] at hlong
  exact absurd (toNat_lt _) (not_lt.2 hlong)

end MultiPart

end Netstack.Uploader
