import Netstack.Foundation.Execution
import Netstack.Foundation.Ranges

/-!
# Sending data over a TLS socket

`PollSend` hands the data to `SSL_write` piece by piece. When `SSL_write` asks for another try,
`SendRetry` makes it, and `PollSend` then moves its cursor by the negative length of the first try.

## Implementation notes

A round holds what `poll` and `SSL_write` answer; the turns of `SendRetry` that are not listed are
timeouts. The cursor may leave the data. The size is an `int` that wraps around when it overflows.
-/

namespace Netstack.TlsSocket.Sends

open Foundation Foundation.Execution

def defaultBufferSize : Int := 8192

def sendRetryTimes : Nat := 5

/-- A result of `SSL_write`: at least one byte and at most all of them, nothing, or a negative
number with what `SSL_get_error` and `errno` say. -/
inductive Written where
  | accepted (more : Nat)
  | nothing
  | failed (below : Fin (2 ^ 31)) (wantWrite again : Bool)
  deriving DecidableEq, Repr

/-- The results of `poll` and `SSL_write` in one turn of `SendRetry`. -/
structure Retry where
  poll : Int := 1
  /-- `errno` is `EAGAIN` or `EINTR` after `poll`. -/
  pollAgain : Bool := false
  write : Written
  deriving DecidableEq, Repr

/-- The results in one turn of `PollSend`. -/
structure Round where
  poll : Int := 1
  pollAgain : Bool := false
  write : Written
  retries : List Retry := []
  deriving DecidableEq, Repr

/-- The number of bytes that are accepted of those that are offered. -/
def accept (more : Nat) (size : Int) : Nat := min (more + 1) size.toNat

def sendRetryLoop (curSendSize : Int) : List Retry → Option Nat
  | [] => none
  | r :: retries =>
    if r.poll < 0 then if r.pollAgain then sendRetryLoop curSendSize retries else none
    else if r.poll = 0 then sendRetryLoop curSendSize retries
    else
      match r.write with
      | .failed _ wantWrite again =>
        if wantWrite || again then sendRetryLoop curSendSize retries else none
      | .nothing => none
      | .accepted more => some (accept more curSendSize)

/-- The number of bytes that were accepted, if it succeeds. -/
def sendRetry (curSendSize : Int) (retries : List Retry) : Option Nat :=
  sendRetryLoop curSendSize (retries.take (sendRetryTimes + 1))

/-- The state of `PollSend`: the cursor, the bytes that are left, the ranges that were accepted and
whether it has returned `false`. -/
structure State where
  curPos : Int := 0
  sendSize : Int
  sent : List (Int × Nat) := []
  failed : Bool := false
  deriving DecidableEq, Repr

/-- A size as an `int`. -/
def intOf (size : Int) : Int := Int.bmod size (2 ^ 32)

def start (ssl : Bool) (size : Nat) : State := { sendSize := intOf size, failed := !ssl }

variable (s : State)

def State.returned : Option Bool :=
  if s.failed then some false else if s.sendSize ≤ 0 then some true else none

/-- The range at the cursor is accepted, and the cursor is moved by the length of the first try. -/
def State.moved (length : Nat) (len : Int) : State :=
  { s with
    curPos := s.curPos + len
    sendSize := intOf (s.sendSize - len)
    sent := s.sent ++ [(s.curPos, length)] }

/-- One turn of the loop. -/
def State.turn (r : Round) : State :=
  if r.poll < 0 then if r.pollAgain then s else { s with failed := true }
  else if r.poll = 0 then s
  else
    let curSendSize := min s.sendSize defaultBufferSize
    match r.write with
    | .failed below wantWrite again =>
      if !wantWrite || !again then { s with failed := true }
      else
        match sendRetry curSendSize r.retries with
        | none => { s with failed := true }
        | some length => s.moved length (-(below + 1))
    | .nothing => { s with failed := true }
    | .accepted more =>
      let length := accept more curSendSize
      s.moved length length

def step (r : Round) : Option State :=
  if s.returned = none then some (s.turn r) else none

/-! ### What a turn does -/

/-- The number of bytes that are accepted in a turn, if any. -/
def State.taken (r : Round) : Option Nat :=
  if r.poll ≤ 0 then none
  else
    match r.write with
    | .failed _ wantWrite again =>
      if wantWrite && again then sendRetry (min s.sendSize defaultBufferSize) r.retries else none
    | .nothing => none
    | .accepted more => some (accept more (min s.sendSize defaultBufferSize))

/-- The turn has a range accepted and is the last one: it has all that is left accepted, or the size
overflows when the cursor is moved back. -/
def State.Ends (r : Round) : Prop :=
  match r.write with
  | .accepted _ => s.taken r = some s.sendSize.toNat
  | .nothing => False
  | .failed below _ _ => s.taken r ≠ none ∧ 2 ^ 31 ≤ s.sendSize + (below + 1)

instance (s : State) (r : Round) : Decidable (s.Ends r) := by
  unfold State.Ends
  cases r.write <;> infer_instance

/-- A turn waits, gives up, or has a range accepted. -/
inductive Turns (s : State) (r : Round) : State → Prop
  | waits (htaken : s.taken r = none) : Turns s r s
  | fails (htaken : s.taken r = none) : Turns s r { s with failed := true }
  | writes (length more : Nat) (htaken : s.taken r = some length)
      (hwrite : r.write = .accepted more) : Turns s r (s.moved length length)
  | retries (length : Nat) (below : Fin (2 ^ 31)) (wantWrite again : Bool)
      (htaken : s.taken r = some length) (hwrite : r.write = .failed below wantWrite again) :
      Turns s r (s.moved length (-(below + 1)))

open State

theorem turns_turn (r : Round) : Turns s r (s.turn r) := by
  rw [turn]
  by_cases hneg : r.poll < 0
  · have htaken : s.taken r = none := by rw [taken, if_pos hneg.le]
    rw [if_pos hneg]
    split
    · exact .waits htaken
    · exact .fails htaken
  rw [if_neg hneg]
  by_cases hzero : r.poll = 0
  · rw [if_pos hzero]
    exact .waits (by rw [taken, if_pos hzero.le])
  rw [if_neg hzero]
  have hpos : ¬ r.poll ≤ 0 := by omega
  cases hwrite : r.write with
  | accepted more =>
    refine .writes _ more ?_ hwrite
    simp only [taken, if_neg hpos, hwrite]
  | nothing =>
    refine .fails ?_
    simp only [taken, if_neg hpos, hwrite]
  | failed below wantWrite again =>
    by_cases hagain : (wantWrite && again) = true
    · have htaken : s.taken r = sendRetry (min s.sendSize defaultBufferSize) r.retries := by
        simp only [taken, if_neg hpos, hwrite, if_pos hagain]
      have hgo : ¬ (!wantWrite || !again) = true := by simpa using hagain
      simp only [if_neg hgo]
      cases hretry : sendRetry (min s.sendSize defaultBufferSize) r.retries with
      | none => exact .fails (htaken.trans hretry)
      | some length =>
        exact .retries length below wantWrite again (htaken.trans hretry) hwrite
    · have hstop : (!wantWrite || !again) = true := by simpa [imp_iff_not_or] using hagain
      simp only [if_pos hstop]
      refine .fails ?_
      simp only [taken, if_neg hpos, hwrite, if_neg hagain]

variable {s t : State} {r : Round}

theorem turns_of_step (h : step s r = some t) : s.returned = none ∧ Turns s r t := by
  obtain ⟨hreturned, hturn⟩ := Option.ite_none_right_eq_some.mp h
  cases hturn
  exact ⟨hreturned, turns_turn s r⟩

theorem State.returned_eq_none_iff (s : State) :
    s.returned = none ↔ s.failed = false ∧ 0 < s.sendSize := by
  grind [returned]

theorem accept_le (more : Nat) (size : Int) : accept more size ≤ size.toNat := Nat.min_le_right _ _

variable {length : Nat}

theorem sendRetryLoop_le {size : Int} {retries : List Retry}
    (h : sendRetryLoop size retries = some length) : length ≤ size.toNat := by
  induction retries with
  | nil => cases h
  | cons r retries ih =>
    grind [sendRetryLoop, accept_le]

theorem State.taken_le (h : s.taken r = some length) : length ≤ s.sendSize.toNat := by
  have hchunk : (min s.sendSize defaultBufferSize).toNat ≤ s.sendSize.toNat :=
    Int.toNat_le_toNat (min_le_left _ _)
  refine le_trans ?_ hchunk
  obtain ⟨-, h⟩ := Option.ite_none_left_eq_some.mp h
  cases hwrite : r.write with
  | accepted more =>
    grind [accept_le]
  | nothing =>
    rw [hwrite] at h
    cases h
  | failed below wantWrite again =>
    rw [hwrite] at h
    exact sendRetryLoop_le (Option.ite_none_right_eq_some.mp h).2

/-- An `int` that does not overflow upwards, and one that does once. -/
theorem intOf_eq {size : Int} (hlow : 0 ≤ size) (hhigh : size < 2 ^ 32) :
    intOf size = if size < 2 ^ 31 then size else size - 2 ^ 32 := by
  rw [intOf, Int.bmod_def]
  push_cast
  split_ifs <;> omega

theorem intOf_le (size : Nat) : intOf size ≤ size ∧ intOf size < 2 ^ 31 := by
  rw [intOf, Int.bmod_def]
  push_cast
  split_ifs <;> omega

/-! ### The ranges that are accepted -/

/-- The accepted ranges make up a beginning of the data, and all of it if `true` was returned. -/
def Intact (size : Nat) (s : State) : Prop :=
  (∃ n ≤ size, Tiles s.sent 0 n) ∧ (s.returned = some true → Tiles s.sent 0 size)

variable {size : Nat}

/-- What the accepted ranges hold is then a beginning of the data, or all of it. -/
theorem Intact.bytes (h : Intact size s) (memory : Int → UInt8) :
    (s.sent.flatMap fun r => cells memory r.1 r.2) <+: cells memory 0 size ∧
      (s.returned = some true →
        (s.sent.flatMap fun r => cells memory r.1 r.2) = cells memory 0 size) := by
  obtain ⟨⟨n, hn, htiles⟩, hall⟩ := h
  constructor
  · have hend := htiles.end_eq
    obtain ⟨rest, rfl⟩ := Nat.exists_eq_add_of_le hn
    rw [htiles.flatMap_cells, cells_add, show covered s.sent = n by omega]
    exact List.prefix_append _ _
  · intro htrue
    have hend := (hall htrue).end_eq
    rw [htiles.flatMap_cells, show covered s.sent = size by omega]

/-- A turn in which something is accepted starts with the cursor behind all that was accepted
before, and the last one comes to the end of the data. -/
def Steady (size : Nat) (s : State) (r : Round) : Prop :=
  ∀ length ∈ s.taken r, s.curPos = covered s.sent ∧ (s.Ends r → s.curPos + length = size)

instance (size : Nat) (s : State) (r : Round) : Decidable (Steady size s r) :=
  inferInstanceAs (Decidable (∀ _ ∈ s.taken r, _ ∧ (_ → _)))

/-- The bytes that are left are an `int`, and with the cursor they make up the size. -/
structure Balanced (size : Nat) (s : State) : Prop where
  sendSize_lt : s.sendSize < 2 ^ 31
  sum : 0 < s.sendSize → s.curPos + s.sendSize = intOf size

theorem balanced_start (ssl : Bool) (size : Nat) : Balanced size (start ssl size) := by
  constructor
  · simpa only [start] using (intOf_le size).2
  · simp only [start, zero_add, implies_true]

/-- What is accepted is taken off the size. -/
theorem Balanced.write (h : Balanced size s) (hleft : 0 < s.sendSize)
    (hle : length ≤ s.sendSize.toNat) :
    (s.moved length length).sendSize = s.sendSize - length ∧
      Balanced size (s.moved length length) := by
  obtain ⟨hlt, hsum⟩ := h
  have heq : (s.moved length length).sendSize = s.sendSize - length := by
    rw [State.moved, intOf_eq (by omega) (by omega), if_pos (by omega)]
  refine ⟨heq, ⟨by omega, fun _ => ?_⟩⟩
  have hsum' := hsum hleft
  simp only [State.moved] at heq ⊢
  omega

/-- A retry adds to the size, which may overflow. -/
theorem Balanced.retry (h : Balanced size s) (hleft : 0 < s.sendSize) (length : Nat)
    (below : Fin (2 ^ 31)) :
    ((s.moved length (-(below + 1))).sendSize ≤ 0 ↔ 2 ^ 31 ≤ s.sendSize + (below + 1)) ∧
      Balanced size (s.moved length (-(below + 1))) := by
  obtain ⟨hlt, hsum⟩ := h
  have hbelow := below.isLt
  have heq : (s.moved length (-(below + 1))).sendSize =
      if s.sendSize + (below + 1) < 2 ^ 31 then s.sendSize + (below + 1)
      else s.sendSize + (below + 1) - 2 ^ 32 := by
    rw [State.moved, sub_neg_eq_add, intOf_eq (by omega) (by omega)]
  have hsum' := hsum hleft
  refine ⟨?_, ⟨?_, fun hpos => ?_⟩⟩
  · rw [heq]
    split_ifs <;> omega
  · rw [heq]
    split_ifs <;> omega
  · rw [heq] at hpos ⊢
    simp only [State.moved]
    split_ifs at hpos ⊢ <;> omega

theorem Balanced.step (h : Balanced size s) (hstep : step s r = some t) : Balanced size t := by
  obtain ⟨hnone, hturns⟩ := turns_of_step hstep
  obtain ⟨-, hleft⟩ := s.returned_eq_none_iff.mp hnone
  cases hturns with
  | waits _ => exact h
  | fails _ => exact ⟨h.sendSize_lt, h.sum⟩
  | writes length more htaken _ => exact (h.write hleft (taken_le htaken)).2
  | retries length below _ _ _ _ => exact (h.retry hleft length below).2

/-- A range is accepted in its place exactly if the cursor is behind all that was accepted. -/
theorem prefix_moved_iff (h : ∃ n ≤ size, Tiles s.sent 0 n)
    (hbalanced : Balanced size s) (hle : length ≤ s.sendSize.toNat)
    (hleft : 0 < s.sendSize) (len : Int) :
    (∃ n ≤ size, Tiles (s.moved length len).sent 0 n) ↔ s.curPos = covered s.sent := by
  obtain ⟨n, hn, htiles⟩ := h
  have hsize := (intOf_le size).1
  have hsum := hbalanced.sum hleft
  simp only [State.moved, tiles_concat_iff, htiles.iff_covered, zero_add]
  constructor
  · rintro ⟨_, -, hcursor, -⟩
    exact hcursor
  · intro hcursor
    exact ⟨covered s.sent + length, by omega, hcursor, by push_cast; omega⟩

/-- A turn that has a range accepted and ends as expected is intact exactly if it is steady. -/
theorem intact_moved_iff (h : ∃ n ≤ size, Tiles s.sent 0 n) (hbalanced : Balanced size s)
    (hleft : 0 < s.sendSize) (htaken : s.taken r = some length) {len : Int}
    (hends : (s.moved length len).returned = some true ↔ s.Ends r) :
    Intact size (s.moved length len) ↔ Steady size s r := by
  have hwhole : Tiles (s.moved length len).sent 0 size ↔
      s.curPos = covered s.sent ∧ (size : Int) = s.curPos + length := by
    obtain ⟨n, -, htiles⟩ := h
    simp only [State.moved, tiles_concat_iff, htiles.iff_covered, zero_add]
  have hsteady : Steady size s r ↔
      s.curPos = covered s.sent ∧ (s.Ends r → s.curPos + length = size) := by
    simp [Steady, htaken]
  rw [Intact, prefix_moved_iff h hbalanced (taken_le htaken) hleft, hwhole, hends, hsteady]
  grind

theorem intact_of_returned_none (h : s.returned = none) :
    Intact size s ↔ ∃ n ≤ size, Tiles s.sent 0 n := by
  simp [Intact, h]

theorem State.returned_moved (hfailed : s.failed = false) (length : Nat) (len : Int) :
    (s.moved length len).returned = some true ↔ (s.moved length len).sendSize ≤ 0 := by
  simp [returned, State.moved, hfailed]

theorem intact_step_iff (hbalanced : Balanced size s)
    (h : Intact size s) (hstep : step s r = some t) : Intact size t ↔ Steady size s r := by
  obtain ⟨hnone, hturns⟩ := turns_of_step hstep
  obtain ⟨hfailed, hleft⟩ := s.returned_eq_none_iff.mp hnone
  cases hturns with
  | waits htaken => exact iff_of_true h (by simp [Steady, htaken])
  | fails htaken => exact iff_of_true ⟨h.1, nofun⟩ (by simp [Steady, htaken])
  | writes length more htaken hwrite =>
    refine intact_moved_iff h.1 hbalanced hleft htaken ?_
    have hle := taken_le htaken
    rw [returned_moved hfailed, (hbalanced.write hleft hle).1, State.Ends, hwrite, htaken]
    simp only [Option.some.injEq]
    omega
  | retries length below wantWrite again htaken hwrite =>
    refine intact_moved_iff h.1 hbalanced hleft htaken ?_
    rw [returned_moved hfailed, (hbalanced.retry hleft length below).1, State.Ends, hwrite, htaken]
    simp

/-- What is not a beginning of the data does not become one. -/
theorem intact_of_step (hstep : step s r = some t) (h : Intact size t) : Intact size s := by
  obtain ⟨hnone, hturns⟩ := turns_of_step hstep
  rw [intact_of_returned_none hnone]
  have hshorter (length : Nat) (len : Int)
      (hmoved : ∃ n ≤ size, Tiles (s.moved length len).sent 0 n) :
      ∃ n ≤ size, Tiles s.sent 0 n := by
    obtain ⟨n, hn, htiles⟩ := hmoved
    obtain ⟨hbefore, hend⟩ := tiles_concat_iff.mp htiles
    have hcursor := hbefore.end_eq
    simp only [zero_add] at hcursor hend
    exact ⟨covered s.sent, by omega, hcursor ▸ hbefore⟩
  cases hturns with
  | waits _ => exact h.1
  | fails _ => exact h.1
  | writes length _ _ _ => exact hshorter length _ h.1
  | retries length below _ _ _ _ => exact hshorter length _ h.1

theorem intact_start_iff (ssl : Bool) (size : Nat) :
    Intact size (start ssl size) ↔ (ssl = true → size ≠ 0 → 0 < intOf size) := by
  have hempty : ∃ n ≤ size, Tiles (start ssl size).sent 0 n := ⟨0, Nat.zero_le size, rfl⟩
  rw [Intact, and_iff_right hempty]
  cases ssl with
  | false => simp [returned, start]
  | true =>
    have hreturned : (start true size).returned = some true ↔ intOf size ≤ 0 := by
      simp [returned, start]
    grind [Tiles, start]

/-- The accepted ranges are a beginning of the data, and all of it when `true` is returned, if and
only if the size is a positive number as an `int` and every turn is steady. -/
theorem pollSend_intact_iff (ssl : Bool) (size : Nat) (rounds : List Round) (t : State)
    (hrun : rounds.foldlM step (start ssl size) = some t) :
    Intact size t ↔
      (ssl = true → size ≠ 0 → 0 < intOf size) ∧
        Meets step (Steady size) rounds (start ssl size) := by
  have hbalanced := balanced_start ssl size
  rw [← throughout_iff_finish (fun s r t hstep ht => intact_of_step hstep ht) hrun,
    ← intact_start_iff]
  have hiff (hstart : Intact size (start ssl size)) :
      Throughout step (Intact size) rounds (start ssl size) ↔
        Meets step (Steady size) rounds (start ssl size) :=
    throughout_iff_meets (J := Balanced size) (fun s r t hs hstep => hs.step hstep)
      (fun s r t hs hintact hstep => intact_step_iff hs hintact hstep) rounds hbalanced hstart
  constructor
  · intro h
    exact ⟨h.start, (hiff h.start).mp h⟩
  grind

section Instances

/-- `SSL_write` accepts up to so many bytes. -/
def writes (length : Nat) : Round := { write := .accepted (length - 1) }

/-- `SSL_write` asks for another try, which accepts up to so many bytes. -/
def retriedWrites (length : Nat) : Round :=
  { write := .failed 0 true true, retries := [{ write := .accepted (length - 1) }] }

end Instances

theorem twoPieces_intact :
    ∃ t, [writes 2, writes 1].foldlM step (start true 3) = some t ∧ t.returned = some true ∧
      Intact 3 t := by
  refine ⟨{ curPos := 3, sendSize := 0, sent := [(0, 2), (2, 1)] }, by decide, by decide, ?_⟩
  exact (pollSend_intact_iff true 3 [writes 2, writes 1] _ (by decide)).mpr
    ⟨fun _ _ => by decide, by decide⟩

/-- Three bytes are accepted in the second try, and then once more with the byte before them. -/
theorem retriedPiece_repeated :
    ∃ t, [retriedWrites 3, writes 4].foldlM step (start true 3) = some t ∧
      t.returned = some true ∧ t.sent = [(0, 3), (-1, 4)] ∧
      (∀ memory : Int → UInt8,
        (t.sent.flatMap fun r => cells memory r.1 r.2) ≠ cells memory 0 3) ∧
      ¬ Intact 3 t := by
  refine ⟨{ curPos := 3, sendSize := 0, sent := [(0, 3), (-1, 4)] }, by decide, by decide, rfl,
    fun memory hsame => ?_, fun hintact => ?_⟩
  · have hlength := congrArg List.length hsame
    simp [cells] at hlength
  · exact absurd (hintact.2 (by decide)) (by decide)

end Netstack.TlsSocket.Sends
