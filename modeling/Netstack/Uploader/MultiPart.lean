import Netstack.Foundation.AsyncReaders
import Netstack.Foundation.ByteStrings
import Netstack.Foundation.Execution

/-!
# Multipart bodies of the uploader

A `MultiPart` is read by polling. At the first poll it becomes a queue of states, each of which is
a literal text or the body of a part, and every poll fills the buffer from the front of the queue.

## Implementation notes

The loop of `MultiPartStates::poll_read` is executed for at most as many rounds as there are states
and bytes of room.
-/

namespace Netstack.Uploader

open Foundation Foundation.Execution

inductive Poll (ε : Type) where
  | ready
  | failed (error : ε)
  | pending
  deriving DecidableEq, Repr

structure Cursor where
  bytes : Bytes
  position : Nat := 0

def Cursor.read (cursor : Cursor) (n : Nat) : Bytes × Cursor :=
  let new := (cursor.bytes.drop cursor.position).take n
  (new, { cursor with position := cursor.position + new.length })

inductive MultiPartState (ρ : Type) where
  | bytes (cursor : Cursor)
  | stream (reader : ρ)

variable {ρ ε : Type}

def MultiPartState.ofBytes (bytes : Bytes) : MultiPartState ρ := .bytes { bytes := bytes }

structure MultiPartStates (ρ : Type) where
  states : List (MultiPartState ρ)
  curr : Option (MultiPartState ρ) := none

namespace MultiPartStates

def pollReadCurr [AsyncRead ρ UInt8 ε] (s : MultiPartStates ρ) (buf : ReadBuf UInt8) :
    Poll ε × MultiPartStates ρ × ReadBuf UInt8 :=
  match s.curr with
  | none => (.ready, s, buf)
  | some (.bytes cursor) =>
    let (new, cursor) := cursor.read buf.unfilled
    (.ready, { s with curr := if buf.unfilled ≤ new.length then some (.bytes cursor) else none },
      buf.fill new)
  | some (.stream stream) =>
    match AsyncRead.pollRead stream buf.unfilled with
    | .ready items stream =>
      (.ready,
        { s with
          curr := if buf.filled.length ≠ (buf.fill items).filled.length then
            some (.stream stream) else none },
        buf.fill items)
    | .pending stream => (.pending, { s with curr := some (.stream stream) }, buf)
    | .failed error => (.failed error, { s with curr := none }, buf)

/-- The current state, or else the next one of the queue. -/
def takeNext (s : MultiPartStates ρ) : Option (MultiPartStates ρ) :=
  match s.curr, s.states with
  | some _, _ => some s
  | none, [] => none
  | none, state :: states => some { states := states, curr := some state }

/-- The variables of the loop; a result says that it was left by `break` or `return`. -/
structure Loop (ρ ε : Type) where
  states : MultiPartStates ρ
  buf : ReadBuf UInt8
  result : Option (Poll ε) := none

def Loop.cond (l : Loop ρ ε) : Bool := l.result.isNone && l.buf.unfilled != 0

def Loop.body [AsyncRead ρ UInt8 ε] (l : Loop ρ ε) : Loop ρ ε :=
  match l.states.takeNext with
  | none => { l with result := some .ready }
  | some s =>
    match s.pollReadCurr (ε := ε) l.buf with
    | (.ready, s, buf) => { states := s, buf := buf }
    | (poll, s, buf) => { states := s, buf := buf, result := some poll }

/-- How many states are left. -/
def count (s : MultiPartStates ρ) : Nat := s.states.length + s.curr.toList.length

def pollRead [AsyncRead ρ UInt8 ε] (s : MultiPartStates ρ) (buf : ReadBuf UInt8) :
    Option (Poll ε × MultiPartStates ρ × ReadBuf UInt8) :=
  (whileLoop Loop.cond (Loop.body (ε := ε)) (s.count + buf.unfilled + 1)
      { states := s, buf := buf }).map fun l => (l.result.getD .ready, l.states, l.buf)

end MultiPartStates

structure Part (ρ : Type) where
  name : Option Bytes := none
  fileName : Option Bytes := none
  mime : Option Bytes := none
  length : Option UInt64 := none
  body : Option (MultiPartState ρ) := none

/-- The builder method `body`. -/
def Part.setBody (part : Part ρ) (body : Bytes) : Part ρ :=
  { part with length := some (UInt64.ofNat body.length), body := some (.ofBytes body) }

/-- The builder method `stream`. -/
def Part.setStream (part : Part ρ) (body : ρ) : Part ρ := { part with body := some (.stream body) }

inductive ReadStatus (ρ : Type) where
  | never
  | reading (states : MultiPartStates ρ)
  | finish

structure MultiPart (ρ : Type) where
  parts : List (Part ρ) := []
  boundary : Bytes
  status : ReadStatus ρ := .never

namespace MultiPart

variable (m : MultiPart ρ)

def part (part : Part ρ) : MultiPart ρ := { m with parts := m.parts ++ [part] }

/-- One round of the loop over the parts. -/
def addPart (boundary : Bytes) (size : UInt64) (part : Part ρ) : Option UInt64 := do
  let size := size + (← part.length)
  let size := size + (2 + UInt64.ofNat boundary.length + 2)
  let size := size + 30
  let size := match part.name with
    | some name => size + (9 + UInt64.ofNat name.length)
    | none => size
  let size := match part.fileName with
    | some name => size + (13 + UInt64.ofNat name.length)
    | none => size
  let size := size + 2
  let size := match part.mime with
    | some mime => size + (16 + UInt64.ofNat mime.length)
    | none => size
  return size + (2 + 2)

def totalBytes : Option UInt64 := do
  let size ← m.parts.foldlM (addPart m.boundary) 0
  return size + (2 + UInt64.ofNat m.boundary.length + 4)

def crlf : Bytes := ascii "\r\n"

/-- The states that one part becomes. -/
def partStates (boundary : Bytes) (part : Part ρ) : List (MultiPartState ρ) :=
  let text : Bytes → MultiPartState ρ := .ofBytes
  [text (ascii "--" ++ boundary ++ crlf), text (ascii "Content-Disposition: form-data")] ++
  (part.name.map fun name => text (ascii "; name=\"" ++ name ++ ascii "\"")).toList ++
  (part.fileName.map fun name => text (ascii "; filename=\"" ++ name ++ ascii "\"")).toList ++
  [text crlf] ++
  (part.mime.map fun mime => text (ascii "Content-Type: " ++ mime ++ crlf)).toList ++
  [text crlf] ++ part.body.toList ++ [text crlf]

def buildStatus : MultiPart ρ :=
  { m with
    parts := m.parts.map fun part => { part with body := none }
    status := .reading
      { states := m.parts.flatMap (partStates m.boundary) ++
          [.ofBytes (ascii "--" ++ m.boundary ++ ascii "--" ++ crlf)] } }

/-- The part of `poll_read` after the status has been built. -/
def pollReadBuilt [AsyncRead ρ UInt8 ε] (m : MultiPart ρ) (buf : ReadBuf UInt8) :
    Option (Poll ε × MultiPart ρ × ReadBuf UInt8) :=
  match m.status with
  | .reading states =>
    if buf.unfilled = 0 then some (.ready, m, buf)
    else do
      let (poll, states, newBuf) ← states.pollRead buf
      match poll with
      | .ready =>
        let status := if buf.filled.length = newBuf.filled.length then .finish
          else .reading states
        return (.ready, { m with status := status }, newBuf)
      | .pending =>
        let poll := if newBuf.filled.length ≠ buf.filled.length then .ready else .pending
        return (poll, { m with status := .reading states }, newBuf)
      | .failed error => return (.failed error, { m with status := .reading states }, newBuf)
  | .never | .finish => some (.ready, m, buf)

def pollRead [AsyncRead ρ UInt8 ε] (m : MultiPart ρ) (buf : ReadBuf UInt8) :
    Option (Poll ε × MultiPart ρ × ReadBuf UInt8) :=
  match m.status with
  | .never => m.buildStatus.pollReadBuilt buf
  | .reading _ => m.pollReadBuilt buf
  | .finish => some (.ready, m, buf)

/-- What a caller sees of one poll. -/
structure Report (ε : Type) where
  room : Nat
  poll : Poll ε
  written : Bytes

/-- Poll with one buffer after another. -/
def polls [AsyncRead ρ UInt8 ε] :
    List (ReadBuf UInt8) → MultiPart ρ → Option (List (Report ε) × MultiPart ρ)
  | [], m => some ([], m)
  | buf :: bufs, m => do
      let (poll, m, newBuf) ← m.pollRead buf
      let (reports, m) ← polls bufs m
      let written := newBuf.filled.drop buf.filled.length
      return ({ room := buf.unfilled, poll := poll, written := written } :: reports, m)

end MultiPart

end Netstack.Uploader
