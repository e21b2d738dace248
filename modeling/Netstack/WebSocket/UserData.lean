import Netstack.Foundation.ByteStrings

/-!
# Sessions of a WebSocket

A `UserData` is one session: its queue of messages, how it was closed, whether its thread is to
stop, and the connection it writes to. The client has one, and the server has one for itself and
one for each of its clients.

## Implementation notes

A connection (`wsi`) is an address. A popped message is `none` for a null pointer.
-/

namespace Netstack.WebSocket

open Foundation

inductive LwsWriteProtocol where
  | text
  | binary
  deriving DecidableEq, Repr

structure SendData where
  data : Bytes
  protocol : LwsWriteProtocol
  deriving DecidableEq, Repr

def lwsCloseStatusNoStatus : UInt32 := 0

def lwsCloseStatusNormal : UInt32 := 1000

def lwsCloseStatusGoingAway : UInt32 := 1001

structure UserData (κ : Type) where
  closeStatus : UInt32 := lwsCloseStatusNoStatus
  closeReason : Bytes := []
  closed : Bool := false
  threadStop : Bool := false
  dataQueue : List SendData := []
  wsi : Option κ := none
  deriving DecidableEq, Repr

/-- The connections that a writable callback is pending for. -/
abbrev Writables (κ : Type) := κ → Bool

namespace UserData

variable {κ : Type}

variable (u : UserData κ)

def setThreadStop (threadStop : Bool) : UserData κ :=
  { u with threadStop }

def close (status : UInt32) (reason : Bytes) : UserData κ :=
  { u with closeStatus := status, closeReason := reason, closed := true }

def closeIfReasonEmpty (reason : Bytes) : UserData κ :=
  if u.closeReason = [] then { u with closeReason := reason, closed := true } else u

def push (data : SendData) : UserData κ :=
  { u with dataQueue := u.dataQueue ++ [data] }

def pop : Option SendData × UserData κ :=
  (u.dataQueue.head?, { u with dataQueue := u.dataQueue.tail })

def setLws (wsi : Option κ) : UserData κ :=
  { u with wsi }

def triggerWritable [DecidableEq κ] (u : UserData κ) (pending : Writables κ) : Writables κ :=
  match u.wsi with
  | none => pending
  | some wsi => Function.update pending wsi true

theorem triggerWritable_of_pending [DecidableEq κ] {pending : Writables κ}
    {wsi : κ} (h : pending wsi = true) : u.triggerWritable pending wsi = true := by
  unfold triggerWritable
  cases u.wsi with
  | none => exact h
  | some wsi' =>
    grind

theorem triggerWritable_self [DecidableEq κ] {u : UserData κ} {wsi : κ} (h : u.wsi = some wsi)
    (pending : Writables κ) : u.triggerWritable pending wsi = true := by
  rw [triggerWritable, h]
  exact Function.update_self wsi true pending

end UserData

end Netstack.WebSocket
