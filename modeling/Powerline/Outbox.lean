/-
The outbox: room for one outbound frame, the count of its bytes already written, and the echo it
makes due. A frame queued with verification arms the echo at once, a plain one disarms it.
-/
import Powerline.Line
import Powerline.Signal

namespace Powerline

/-- Whether the interface echoes a frame's checksum. -/
inductive Mode where
  | verified
  | plain
  deriving DecidableEq, Repr

/-- The one outbound frame with the number of its bytes written, and the echo that is due. -/
structure Outbox where
  pending : Option Frame := none
  sent : Nat := 0
  echo : Echo := {}
  deriving DecidableEq, Repr

/-- How far a write got: bytes sent and remaining of a frame, or none remaining. -/
inductive Progress where
  | partly (sent remaining : Nat)
  | drained
  deriving DecidableEq, Repr

def Progress.remaining : Progress → Nat
  | .partly _ remaining => remaining
  | .drained => 0

def Mode.prepare (frame : Frame) (echo : Echo) : Mode → Echo
  | .verified => echo.arm frame
  | .plain => echo.clear

namespace Outbox

def isPending (o : Outbox) : Bool := o.pending.isSome

/-- The bytes of the outstanding frame that are still to be written. -/
def unsent (o : Outbox) : List UInt8 := (o.pending.getD []).drop o.sent

/-- Queues a frame; a refusal leaves the outbox as it is. -/
def submit (mode : Mode) (frame : Frame) (o : Outbox) : Except Fault Outbox :=
  if o.isPending then .error .alreadyPending
  else if frame.isEmpty then .error (.invalidFrame "empty write")
  else .ok { pending := some frame, sent := 0, echo := mode.prepare frame o.echo }

/-- The outbox after a write took `taken` bytes of `frame`: more to write, or the frame released. -/
def advance (frame : Frame) (taken : Nat) (o : Outbox) : Progress × Outbox :=
  -- a line that claims more than it was offered took all of it
  let sent := o.sent + min taken (frame.length - o.sent)
  if sent < frame.length then (.partly sent (frame.length - sent), { o with sent })
  else (.drained, { o with pending := none, sent := 0 })

/-- Offers the unsent bytes to the line once. A line that takes none of them has failed; with nothing
pending, nothing is done. -/
def drain {τ : Type} [Line τ] (o : Outbox) (line : τ) : Except Fault Progress × Outbox × τ :=
  match o.pending with
  | none => (.ok .drained, o, line)
  | some frame =>
    match Line.write (frame.drop o.sent) line with
    | (.error e, line) => (.error (.writeFailed e.message), o, line)
    | (.ok 0, line) => (.error (.writeFailed "transport accepted no bytes"), o, line)
    | (.ok taken, line) =>
      let (progress, o) := o.advance frame taken
      (.ok progress, o, line)

end Outbox

end Powerline
