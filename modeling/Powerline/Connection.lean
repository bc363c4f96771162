/-
The connection to an interface: a line, the host's desk and reactions, and two byte counters. A
host loop asks it what to wait for and tells it what was found; it never waits itself. Every
operation gives a result and the connection after it, whether it succeeded or not.
-/
import Powerline.Reaction

namespace Powerline

/-- A connection over a line of type `τ` for a host with state `σ`. The counters are of the bytes that
ticks have read and of the bytes written. -/
structure Connection (τ σ : Type) extends Desk σ where
  line : τ
  reactions : Reactions σ := {}
  received : UInt64 := 0
  transmitted : UInt64 := 0

namespace Connection

variable {τ σ : Type}

def fresh (line : τ) (host : σ) (reactions : Reactions σ := {}) : Connection τ σ :=
  { host, line, reactions }

def submit (mode : Mode) (frame : Frame) (c : Connection τ σ) :
    Except Fault Unit × Connection τ σ :=
  let (result, desk) := c.toDesk.submit mode frame
  (result, { c with toDesk := desk })

def react (occasion : Occasion) (c : Connection τ σ) : Except Fault Unit × Connection τ σ :=
  let (result, desk) := c.toDesk.react occasion c.reactions
  (result, { c with toDesk := desk })

/-- Gives one inbound byte its meaning and lets the host react to it. -/
def feed (b : UInt8) (c : Connection τ σ) : Except Fault Unit × Connection τ σ :=
  let (meaning, echo) := c.outbox.echo.classify b
  let desk := { c.toDesk with outbox := { c.outbox with echo } }.note (.heard b meaning)
  match meaning with
  | .error fault => (.error fault, { c with toDesk := desk })
  | .ok signal => { c with toDesk := desk }.react signal.occasion

/-! ## Reading and writing -/

variable [Line τ]

/-- Reads one byte off the line and feeds it. A line found readable that has no byte is broken. -/
def receive (c : Connection τ σ) : Except Fault Unit × Connection τ σ :=
  match Line.readByte c.line with
  | (.error fault, line) => (.error (.readFailed fault.message), { c with line })
  | (.ok none, line) => (.error (.readFailed "readable handle returned no data"), { c with line })
  | (.ok (some b), line) =>
    feed b { c with line, toDesk := c.toDesk.note (.read b), received := c.received + 1 }

/-- Writes the next bytes of the pending frame, and lets the host react when its last one is out. -/
def drain (c : Connection τ σ) : Except Fault Progress × Connection τ σ :=
  let before := c.outbox.unsent.length
  match c.outbox.drain c.line with
  | (.error fault, outbox, line) => (.error fault, { c with outbox, line })
  | (.ok progress, outbox, line) =>
    let after := { c with
      outbox, line, transmitted := c.transmitted + UInt64.ofNat (before - progress.remaining) }
    if progress = .drained ∧ 0 < before then
      let desk := after.toDesk.note (.released (c.outbox.pending.getD []))
      let (result, after) := { after with toDesk := desk }.react .drained
      (result.map fun _ => progress, after)
    else (.ok progress, after)

/-- Writes the next bytes if the line can take them. -/
def drainIf (writable : Bool) (c : Connection τ σ) : Except Fault Unit × Connection τ σ :=
  if writable then
    let (result, c) := c.drain
    (result.map fun _ => (), c)
  else (.ok (), c)

/-- Writes the next bytes if a frame is pending and the line can take them. -/
def transmit (waited writable : Bool) (c : Connection τ σ) :
    Except Fault Unit × Connection τ σ :=
  if !c.outbox.isPending then (.ok (), c)
  else if waited then c.drainIf writable
  else
    -- the frame was queued since the wait began, so the line is asked instead
    match Line.probe c.line with
    | (.error fault, line) => (.error (.writeFailed fault.message), { c with line })
    | (.ok free, line) => { c with line }.drainIf free

/-! ## The host loop's side -/

/-- What to wait for: always to read, to write only while a frame is pending, so that an idle line
does not keep the loop awake. The bound on the wait is left alone. -/
def interest (wanted : Interest) (c : Connection τ σ) : Interest :=
  let wanted := wanted.addRead (Line.handle c.line)
  if c.outbox.isPending then wanted.addWrite (Line.handle c.line) else wanted

/-- One tick on what the wait found: at most one byte is read and fed, and unless that failed, the
next bytes of the pending frame are written. -/
def tick (found : Readiness) (c : Connection τ σ) : Except Fault Unit × Connection τ σ :=
  let handle := Line.handle c.line
  -- asked before the byte is fed: the wait knew nothing of a frame that the byte calls for
  let waited := c.outbox.isPending
  match (if found.isReadable handle then c.receive else (.ok (), c)) with
  | (.error fault, c) => (.error fault, c)
  | (.ok (), c) => c.transmit waited (found.isWritable handle)

end Connection

end Powerline
