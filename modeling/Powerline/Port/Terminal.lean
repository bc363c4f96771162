/-
A terminal as a serial port: bytes queued to be read, bytes written for the other end, a state in
which it takes no more, and a state in which the other end is gone. Opening a port finds out what
its name stands for, and then applies the settings of the line.
-/
import Powerline.Line
import Powerline.Poll
import Powerline.Port.Configuration
import Powerline.Port.Path

namespace Powerline

/-- A terminal with its two queues. -/
structure Terminal where
  handle : Handle := 3
  inbound : List UInt8 := []
  outbound : List UInt8 := []
  full : Bool := false
  hungUp : Bool := false
  deriving DecidableEq, Repr

namespace Terminal

/-- What every call on a terminal without another end gives. -/
def gone : IoFault := .other "the other end is gone"

/-- Reads at most so many of the queued bytes. -/
def read (n : Nat) (t : Terminal) : Except IoFault (List UInt8) × Terminal :=
  if t.hungUp then (.error gone, t)
  else (.ok (t.inbound.take n), { t with inbound := t.inbound.drop n })

/-- Writes all bytes, or none when there is no room. -/
def write (bytes : List UInt8) (t : Terminal) : Except IoFault Nat × Terminal :=
  if t.hungUp then (.error gone, t)
  else if t.full then (.ok 0, t)
  else (.ok bytes.length, { t with outbound := t.outbound ++ bytes })

/-- The events of a terminal: those asked for that hold, and a hang-up in any case. -/
def events (asked : UInt16) (t : Terminal) : UInt16 :=
  let readable := if t.inbound.isEmpty then 0 else Poll.readEvent
  -- without another end a write would not block, it fails
  let writable := if t.full && !t.hungUp then 0 else Poll.writeEvent
  asked &&& (readable ||| writable) ||| if t.hungUp then Poll.hangUpEvent else 0

/-- What a wait finds right now. -/
def poll (wanted : Interest) (t : Terminal) : Readiness :=
  let entries := Poll.entries wanted
  Poll.found entries (entries.map fun e => if e.handle = t.handle then t.events e.events else 0)

def probe (t : Terminal) : Bool := (t.poll { write := [t.handle] }).isWritable t.handle

instance : Line Terminal where
  handle := Terminal.handle
  readByte t :=
    let (result, t) := t.read 1
    (result.map List.head?, t)
  write := write
  probe t := (.ok t.probe, t)

/-! ## The other end -/

/-- The other end writes bytes. -/
def deliver (bytes : List UInt8) (t : Terminal) : Terminal := { t with inbound := t.inbound ++ bytes }

/-- The other end reads at most so many bytes. -/
def collect (n : Nat) (t : Terminal) : List UInt8 × Terminal :=
  (t.outbound.take n, { t with outbound := t.outbound.drop n })

def hangUp (t : Terminal) : Terminal := { t with hungUp := true }

/-- Bytes are written until there is no more room. -/
def fill (t : Terminal) : Terminal := { t with full := true }

end Terminal

/-! ## Opening a port -/

namespace Site

/-- Opens and configures a port. What the name stands for is found out before any setting is
applied; a terminal takes every setting that there is. -/
def openPort (site : Site) (s : LineSettings) : Except Fault Terminal :=
  match site with
  | .absent => .error (.portNotFound s.portName)
  | .other => .error (.serialPort "not a terminal")
  | .terminal =>
    match s.configure (fun _ t => (.ok (), t)) ({} : Terminal) with
    | (.error fault, _) => .error fault
    | (.ok (), t) => .ok t

end Site

end Powerline
