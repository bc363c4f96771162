/-
An honest interface at the far end of a line. It echoes every frame, reports that it is ready after
every release, and says nothing else; only so many echoes of a frame are wrong at first. The line
takes each write in pieces of any size and answers probes as it likes, and the wait finds the line
readable while the interface has something to say, and writable when that was asked for.
-/
import Powerline.Exchange
import Mathlib.Tactic

namespace Powerline

/-! ## The interface -/

/-- An interface as seen from the line. It gets the echo of a frame wrong so often at first; what it
has to say is its output, the frame it is receiving is kept apart from those received whole, and it
awaits the release of a frame it has echoed. Whether it asked for a whole clock frame decides how it
takes the answer to a request for the time. -/
structure Interface where
  wrong : Frame → Nat := fun _ => 0
  clockFrames : Bool := false
  output : List UInt8 := []
  frame : Frame := []
  frames : List Frame := []
  awaiting : Bool := false
  releases : Nat := 0
  timeAnswers : Nat := 0

namespace Interface

/-- What the interface echoes for the next reception of a frame. -/
def echo (frame : Frame) (d : Interface) : UInt8 :=
  if d.frames.count frame < d.wrong frame then frame.checksum ^^^ 0xFF else frame.checksum

/-- How long the frame is that begins with these bytes. -/
def expectedLength (frame : Frame) : Nat := if frame.head? = some Frame.timeAnswer then 7 else 2

/-- The interface receives a byte. -/
def receive (d : Interface) (b : UInt8) : Interface :=
  if d.frame = [] ∧ d.awaiting = true ∧ b = Frame.release then
    { d with awaiting := false, releases := d.releases + 1, output := d.output ++ [Opcode.interfaceReady.byte] }
  else if d.frame = [] ∧ b = Frame.timeAnswer ∧ d.clockFrames = false then
    { d with timeAnswers := d.timeAnswers + 1 }
  else
    let frame := d.frame ++ [b]
    if frame.length = expectedLength frame then
      { d with
        frame := [], frames := d.frames ++ [frame], output := d.output ++ [d.echo frame],
        awaiting := true }
    else { d with frame }

/-- The interface receives one byte after the other. -/
def receiveAll (d : Interface) (bytes : List UInt8) : Interface := bytes.foldl receive d

theorem receiveAll_append (d : Interface) (front back : List UInt8) :
    d.receiveAll (front ++ back) = (d.receiveAll front).receiveAll back :=
  List.foldl_append

theorem receiveAll_release {d : Interface} (hframe : d.frame = []) (ha : d.awaiting = true) :
    d.receiveAll [Frame.release] =
      { d with
        awaiting := false, releases := d.releases + 1, output := d.output ++ [Opcode.interfaceReady.byte] } := by
  simp [receiveAll, receive, hframe, ha]

section
variable {d : Interface} {header : UInt8} (code : UInt8) (hframe : d.frame = [])
  (hrelease : header ≠ Frame.release) (htime : header ≠ Frame.timeAnswer)
include hframe hrelease htime

theorem receive_header : d.receive header = { d with frame := [header] } := by
  simp [receive, hframe, hrelease, htime, expectedLength]

/-- A frame of two bytes is echoed. -/
theorem receiveAll_frame :
    d.receiveAll [header, code] =
      { d with
        frames := d.frames ++ [[header, code]], output := d.output ++ [d.echo [header, code]],
        awaiting := true } := by
  show (d.receive header).receive code = _
  rw [receive_header hframe hrelease htime]
  simp [receive, htime, expectedLength, hframe, echo]

end

/-- An echo of a frame received often enough is right. -/
theorem echo_eq {d : Interface} {frame : Frame} (h : d.wrong frame ≤ d.frames.count frame) :
    d.echo frame = frame.checksum := by
  rw [echo, if_neg (by omega)]

theorem echo_ne {d : Interface} {frame : Frame} (h : d.frames.count frame < d.wrong frame) :
    d.echo frame ≠ frame.checksum := by
  rw [echo, if_pos h]
  intro heq
  -- a byte is not its own complement
  have : frame.checksum ^^^ (frame.checksum ^^^ 0xFF) = 0 := by rw [heq, UInt8.xor_self]
  rw [← UInt8.xor_assoc, UInt8.xor_self, UInt8.zero_xor] at this
  cases this

end Interface

/-! ## The line -/

/-- A line to an interface. How much each write takes at most, and what each probe says, is settled
beforehand, write by write and probe by probe. -/
structure Cable where
  device : Interface
  handle : Handle := 9
  pieces : Nat → Nat
  probes : Nat → Bool
  writes : Nat := 0
  probed : Nat := 0

instance : Line Cable where
  handle := Cable.handle
  readByte w :=
    match w.device.output with
    | [] => (.ok none, w)
    | b :: rest => (.ok (some b), { w with device := { w.device with output := rest } })
  write offered w :=
    let n := min (w.pieces w.writes) offered.length
    (.ok n, { w with device := w.device.receiveAll (offered.take n), writes := w.writes + 1 })
  probe w := (.ok (w.probes w.probed), { w with probed := w.probed + 1 })

/-! ## The surroundings -/

/-- A clock and a wall clock whose readings are settled beforehand, look by look. -/
structure Watch where
  readings : Nat → Duration
  wall : Nat → Moment
  looks : Nat := 0

/-- A wait tells at once what holds. -/
instance : Surroundings Watch Cable where
  clock w := (w.readings w.looks, { w with looks := w.looks + 1 })
  localTime w := w.wall w.looks
  wait wanted _ w line :=
    let readable := if line.device.output = [] then [] else [line.handle]
    (.ok { readable, writable := wanted.write }, w, line)

end Powerline
