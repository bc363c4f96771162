/-
What an inbound byte means. While an echo is due the next byte is that echo, whatever its value;
otherwise it is one of three opcodes, or unknown.
-/
import Powerline.Frame.Basic

namespace Powerline

/-- A message the interface sends of its own accord: a transmission on the power line is over, there
is data to hand over, or the clock is lost and the time wanted. -/
inductive Opcode where
  | interfaceReady
  | interfacePoll
  | timeRequest
  deriving DecidableEq, Repr

namespace Opcode

def byte : Opcode → UInt8
  | interfaceReady => 0x55
  | interfacePoll => 0x5A
  | timeRequest => 0xA5

def ofByte (b : UInt8) : Except Fault Opcode :=
  if b = 0x55 then .ok interfaceReady
  else if b = 0x5A then .ok interfacePoll
  else if b = 0xA5 then .ok timeRequest
  else .error (.unknownOpcode b)

def name : Opcode → String
  | interfaceReady => "InterfaceReady"
  | interfacePoll => "InterfacePoll"
  | timeRequest => "TimeRequest"

def all : List Opcode := [interfaceReady, interfacePoll, timeRequest]

theorem ofByte_byte (op : Opcode) : ofByte op.byte = .ok op := by cases op <;> rfl

end Opcode

/-! ## The echo -/

/-- The echo the interface owes: whether one is due, and the sum it has to match. The sum stays
after the echo has come. -/
structure Echo where
  armed : Bool := false
  expected : UInt8 := 0
  deriving DecidableEq, Repr

namespace Echo

def arm (frame : Frame) (_ : Echo) : Echo := ⟨true, frame.checksum⟩

def clear (e : Echo) : Echo := { e with armed := false }

/-- Takes a byte as the echo and tells whether it matched; none is due after it, match or not. -/
def consume (b : UInt8) (e : Echo) : Bool × Echo := (b == e.expected, e.clear)

end Echo

/-! ## Signals -/

/-- The meaning of an inbound byte: the right echo of the frame last sent, a wrong one after which the
frame has to be sent again, or a message of the interface's own accord. -/
inductive Signal where
  | echoMatched
  | echoDiffered (expected actual : UInt8)
  | opcode (op : Opcode)
  deriving DecidableEq, Repr

/-- The meaning of a byte, and the echo due after it. -/
def Echo.classify (b : UInt8) (e : Echo) : Except Fault Signal × Echo :=
  if e.armed then
    let (matched, e') := e.consume b
    (.ok (if matched then .echoMatched else .echoDiffered e.expected b), e')
  else ((Opcode.ofByte b).map .opcode, e)

end Powerline
