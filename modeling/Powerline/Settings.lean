/-
What a run is set up with: the serial line, the module to switch and the function to send, and
how long and how often to try.
-/
import Powerline.Frame.Basic
import Powerline.Readiness

namespace Powerline

inductive Parity where
  | none
  | odd
  | even
  deriving DecidableEq, Repr

def Parity.all : List Parity := [.none, .odd, .even]

def Parity.name : Parity → String
  | .none => "none"
  | .odd => "odd"
  | .even => "even"

/-- The settings of a serial line; without more, those an interface leaves the factory with. -/
structure LineSettings where
  portName : String := "/dev/ttyS0"
  baudRate : UInt32 := 4800
  dataBits : UInt8 := 8
  parity : Parity := .none
  stopBits : UInt8 := 1
  deriving DecidableEq, Repr

/-- What to switch, and how long to try. The dim level matters to a function that dims or brightens; the
deadline bounds the whole exchange, the interval a single wait; with the clock set, a request for the
time is answered with the whole clock; and a frame may be sent again `maxRetries` times. -/
structure SwitchSettings where
  line : LineSettings := {}
  house : House := .A
  unit : UInt8 := 2
  function : Function := .on
  dim : UInt8 := 0
  deadlineSecs : UInt64 := 30
  pollIntervalMs : UInt64 := 1000
  setClock : Bool := false
  maxRetries : UInt32 := 3
  deriving DecidableEq, Repr

namespace SwitchSettings

/-- The address frame and the function frame; a bad unit is found before a bad dim level. -/
def frames (s : SwitchSettings) : Except Fault (Frame × Frame) :=
  match Frame.address s.house s.unit, Frame.function s.house s.function s.dim with
  | .error fault, _ => .error fault
  | .ok _, .error fault => .error fault
  | .ok address, .ok command => .ok (address, command)

def deadline (s : SwitchSettings) : Duration := .seconds s.deadlineSecs.toNat

def pollInterval (s : SwitchSettings) : Duration := .millis s.pollIntervalMs.toNat

end SwitchSettings

end Powerline
