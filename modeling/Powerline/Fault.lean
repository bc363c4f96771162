/-
Everything that can go wrong while an interface is driven, each cause with its wording, and
which causes leave the connection unusable.
-/
import Powerline.Text.Hex

namespace Powerline

/-- A failed call on a device: an error number of the operating system, or a text of its own. -/
inductive IoFault where
  | errno (number : Int)
  | other (text : String)
  deriving DecidableEq, Repr

def IoFault.message : IoFault → String
  | .errno n => "os error " ++ toString n
  | .other text => text

/-- What can go wrong while an interface is driven. A call on the line that fails, or comes to nothing,
is a failed read or write; a byte is unknown if it is no opcode while no echo is due. A serial port
fails to open because it is not found, rejects a setting, or for any other reason; `io` is any other
call on a device. -/
inductive Fault where
  | alreadyPending
  | readFailed (reason : String)
  | writeFailed (reason : String)
  | unknownOpcode (byte : UInt8)
  | portNotFound (name : String)
  | settingRejected (setting reason : String)
  | serialPort (reason : String)
  | callback (reason : String)
  | invalidFrame (reason : String)
  | configuration (reason : String)
  | timeout
  | io (fault : IoFault)
  deriving DecidableEq, Repr

namespace Fault

def message : Fault → String
  | alreadyPending => "A write is already pending"
  | readFailed reason => "Transport read failed: " ++ reason
  | writeFailed reason => "Transport write failed: " ++ reason
  | unknownOpcode byte => "Unknown opcode from interface: 0x" ++ Text.hexByte byte
  | portNotFound name => "Port not found: " ++ name
  | settingRejected setting reason =>
    "Serial configuration rejected (" ++ setting ++ "): " ++ reason
  | serialPort reason => "Serial port error: " ++ reason
  | callback reason => "Callback aborted: " ++ reason
  | invalidFrame reason => "Invalid frame: " ++ reason
  | configuration reason => "Configuration error: " ++ reason
  | timeout => "Handshake timeout"
  | io fault => "I/O error: " ++ fault.message

/-- Whether the connection is lost for good: there is no way to reconnect. A fault of framing or
of a reaction ends the current tick only. -/
def isFatal : Fault → Bool
  | readFailed _ | writeFailed _ | io _ => true
  | _ => false

end Fault

end Powerline
