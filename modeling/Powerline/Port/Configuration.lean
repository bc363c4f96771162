/-
Applying the settings of a serial line to a device: speed, stop bits, parity, data bits, and no
flow control, in that order. A number of bits that no device has is refused when its turn comes.
-/
import Powerline.Settings

namespace Powerline

/-- One setting as a device is given it. -/
inductive Setting where
  | baudRate (n : UInt32)
  | stopBits (n : UInt8)
  | parity (p : Parity)
  | dataBits (n : UInt8)
  | noFlowControl
  deriving DecidableEq, Repr

namespace Setting

def name : Setting → String
  | baudRate _ => "baud_rate"
  | stopBits _ => "stop_bits"
  | parity _ => "parity"
  | dataBits _ => "data_bits"
  | noFlowControl => "flow_control"

def valueText : Setting → String
  | baudRate n => toString n.toNat
  | stopBits n | dataBits n => toString n.toNat
  | parity .none => "None"
  | parity .odd => "Odd"
  | parity .even => "Even"
  | noFlowControl => "None"

/-- Why no device has a setting, if none has. -/
def defect? : Setting → Option String
  | stopBits n => if n = 1 ∨ n = 2 then none else some (toString n.toNat ++ " not 1 or 2")
  | dataBits n => if 5 ≤ n ∧ n ≤ 8 then none else some (toString n.toNat ++ " not in 5-8")
  | _ => none

end Setting

namespace LineSettings

def toList (s : LineSettings) : List Setting :=
  [.baudRate s.baudRate, .stopBits s.stopBits, .parity s.parity, .dataBits s.dataBits,
    .noFlowControl]

/-- Applies settings one after the other until one is refused. `set` gives a setting to the device,
which may refuse it with a reason. -/
def applyAll {δ : Type} (set : Setting → δ → Except String Unit × δ) :
    List Setting → δ → Except Fault Unit × δ
  | [], device => (.ok (), device)
  | setting :: rest, device =>
    match setting.defect? with
    | some reason => (.error (.settingRejected setting.name reason), device)
    | none =>
      match set setting device with
      | (.error reason, device) => (.error (.settingRejected setting.name reason), device)
      | (.ok (), device) => applyAll set rest device

/-- Applies all settings of a line. -/
def configure {δ : Type} (set : Setting → δ → Except String Unit × δ) (s : LineSettings)
    (device : δ) : Except Fault Unit × δ :=
  applyAll set s.toList device

end LineSettings

end Powerline
