/-
Settings as JSON text: every field may be left out and then has its default, the line's settings
stand in a record of their own. Written out, all fields are there, in order.
-/
import Powerline.Json.Record
import Powerline.Settings

namespace Powerline

open Json (Defect field toWord? toChoice?)

/-- A text read as JSON and then as settings. -/
def Json.decode {α : Type} (read : Json → Except Defect α) (text : String) : Except Fault α :=
  match Json.parse? text with
  | none => .error (.configuration Defect.malformed.message)
  | some j => (read j).mapError fun defect => .configuration defect.message

/-- A file's bytes read as text, as JSON and then as settings. -/
def Json.decodeBytes {α : Type} (read : Json → Except Defect α) (bytes : List UInt8) :
    Except Fault α :=
  match String.fromUTF8? ⟨bytes.toArray⟩ with
  | none => .error (.configuration Defect.notText.message)
  | some text => Json.decode read text

namespace LineSettings

def fieldNames : List String := ["port_name", "baud_rate", "data_bits", "parity", "stop_bits"]

def ofJson (j : Json) : Except Defect LineSettings := do
  let fields ← j.fields fieldNames
  let default : LineSettings := {}
  return {
    portName := ← field fields "port_name" Json.toString? default.portName
    baudRate := ← field fields "baud_rate"
      (fun j => (toWord? 32 j).map UInt32.ofNat) default.baudRate
    dataBits := ← field fields "data_bits" (fun j => (toWord? 8 j).map UInt8.ofNat) default.dataBits
    parity := ← field fields "parity" (toChoice? Parity.name Parity.all) default.parity
    stopBits := ← field fields "stop_bits"
      (fun j => (toWord? 8 j).map UInt8.ofNat) default.stopBits }

def toJson (s : LineSettings) : Json :=
  .ofMembers [("port_name", .ofString s.portName), ("baud_rate", .ofNat s.baudRate.toNat),
    ("data_bits", .ofNat s.dataBits.toNat), ("parity", .ofString s.parity.name),
    ("stop_bits", .ofNat s.stopBits.toNat)]

def parse (text : String) : Except Fault LineSettings := Json.decode ofJson text

def parseBytes (bytes : List UInt8) : Except Fault LineSettings := Json.decodeBytes ofJson bytes

def render (s : LineSettings) : String := s.toJson.render

end LineSettings

namespace SwitchSettings

def fieldNames : List String :=
  ["serial", "house", "unit", "function", "dim", "deadline_secs", "poll_interval_ms", "set_clock",
    "max_retries"]

def ofJson (j : Json) : Except Defect SwitchSettings := do
  let fields ← j.fields fieldNames
  let default : SwitchSettings := {}
  return {
    line := ← field fields "serial" (fun j => (LineSettings.ofJson j).toOption) default.line
    house := ← field fields "house" (toChoice? House.name House.all) default.house
    unit := ← field fields "unit" (fun j => (toWord? 8 j).map UInt8.ofNat) default.unit
    function := ← field fields "function" (toChoice? Function.name Function.all) default.function
    dim := ← field fields "dim" (fun j => (toWord? 8 j).map UInt8.ofNat) default.dim
    deadlineSecs := ← field fields "deadline_secs"
      (fun j => (toWord? 64 j).map UInt64.ofNat) default.deadlineSecs
    pollIntervalMs := ← field fields "poll_interval_ms"
      (fun j => (toWord? 64 j).map UInt64.ofNat) default.pollIntervalMs
    setClock := ← field fields "set_clock" Json.toBool? default.setClock
    maxRetries := ← field fields "max_retries"
      (fun j => (toWord? 32 j).map UInt32.ofNat) default.maxRetries }

def toJson (s : SwitchSettings) : Json :=
  .ofMembers [("serial", s.line.toJson), ("house", .ofString s.house.name),
    ("unit", .ofNat s.unit.toNat), ("function", .ofString s.function.name),
    ("dim", .ofNat s.dim.toNat), ("deadline_secs", .ofNat s.deadlineSecs.toNat),
    ("poll_interval_ms", .ofNat s.pollIntervalMs.toNat), ("set_clock", .bool s.setClock),
    ("max_retries", .ofNat s.maxRetries.toNat)]

def parse (text : String) : Except Fault SwitchSettings := Json.decode ofJson text

def parseBytes (bytes : List UInt8) : Except Fault SwitchSettings := Json.decodeBytes ofJson bytes

def render (s : SwitchSettings) : String := s.toJson.render

end SwitchSettings

end Powerline
