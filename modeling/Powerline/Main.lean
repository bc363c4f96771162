/-
The command line: the path of a settings file, or `--list-ports`. The serial line has to be in raw
mode with reads that return at once when there is nothing to read. The exchange itself is pure;
this module carries its waits and its bytes.
-/
import Powerline.Command
import Powerline.Port.Basic
import Powerline.Port.Terminal

namespace Powerline

/-- The part of a port that a tick touches: what a read before it gave, and the bytes to be written
after it. -/
structure Carriage where
  arrived : Except IoFault (Option UInt8) := .ok none
  departing : List UInt8 := []

instance : Line Carriage where
  handle _ := 0
  readByte c := (c.arrived, { c with arrived := .ok none })
  write bytes c := (.ok bytes.length, { c with departing := c.departing ++ bytes })
  probe c := (.ok true, c)

/-- An open port, one handle for each direction. -/
structure Wire where
  input : IO.FS.Handle
  output : IO.FS.Handle

/-- The second in which the system was started, which is when the clock of waits began. -/
def bootSecond : IO Nat := do
  let lines := (← IO.FS.readFile "/proc/stat").splitOn "\n"
  let words := lines.map fun line => line.splitOn " "
  return (words.findSome? fun | ["btime", n] => n.toNat? | _ => none).getD 0

/-- The time on the wall, in the zone of universal time, at an instant of the clock of waits. -/
def wallTime (boot : Nat) (now : Duration) : Moment :=
  Moment.ofUnixMillis (boot * 1000 + now / 1000000)

/-- Looks for a byte every few milliseconds until the limit is reached. -/
partial def awaitByte (wire : Wire) (limit : Nat) : IO (Option UInt8) := do
  let bytes ← wire.input.read 1
  if h : 0 < bytes.size then return some bytes[0]
  if (← IO.monoNanosNow) ≥ limit then return none
  IO.sleep 2
  awaitByte wire limit

/-- Makes turns until the exchange ends. -/
partial def exchange (wire : Wire) (boot : Nat) (x : Exchange Carriage) : IO Command.Ending := do
  let now ← IO.monoNanosNow
  match x.head now with
  | none => return Command.conclude (.ended (.failed .timeout))
  | some (wanted, cap) =>
    let handle := Line.handle x.connection.line
    let limit := if wanted.write.isEmpty then now + cap else now
    let arrived ← try .ok <$> awaitByte wire limit catch e => pure (.error (.other (toString e)))
    let readable := match arrived with
      | .ok none => []
      | .ok (some _) | .error _ => [handle]
    let found := Readiness.of readable wanted.write
    let line : Carriage := { arrived }
    let time := wallTime boot (← IO.monoNanosNow)
    let (verdict, x) := Exchange.resume time found { x with connection := { x.connection with line } }
    let departing := x.connection.line.departing
    unless departing.isEmpty do
      wire.output.write ⟨departing.toArray⟩
      wire.output.flush
    match verdict with
    | some verdict => return Command.conclude (.ended verdict)
    | none => exchange wire boot x

/-- Finds out what a name stands for; a terminal is left open. -/
def openWire (name : String) : IO (Site × Option Wire) := do
  if name.toList.contains '\x00' then return (.other, none)
  try
    let input ← IO.FS.Handle.mk name .read
    if ← input.isTty then
      let output ← IO.FS.Handle.mk name .readWrite
      return (.terminal, some { input, output })
    else return (.other, none)
  catch
    | .noFileOrDirectory .. => return (.absent, none)
    | _ => return (.other, none)

/-- Switches a module as a settings file says. -/
def switchModule (path : Option String) : IO Command.Ending := do
  let file ← path.mapM fun (path : String) => do
    let content ← try some <$> IO.FS.readBinFile path catch _ => pure none
    return ({ path, content := content.map ByteArray.toList } : Command.File)
  match Command.prepare file with
  | .error failure => return .failure failure
  | .ok (settings, switch) =>
    let (site, wire) ← openWire settings.line.portName
    match site.openPort settings.line, wire with
    | .error fault, _ => return .failure ⟨.opening settings.line.portName, fault⟩
    | .ok _, none =>
      return .failure ⟨.opening settings.line.portName, .portNotFound settings.line.portName⟩
    | .ok _, some wire =>
      let connection := Connection.fresh ({} : Carriage) switch Switch.reactions
      match Exchange.begin? settings (← IO.monoNanosNow) connection with
      | none => return .clockOverflow
      | some x =>
        try exchange wire (← bootSecond) x
        catch e => return Command.conclude (.ended (.failed (.writeFailed (toString e))))

/-- The ports of USB devices that the system knows, looked up by number. -/
def listPorts : IO (List Port) := do
  let names := ["ttyACM", "ttyUSB"].flatMap fun stem =>
    (List.range 256).map fun n => stem ++ toString n
  let present ← names.filterM fun name => do
    try
      discard <| IO.FS.readFile ("/sys/class/tty/" ++ name ++ "/dev")
      return true
    catch _ => return false
  return Port.listing present

end Powerline

open Powerline in
/-- The command: the ports, one a line, or the switching of a module. -/
def main (args : List String) : IO UInt32 := do
  match args with
  | "--list-ports" :: _ =>
    for port in ← listPorts do IO.println port.describe
    return 0
  | _ =>
    let ending ← switchModule args.head?
    IO.eprint ending.report
    return ending.code
