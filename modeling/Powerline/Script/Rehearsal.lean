/-
A rehearsal of the command on a common system with one terminal, at the far end of which sits a
scripted device.
-/
import Powerline.Command
import Powerline.Script.FarEnd
import Powerline.Script.System

namespace Powerline

/-- What a rehearsal is made with: the settings file, the path of the terminal, what the device has
sent before the command starts, and its answers. -/
structure Rehearsal where
  file : Option Command.File
  terminal : String
  greeting : List UInt8 := []
  answers : List (Nat × List UInt8) := []

namespace Rehearsal

/-- Rehearses the command: how it ends, and the bytes the device got. -/
def perform (r : Rehearsal) : Command.Ending × List UInt8 :=
  match Command.prepare r.file with
  | .error failure => (.failure failure, [])
  | .ok (settings, switch) =>
    match ((FileTree.common r.terminal).site settings.line.portName).openPort settings.line with
    | .error fault => (.failure ⟨.opening settings.line.portName, fault⟩, [])
    | .ok terminal =>
      let device : FarEnd := { answers := r.answers }
      let connection := Connection.fresh (terminal.deliver r.greeting) switch Switch.reactions
      let (outcome, loop) :=
        Loop.run settings connection device (FarEnd.turnsFor settings r.greeting device)
      (Command.conclude outcome, (loop.world.serve loop.connection.line).1.received)

end Rehearsal

end Powerline
