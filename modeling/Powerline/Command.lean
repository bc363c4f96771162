/-
The command that switches a module as a settings file says: the steps it takes, how the first one
that fails is reported, and the exit code.
-/
import Powerline.Exchange
import Powerline.Settings.Text

namespace Powerline.Command

def version : String := "0.1.0"

/-- The steps, each with what it works on. -/
inductive Step where
  | loading (path : String)
  | building
  | opening (port : String)
  | exchanging
  deriving DecidableEq, Repr

/-- What a report calls a step that failed. -/
def Step.title : Step → String
  | loading path => "loading config " ++ path
  | building => "building frames"
  | opening port => "opening " ++ port
  | exchanging => "handshake failed"

/-- A step that failed, and why. -/
structure Failure where
  step : Step
  fault : Fault
  deriving DecidableEq, Repr

/-- A text with each of its lines indented by four places. -/
def indent (text : String) : String :=
  String.ofList ("    ".toList ++ text.toList.flatMap fun c =>
    if c = '\n' then '\n' :: "    ".toList else [c])

/-- The report of a failure: the step, an empty line, and the cause, indented. -/
def Failure.report (f : Failure) : String :=
  "Error: " ++ f.step.title ++ "\n\nCaused by:\n" ++ indent f.fault.message ++ "\n"

/-- How the command ends; the clock overflows if it cannot show the deadline. -/
inductive Ending where
  | success
  | failure (f : Failure)
  | clockOverflow
  deriving DecidableEq, Repr

namespace Ending

def code : Ending → UInt32
  | success => 0
  | failure _ => 1
  | clockOverflow => 101

def report : Ending → String
  | success => ""
  | failure f => f.report
  | clockOverflow => "overflow when adding duration to instant\n"

end Ending

/-- A settings file: its path, and its bytes if it can be read. -/
structure File where
  path : String
  content : Option (List UInt8)

def File.settings (file : File) : Except Fault SwitchSettings :=
  match file.content with
  | none => .error (.configuration (file.path ++ ": cannot be read"))
  | some bytes => SwitchSettings.parseBytes bytes

/-- The settings of a file, or the default ones without a file, and the switch they ask for. -/
def prepare (file : Option File) : Except Failure (SwitchSettings × Switch) := do
  let settings ← match file with
    | none => .ok {}
    | some file => file.settings.mapError fun fault => ⟨.loading file.path, fault⟩
  let switch ← (Switch.ofSettings settings).mapError fun fault => ⟨.building, fault⟩
  return (settings, switch)

/-- How the command ends when its loop has come to an outcome. A loop that still waits has not
failed. -/
def conclude : Outcome → Ending
  | .ended .done | .waiting => .success
  | .ended (.failed fault) => .failure ⟨.exchanging, fault⟩
  | .clockOverflow => .clockOverflow

end Powerline.Command
