/-
Switching one module: the address frame, then the function frame. Each goes out verified; a right
echo is answered with the release byte, whereupon the interface transmits on the power line and
reports that it is ready. That report moves the switch on.
-/
import Powerline.Frame.Clock
import Powerline.Reaction
import Powerline.Settings

namespace Powerline

/-- How far a module's switching is. A frame counts as sent from the moment it is queued. -/
inductive Stage where
  | start
  | sentAddress
  | sentCommand
  | done
  deriving DecidableEq, Repr

def Stage.all : List Stage := [.start, .sentAddress, .sentCommand, .done]

def Stage.name : Stage → String
  | .start => "Start"
  | .sentAddress => "SentAddress"
  | .sentCommand => "SentCommand"
  | .done => "Done"

/-- The switching of one module. The next echo belongs to `lastFrame`, which has been sent again
`retries` times; while a clock frame is in flight the next report of readiness is its own; the host
loop keeps the local time up to date. -/
structure Switch where
  stage : Stage := .start
  address : Frame
  command : Frame
  lastFrame : Option Frame := none
  retries : Nat := 0
  maxRetries : Nat
  setClock : Bool
  monitored : House
  clockInFlight : Bool := false
  localTime : Moment := .epoch
  deriving DecidableEq, Repr

namespace Switch

/-- The switching that the settings ask for. -/
def ofSettings (s : SwitchSettings) : Except Fault Switch :=
  s.frames.map fun (address, command) =>
    { address, command, maxRetries := s.maxRetries.toNat, setClock := s.setClock,
      monitored := s.house }

def isDone (s : Switch) : Bool := s.stage == .done

/-- Whether another exchange, that of the clock, is still under way. -/
def isBusy (s : Switch) : Bool := s.clockInFlight

/-- A new frame is queued, with all its retries to come. -/
def queued (frame : Frame) (s : Switch) : Switch := { s with lastFrame := some frame, retries := 0 }

def addressSent (s : Switch) : Switch := { s.queued s.address with stage := .sentAddress }

/-! ## Reactions -/

open Reaction in
/-- The interface is ready: after the address frame the function frame is next; after the function
frame the module is switched. -/
def onReady : Reaction Switch Unit := do
  let s ← get
  -- a report after a clock frame is about that frame and says nothing of the stage
  if s.clockInFlight then set { s with clockInFlight := false }
  else match s.stage with
    | .sentAddress => do
      send .verified s.command
      set { s.queued s.command with stage := .sentCommand }
    | .sentCommand => set { s with stage := .done }
    | .start | .done => pure ()

open Reaction in
/-- The interface wants the time: ignored while a frame is outstanding, and otherwise answered with
the whole clock or with the bare answer byte. -/
def onTimeRequest : Reaction Switch Unit :=
  isPending fun pending => do
    if pending then pure ()
    else
      let s ← get
      if s.setClock then do
        let frame := Frame.clock s.localTime s.monitored
        send .verified frame
        set { s.queued frame with clockInFlight := true }
      else send .plain [Frame.timeAnswer]

open Reaction in
/-- The echo was right: the frame is released and forgotten. -/
def onEchoMatched : Reaction Switch Unit := do
  let s ← get
  set { s with lastFrame := none }
  send .plain [Frame.release]

open Reaction in
/-- The echo was wrong: the frame is sent again, unless that was done often enough. -/
def onEchoDiffered : Reaction Switch Unit := do
  let s ← get
  match s.lastFrame with
  | none => pure ()
  | some frame =>
    -- the first sending is not counted, so a frame goes out once more than it may be retried
    if s.retries ≥ s.maxRetries then
      abort (.callback ("checksum mismatch after " ++ toString s.retries ++ " retries"))
    else do
      set { s with retries := s.retries + 1 }
      send .verified frame

/-- The reactions that drive the switching. What the interface has to hand over is not collected,
and a frame that is out calls for nothing. -/
def reactions : Reactions Switch where
  interfaceReady := onReady
  timeRequest := onTimeRequest
  echoMatched := onEchoMatched
  echoDiffered := onEchoDiffered

end Switch

end Powerline
