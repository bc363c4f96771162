/-
The host loop that drives a switch to its end: before each wait the deadline is checked and the
wait capped, after it the connection ticks; once the line is idle the address frame is queued. What
the loop does between two waits is pure; the waits belong to the surroundings.
-/
import Powerline.Connection
import Powerline.Poll
import Powerline.Switch

namespace Powerline

/-! ## Between two waits -/

/-- A switch under way: its connection, the instant it has to be over by, and the cap on one wait. -/
structure Exchange (τ : Type) where
  connection : Connection τ Switch
  deadline : Duration
  interval : Duration

inductive Verdict where
  | done
  | failed (fault : Fault)
  deriving DecidableEq, Repr

namespace Exchange

variable {τ : Type}

/-- The last instant the clock can show, in whole seconds. -/
def lastSecond : Nat := (1 <<< 63) - 1

/-- The exchange begun at an instant; none if the clock cannot show its deadline. -/
def begin? (settings : SwitchSettings) (now : Duration) (connection : Connection τ Switch) :
    Option (Exchange τ) :=
  let deadline := now + settings.deadline
  if deadline / 1000000000 > lastSecond then none
  else some { connection, deadline, interval := settings.pollInterval }

variable [Line τ]

/-- What to wait for and for how long at most; none once the deadline is reached. -/
def head (now : Duration) (x : Exchange τ) : Option (Interest × Duration) :=
  let remaining := x.deadline - now
  if remaining = 0 then none else some (x.connection.interest {}, min x.interval remaining)

/-- Whether nothing is outstanding: no frame to write, no echo due, no clock under way. -/
def isIdle (c : Connection τ Switch) : Bool :=
  !c.outbox.isPending && !c.outbox.echo.armed && !c.host.isBusy

/-- Queues the address frame if nothing is sent yet and nothing outstanding. -/
def sendAddress (c : Connection τ Switch) : Except Fault Unit × Connection τ Switch :=
  if c.host.stage = .start && isIdle c then
    match c.submit .verified c.host.address with
    | (.error fault, c) => (.error fault, c)
    | (.ok (), c) => (.ok (), { c with host := c.host.addressSent })
  else (.ok (), c)

/-- Ticks on what a wait found, at a time of the wall clock. Without a verdict the exchange goes on. -/
def resume (time : Moment) (found : Readiness) (x : Exchange τ) : Option Verdict × Exchange τ :=
  let host := { x.connection.host with localTime := time }
  match { x.connection with host }.tick found with
  | (.error fault, connection) => (some (.failed fault), { x with connection })
  | (.ok (), connection) =>
    -- the address frame waits for the tick, which may have found a request for the time
    match sendAddress connection with
    | (.error fault, connection) => (some (.failed fault), { x with connection })
    | (.ok (), connection) =>
      (if connection.host.isDone then some .done else none, { x with connection })

end Exchange

/-! ## Waiting -/

/-- Surroundings of type `ω` around a line of type `τ`: a clock that can be read, the time on the
wall, and a wait bounded by a cap, during which anything may happen to the line. -/
class Surroundings (ω τ : Type) where
  clock : ω → Duration × ω
  localTime : ω → Moment
  wait : Interest → Duration → ω → τ → Except IoFault Readiness × ω × τ

/-- A wait the loop made: when, for what and how long at most, and the line as it was then. -/
structure Wait (τ : Type) where
  start : Duration
  wanted : Interest
  cap : Duration
  line : τ

/-- An exchange in its surroundings, with the waits it made, newest first. -/
structure Loop (ω τ : Type) extends Exchange τ where
  world : ω
  waits : List (Wait τ) := []

/-- What a loop came to: an end, a deadline that the clock cannot show, or nothing yet. -/
inductive Outcome where
  | ended (verdict : Verdict)
  | clockOverflow
  | waiting
  deriving DecidableEq, Repr

namespace Loop

variable {ω τ : Type} [Line τ] [Surroundings ω τ]

/-- One turn of the loop: a look at the clock, a wait, a tick. -/
def turn (l : Loop ω τ) : Option Verdict × Loop ω τ :=
  let (now, world) := Surroundings.clock τ l.world
  match l.toExchange.head now with
  | none => (some (.failed .timeout), { l with world })
  | some (wanted, cap) =>
    let waits := ⟨now, wanted, cap, l.connection.line⟩ :: l.waits
    match Surroundings.wait wanted cap world l.connection.line with
    | (.error fault, world, line) =>
      (some (.failed (.io fault)), { l with world, waits, connection := { l.connection with line } })
    | (.ok found, world, line) =>
      let x := { l.toExchange with connection := { l.connection with line } }
      let (verdict, x) := x.resume (Surroundings.localTime τ world) found
      (verdict, { l with toExchange := x, world, waits })

/-- So many turns, or fewer if the loop ends. -/
def turns : Nat → Loop ω τ → Option Verdict × Loop ω τ
  | 0, l => (none, l)
  | n + 1, l =>
    match l.turn with
    | (some verdict, l) => (some verdict, l)
    | (none, l) => turns n l

/-- Begins an exchange in its surroundings and makes so many turns. -/
def run (settings : SwitchSettings) (connection : Connection τ Switch) (world : ω) (n : Nat) :
    Outcome × Loop ω τ :=
  let (now, world) := Surroundings.clock τ world
  match Exchange.begin? settings now connection with
  | none => (.clockOverflow, { connection, world, deadline := now, interval := settings.pollInterval })
  | some x =>
    match turns n { toExchange := x, world } with
    | (some verdict, l) => (.ended verdict, l)
    | (none, l) => (.waiting, l)

end Loop

/-- The surroundings in which waits are polls. -/
instance {τ : Type} : Surroundings (Poll.World τ) τ where
  clock w := (w.clock, w)
  localTime w := Moment.ofUnixMillis (w.epochMillis + w.clock / 1000000)
  wait wanted cap w line := Poll.wait wanted (some cap) w line

end Powerline
