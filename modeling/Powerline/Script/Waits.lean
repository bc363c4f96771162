/-
Surroundings in which the waits to come are known: the time each takes, what happens to the line
meanwhile, and what it finds. When no more are known, a wait fails.
-/
import Powerline.Exchange

namespace Powerline

structure ScriptedWait (τ : Type) where
  elapsed : Duration := 0
  effect : τ → τ := id
  finding : Except IoFault Readiness

/-- Surroundings with the clock that only goes forward, the milliseconds the wall clock showed when
that one began, and the waits to come. -/
structure ScriptedWaits (τ : Type) where
  clock : Duration := 0
  epochMillis : Int := 0
  waits : List (ScriptedWait τ) := []

instance {τ : Type} : Surroundings (ScriptedWaits τ) τ where
  clock w := (w.clock, w)
  localTime w := Moment.ofUnixMillis (w.epochMillis + w.clock / 1000000)
  wait _ _ w line :=
    match w.waits with
    | [] => (.error (.other "script ended"), w, line)
    | next :: waits =>
      (next.finding, { w with clock := w.clock + next.elapsed, waits }, next.effect line)

end Powerline
