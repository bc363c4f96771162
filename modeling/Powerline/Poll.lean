/-
The wait for readiness by the system call `poll`: each watched handle gets one entry with the
events asked for, the bound is passed in whole milliseconds, an interrupted call is made again,
and the answered events become the handles found ready.
-/
import Powerline.Fault
import Powerline.Readiness

namespace Powerline.Poll

/-! ## Entries -/

def readEvent : UInt16 := 1

def writeEvent : UInt16 := 4

/-- The device is in error; answered without being asked for. -/
def errorEvent : UInt16 := 8

/-- The other end is gone; answered without being asked for. -/
def hangUpEvent : UInt16 := 16

/-- The handle is not open; answered without being asked for. -/
def invalidEvent : UInt16 := 32

/-- A watched handle and the events asked for. -/
structure Entry where
  handle : Handle
  events : UInt16
  deriving DecidableEq, Repr

/-- Asks for an event of a handle: in the handle's entry if it has one, else in a new last one. -/
def register (event : UInt16) (h : Handle) : List Entry → List Entry
  | [] => [⟨h, event⟩]
  | entry :: rest =>
    if entry.handle = h then { entry with events := entry.events ||| event } :: rest
    else entry :: register event h rest

/-- The entries of an interest, in the order the handles first occur, those to read first. -/
def entries (wanted : Interest) : List Entry :=
  wanted.write.foldl (fun es h => register writeEvent h es)
    (wanted.read.foldl (fun es h => register readEvent h es) [])

/-! ## The bound on the wait -/

/-- The longest bound the call can be given. -/
def maxTimeout : Nat := (1 <<< 31) - 1

/-- The bound in milliseconds, `-1` for none. A nanosecond count is cut to whole microseconds, and
these are rounded up to whole milliseconds. -/
def timeoutMillis : Option Duration → Int
  | none => -1
  | some d => min ((d / 1000 + 999) / 1000) maxTimeout

/-! ## Answers -/

/-- What one call gives: an error number, or the events of each entry, none for a missing one. -/
inductive Answer where
  | failed (errno : Int)
  | ready (events : List UInt16)
  deriving DecidableEq, Repr

def interrupted : Int := 4

def deviceError : Int := 5

/-- Whether two sets of events have one in common. -/
def meets (a b : UInt16) : Bool := a &&& b != 0

/-- Marks what an entry's events mean. -/
def mark (r : Readiness) (entry : Entry) (events : UInt16) : Readiness :=
  -- a hang-up or an error is for the reader to find, where reading was asked for
  let r :=
    if meets events (readEvent ||| hangUpEvent ||| errorEvent) && meets entry.events readEvent then
      r.markReadable entry.handle
    else r
  if meets events writeEvent then r.markWritable entry.handle else r

def found (es : List Entry) (events : List UInt16) : Readiness :=
  (es.zip events).foldl (fun r (entry, events) => mark r entry events) .none

/-! ## Calls -/

/-- What one call does to the world: the time it takes, what happens to the line meanwhile, and its
answer. -/
structure Step (τ : Type) where
  elapsed : Duration := 0
  effect : τ → τ := id
  answer : Answer

/-- One call that was made: when, with what, and the line as it was then. -/
structure Call (τ : Type) where
  start : Duration
  entries : List Entry
  timeout : Int
  line : τ

/-- A world in which the calls to come are known: the clock that only goes forward, the
milliseconds the wall clock showed when that one began, and the calls made, newest first. -/
structure World (τ : Type) where
  clock : Duration := 0
  epochMillis : Int := 0
  steps : List (Step τ) := []
  calls : List (Call τ) := []

def World.after {τ : Type} (w : World τ) (call : Call τ) (elapsed : Duration)
    (steps : List (Step τ)) : World τ :=
  { w with clock := w.clock + elapsed, steps, calls := call :: w.calls }

/-- Calls until one is not interrupted. When no more calls are known, the device fails. -/
def settle {τ : Type} (es : List Entry) (timeout : Int) :
    List (Step τ) → World τ → τ → Except IoFault (List UInt16) × World τ × τ
  | [], w, line =>
    (.error (.errno deviceError), w.after ⟨w.clock, es, timeout, line⟩ 0 [], line)
  | step :: steps, w, line =>
    let w := w.after ⟨w.clock, es, timeout, line⟩ step.elapsed steps
    let line := step.effect line
    match step.answer with
    | .ready events => (.ok events, w, line)
    | .failed errno =>
      -- the bound is not shortened by the time that the interrupted call took
      if errno = interrupted then settle es timeout steps w line
      else (.error (.errno errno), w, line)

/-- Waits until a handle is ready, or as long as the shorter of the interest's bound and the cap. -/
def wait {τ : Type} (wanted : Interest) (cap : Option Duration) (w : World τ) (line : τ) :
    Except IoFault Readiness × World τ × τ :=
  let es := entries wanted
  let (result, w, line) := settle es (timeoutMillis (wanted.bound cap)) w.steps w line
  (result.map (found es), w, line)

def writableNow {τ : Type} (h : Handle) (w : World τ) (line : τ) :
    Except IoFault Bool × World τ × τ :=
  let (result, w, line) := wait { write := [h] } (some 0) w line
  (result.map (·.isWritable h), w, line)

end Powerline.Poll
