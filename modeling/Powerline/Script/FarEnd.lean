/-
The far end of a terminal: it takes a number of bytes, answers with others, and goes on to its
next answer. As surroundings of an exchange it answers at once; a wait that finds nothing lasts
as long as it may.
-/
import Powerline.Exchange
import Powerline.Port.Terminal

namespace Powerline

/-- A device at the far end of a terminal. Before each answer it takes so many bytes; those it got
since the last one are untold. -/
structure FarEnd where
  clock : Duration := 0
  epochMillis : Int := 0
  answers : List (Nat × List UInt8) := []
  untold : Nat := 0
  received : List UInt8 := []

namespace FarEnd

/-- Answers as often as the bytes it got allow; gives the answers and what remains. -/
def answer : List (Nat × List UInt8) → Nat → List UInt8 × List (Nat × List UInt8) × Nat
  | [], untold => ([], [], untold)
  | (take, reply) :: rest, untold =>
    if take ≤ untold then
      let (replies, rest, untold) := answer rest (untold - take)
      (reply ++ replies, rest, untold)
    else ([], (take, reply) :: rest, untold)

/-- Takes all bytes written to the terminal and answers. -/
def serve (d : FarEnd) (t : Terminal) : FarEnd × Terminal :=
  let (bytes, t) := t.collect t.outbound.length
  let (replies, answers, untold) := answer d.answers (d.untold + bytes.length)
  ({ d with answers, untold, received := d.received ++ bytes }, t.deliver replies)

/-- The least time that a wait takes that finds nothing. -/
def patience : Duration := .millis 1

instance : Surroundings FarEnd Terminal where
  clock d := (d.clock, d)
  localTime d := Moment.ofUnixMillis (d.epochMillis + d.clock / 1000000)
  wait wanted cap d t :=
    let (d, t) := d.serve t
    let found := t.poll wanted
    if found.isEmpty then (.ok found, { d with clock := d.clock + max cap patience }, t)
    else (.ok found, d, t)

/-- Turns enough for an exchange to end: one for each byte that is to come and for each bit of
patience before the deadline, and some to write the frames in between. -/
def turnsFor (s : SwitchSettings) (greeting : List UInt8) (d : FarEnd) : Nat :=
  let bytes := greeting.length + (d.answers.flatMap Prod.snd).length
  s.deadline / patience + 4 * bytes + 16

end FarEnd

end Powerline
