/-
A line that follows a script: what each read gives, how much each write takes or claims to take,
and what each probe says. It keeps the bytes it took.
-/
import Powerline.Line

namespace Powerline

/-- What a scripted read gives; a count of bytes has none of them there, and a single one reads as
zero. -/
inductive ScriptedRead where
  | byte (b : UInt8)
  | count (n : Nat)
  | fails (reason : String)
  deriving DecidableEq, Repr

/-- What a scripted write takes: at most so many bytes, of which it may claim to have taken all. -/
inductive ScriptedWrite where
  | upTo (n : Nat)
  | claiming (n : Nat)
  | fails (reason : String)
  deriving DecidableEq, Repr

/-- A line with the script of its calls to come. Without a script, a read gives nothing, a write takes
a chunk or everything, and a probe says `free`. -/
structure ScriptedLine where
  handle : Handle := 42
  reads : List ScriptedRead := []
  writes : List ScriptedWrite := []
  chunk : Option Nat := none
  probes : List (Except String Bool) := []
  free : Bool := true
  canProbe : Bool := true
  taken : List UInt8 := []

namespace ScriptedLine

def readByte (l : ScriptedLine) : Except IoFault (Option UInt8) × ScriptedLine :=
  match l.reads with
  | [] => (.ok none, l)
  | read :: reads =>
    let l := { l with reads }
    match read with
    | .byte b => (.ok (some b), l)
    | .count n => (.ok (if n = 1 then some 0 else none), l)
    | .fails reason => (.error (.other reason), l)

def take (n : Nat) (offered : List UInt8) (l : ScriptedLine) : ScriptedLine :=
  { l with taken := l.taken ++ offered.take n }

def write (offered : List UInt8) (l : ScriptedLine) : Except IoFault Nat × ScriptedLine :=
  match l.writes with
  | [] =>
    let n := min (l.chunk.getD offered.length) offered.length
    (.ok n, l.take n offered)
  | write :: writes =>
    let l := { l with writes }
    match write with
    | .upTo n => (.ok (min n offered.length), l.take n offered)
    | .claiming n => (.ok n, l.take n offered)
    | .fails reason => (.error (.other reason), l)

def probe (l : ScriptedLine) : Except IoFault Bool × ScriptedLine :=
  if !l.canProbe then (.ok false, l)
  else match l.probes with
    | [] => (.ok l.free, l)
    | answer :: probes => (answer.mapError .other, { l with probes })

def extend (reads : List ScriptedRead) (writes : List ScriptedWrite)
    (probes : List (Except String Bool)) (l : ScriptedLine) : ScriptedLine :=
  { l with reads := l.reads ++ reads, writes := l.writes ++ writes, probes := l.probes ++ probes }

instance : Line ScriptedLine where
  handle := ScriptedLine.handle
  readByte := readByte
  write := write
  probe := probe

end ScriptedLine

end Powerline
