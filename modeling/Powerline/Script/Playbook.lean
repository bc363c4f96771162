/-
Reactions that follow a playbook: for each occasion, what to do the first time, the second time
and so on, the last entry serving for all later times. A notebook keeps what was done and seen.
-/
import Powerline.Connection

namespace Powerline

/-- One thing a scripted reaction does. A frame that is refused ends the reaction unless sending it was
a try, of which the outcome is noted; a look notes what is to be seen on the desk. -/
inductive Act where
  | send (mode : Mode) (frame : Frame)
  | trySend (mode : Mode) (frame : Frame)
  | look
  | fail (fault : Fault)
  deriving DecidableEq, Repr

/-- What is noted. A sight is whether a frame was outstanding, the sum its echo had to match, and the
length of the notebook. -/
inductive Note where
  | occasion (o : Occasion)
  | outcome (result : Except Fault Unit)
  | sight (pending : Bool) (expected : UInt8) (length : Nat)
  | remark (text : String)

/-- The state of a host that follows a playbook: its notes, in order, and the occasions that have
come since the playbook was opened. -/
structure Notebook where
  notes : List Note := []
  past : List Occasion := []

namespace Notebook

def add (n : Note) (book : Notebook) : Notebook := { book with notes := book.notes ++ [n] }

/-- Forgets the notes. -/
def tear (book : Notebook) : Notebook := { book with notes := [] }

def enter (o : Occasion) (book : Notebook) : Notebook :=
  { book.add (.occasion o) with past := o :: book.past }

end Notebook

namespace Act

open Reaction

def perform : Act → Reaction Notebook Unit
  | send mode frame => Reaction.send mode frame
  | trySend mode frame => do
    let result ← Reaction.trySend mode frame
    let book ← get
    set (book.add (.outcome result))
  | look =>
    isPending fun pending => expected fun sum => do
      let book ← get
      set (book.add (.sight pending sum book.notes.length))
  | fail fault => abort fault

def performAll : List Act → Reaction Notebook Unit
  | [] => pure ()
  | act :: rest => do
    act.perform
    performAll rest

end Act

/-- What to do on each occasion, time by time. -/
structure Playbook where
  entries : Occasion → List (List Act) := fun _ => []

namespace Playbook

/-- What to do on an occasion that has come `n` times before. -/
def acts (o : Occasion) (n : Nat) (p : Playbook) : List Act :=
  let times := p.entries o
  times.getD (min n (times.length - 1)) []

open Reaction in
/-- The reaction to an occasion: it is noted, then comes what the playbook says. -/
def reaction (p : Playbook) (o : Occasion) : Reaction Notebook Unit := do
  let book ← get
  set (book.enter o)
  Act.performAll (p.acts o (book.past.count o))

def reactions (p : Playbook) : Reactions Notebook where
  interfaceReady := p.reaction .interfaceReady
  interfacePoll := p.reaction .interfacePoll
  timeRequest := p.reaction .timeRequest
  echoMatched := p.reaction .echoMatched
  echoDiffered := p.reaction .echoDiffered
  drained := p.reaction .drained

def openIn {τ : Type} (p : Playbook) (e : Connection τ Notebook) : Connection τ Notebook :=
  { e with reactions := p.reactions, host := { e.host with past := [] } }

end Playbook

end Powerline
