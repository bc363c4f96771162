/-
The desk at which a host's reactions work: the outbox, the host's own state, and a journal of what
has happened. The journal is kept newest first; `journal` reads it in the order of events.
-/
import Powerline.Outbox

namespace Powerline

/-! ## The journal -/

/-- The occasions on which the host may react: the signals, and the last byte of a frame written. -/
inductive Occasion where
  | interfaceReady
  | interfacePoll
  | timeRequest
  | echoMatched
  | echoDiffered
  | drained
  deriving DecidableEq, Repr

def Signal.occasion : Signal → Occasion
  | .echoMatched => .echoMatched
  | .echoDiffered _ _ => .echoDiffered
  | .opcode .interfaceReady => .interfaceReady
  | .opcode .interfacePoll => .interfacePoll
  | .opcode .timeRequest => .timeRequest

/-- Something that has happened. A tick reads a byte, which is then heard with its meaning or without
one; a frame is released when its last byte is written. -/
inductive Event where
  | accepted (mode : Mode) (frame : Frame)
  | refused (mode : Mode) (frame : Frame)
  | read (byte : UInt8)
  | heard (byte : UInt8) (meaning : Except Fault Signal)
  | reacted (occasion : Occasion)
  | finished (occasion : Occasion) (result : Except Fault Unit)
  | released (frame : Frame)

/-! ## The desk -/

/-- What a reaction may touch, and what has happened there. -/
structure Desk (σ : Type) where
  outbox : Outbox := {}
  host : σ
  history : List Event := []

namespace Desk

variable {σ : Type}

def journal (d : Desk σ) : List Event := d.history.reverse

def note (event : Event) (d : Desk σ) : Desk σ := { d with history := event :: d.history }

/-- Queues a frame and enters whether it was taken. -/
def submit (mode : Mode) (frame : Frame) (d : Desk σ) : Except Fault Unit × Desk σ :=
  match d.outbox.submit mode frame with
  | .ok outbox => (.ok (), { d with outbox }.note (.accepted mode frame))
  | .error fault => (.error fault, d.note (.refused mode frame))

@[simp] theorem journal_note (event : Event) (d : Desk σ) :
    (d.note event).journal = d.journal ++ [event] := by simp [journal, note]

@[simp] theorem outbox_note (event : Event) (d : Desk σ) : (d.note event).outbox = d.outbox := rfl

@[simp] theorem host_note (event : Event) (d : Desk σ) : (d.note event).host = d.host := rfl

end Desk

end Powerline
