/-
Reactions of the host to what happens around its desk. A reaction is a finite program that can queue
frames, look at the outbox and use the host's own state; it can reach nothing else. It may give
up, which keeps what it did so far.
-/
import Powerline.Desk

namespace Powerline

/-- A program over the desk of a host with state `σ`, ending in an `α`. -/
inductive Reaction (σ : Type) (α : Type) : Type where
  | done (value : α)
  | abort (fault : Fault)
  | submit (mode : Mode) (frame : Frame) (next : Except Fault Unit → Reaction σ α)
  | isPending (next : Bool → Reaction σ α)
  | expected (next : UInt8 → Reaction σ α)
  | host (next : σ → Reaction σ α)
  | setHost (state : σ) (next : Reaction σ α)

namespace Reaction

variable {σ α β : Type}

/-- One program after the other; a first one that gives up is the last. -/
def bind (r : Reaction σ α) (f : α → Reaction σ β) : Reaction σ β :=
  match r with
  | done a => f a
  | abort e => abort e
  | submit mode frame next => submit mode frame fun x => (next x).bind f
  | isPending next => isPending fun x => (next x).bind f
  | expected next => expected fun x => (next x).bind f
  | host next => host fun x => (next x).bind f
  | setHost s next => setHost s (next.bind f)

instance : Monad (Reaction σ) where
  pure := done
  bind := bind

/-- Queues a frame; a refusal ends the reaction. -/
def send (mode : Mode) (frame : Frame) : Reaction σ Unit :=
  submit mode frame fun
    | .ok () => done ()
    | .error e => abort e

/-- Queues a frame and tells whether it was taken. -/
def trySend (mode : Mode) (frame : Frame) : Reaction σ (Except Fault Unit) := submit mode frame done

def get : Reaction σ σ := host done

def set (s : σ) : Reaction σ Unit := setHost s (done ())

def run : Reaction σ α → Desk σ → Except Fault α × Desk σ
  | done a, d => (.ok a, d)
  | abort e, d => (.error e, d)
  | submit mode frame next, d =>
    let (result, d) := d.submit mode frame
    (next result).run d
  | isPending next, d => (next d.outbox.isPending).run d
  | expected next, d => (next d.outbox.echo.expected).run d
  | host next, d => (next d.host).run d
  | setHost s next, d => next.run { d with host := s }

/-- A program and its continuation run one after the other. -/
theorem run_bind (r : Reaction σ α) (f : α → Reaction σ β) (d : Desk σ) :
    (r.bind f).run d =
      match r.run d with
      | (.ok a, d') => (f a).run d'
      | (.error e, d') => (.error e, d') := by
  induction r generalizing d with
  | done a => rfl
  | abort e => rfl
  | submit mode frame next ih => simp only [bind, run]; exact ih _ _
  | isPending next ih => simp only [bind, run]; exact ih _ _
  | expected next ih => simp only [bind, run]; exact ih _ _
  | host next ih => simp only [bind, run]; exact ih _ _
  | setHost s next ih => simp only [bind, run]; exact ih _

end Reaction

/-! ## One reaction for each occasion -/

/-- The reactions of a host; one that is not given does nothing. What a host remembers from one
reaction to the next is in its state. -/
structure Reactions (σ : Type) where
  interfaceReady : Reaction σ Unit := pure ()
  interfacePoll : Reaction σ Unit := pure ()
  timeRequest : Reaction σ Unit := pure ()
  echoMatched : Reaction σ Unit := pure ()
  echoDiffered : Reaction σ Unit := pure ()
  drained : Reaction σ Unit := pure ()

namespace Reactions

variable {σ : Type}

def toOccasion (r : Reactions σ) : Occasion → Reaction σ Unit
  | .interfaceReady => r.interfaceReady
  | .interfacePoll => r.interfacePoll
  | .timeRequest => r.timeRequest
  | .echoMatched => r.echoMatched
  | .echoDiffered => r.echoDiffered
  | .drained => r.drained

end Reactions

/-- Runs a reaction and enters its beginning and its end. -/
def Desk.react {σ : Type} (occasion : Occasion) (r : Reactions σ) (d : Desk σ) :
    Except Fault Unit × Desk σ :=
  let (result, d) := (r.toOccasion occasion).run (d.note (.reacted occasion))
  (result, d.note (.finished occasion result))

end Powerline
