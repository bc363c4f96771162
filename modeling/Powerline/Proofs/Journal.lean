/-
What a desk's journal tells: the frames that the outbox took, each with the echoes that came before
it, and the releases of frames with the reactions to them.
-/
import Powerline.Proofs.Desk

namespace Powerline

variable {σ : Type}

namespace Event

/-- The frame that an event says was accepted. -/
def accepted? : Event → Option Frame
  | accepted _ frame => some frame
  | _ => none

/-- The byte that an event says was taken for an echo. -/
def echo? : Event → Option UInt8
  | heard b (.ok .echoMatched) | heard b (.ok (.echoDiffered _ _)) => some b
  | _ => none

/-- Whether an event is the release of a frame or the beginning of the reaction to one. -/
def isDraining : Event → Bool
  | released _ | reacted .drained => true
  | _ => false

end Event

theorem Signal.isDraining_reacted (s : Signal) : (Event.reacted s.occasion).isDraining = false := by
  rcases s with _ | _ | ⟨_ | _ | _⟩ <;> rfl

namespace Desk

/-- The frames that the outbox took, in order. -/
def accepted (d : Desk σ) : List Frame := d.journal.filterMap Event.accepted?

/-- The releases of frames and the beginnings of the reactions to them, in order. -/
def drainings (d : Desk σ) : List Event := d.journal.filter Event.isDraining

theorem accepted_note (event : Event) (d : Desk σ) :
    (d.note event).accepted = d.accepted ++ event.accepted?.toList := by
  simp only [accepted, journal_note, List.filterMap_append]
  cases h : event.accepted? <;> simp [h]

theorem drainings_note (event : Event) (d : Desk σ) :
    (d.note event).drainings = d.drainings ++ if event.isDraining then [event] else [] := by
  simp only [drainings, journal_note, List.filter_append]
  cases h : event.isDraining <;> simp [h]

@[simp] theorem accepted_queue (mode : Mode) (frame : Frame) (d : Desk σ) :
    (d.queue mode frame).accepted = d.accepted ++ [frame] := accepted_note _ _

@[simp] theorem drainings_queue (mode : Mode) (frame : Frame) (d : Desk σ) :
    (d.queue mode frame).drainings = d.drainings :=
  (drainings_note _ _).trans (List.append_nil _)

end Desk

/-! ## Sendings -/

/-- A frame that the outbox took, with the bytes taken for echoes since the frame before it. -/
structure Sending where
  answers : List UInt8
  frame : Frame
  deriving DecidableEq, Repr

namespace Sending

/-- The bytes taken for echoes since a frame was last taken, of events told newest first. -/
def answersOf : List Event → List UInt8
  | [] => []
  | event :: before =>
    match event.accepted? with
    | some _ => []
    | none => answersOf before ++ event.echo?.toList

/-- The sendings of events told newest first. -/
def ofHistory : List Event → List Sending
  | [] => []
  | event :: before =>
    match event.accepted? with
    | some frame => ofHistory before ++ [⟨answersOf before, frame⟩]
    | none => ofHistory before

end Sending

namespace Desk

/-- The bytes taken for echoes since the outbox last took a frame. -/
def answers (d : Desk σ) : List UInt8 := Sending.answersOf d.history

/-- The frames that the outbox took with the echoes before each, in order. -/
def sendings (d : Desk σ) : List Sending := Sending.ofHistory d.history

theorem sendings_note {event : Event} (h : event.accepted? = none) (d : Desk σ) :
    (d.note event).sendings = d.sendings := by
  simp only [sendings, note, Sending.ofHistory, h]

theorem answers_note {event : Event} (h : event.accepted? = none) (d : Desk σ) :
    (d.note event).answers = d.answers ++ event.echo?.toList := by
  simp only [answers, note, Sending.answersOf, h]

@[simp] theorem sendings_queue (mode : Mode) (frame : Frame) (d : Desk σ) :
    (d.queue mode frame).sendings = d.sendings ++ [⟨d.answers, frame⟩] := rfl

@[simp] theorem answers_queue (mode : Mode) (frame : Frame) (d : Desk σ) :
    (d.queue mode frame).answers = [] := rfl

@[simp] theorem accepted_attending (b : UInt8) (occasion : Occasion) (d : Desk σ) :
    (d.attending b occasion).accepted = d.accepted := by
  unfold attending classified
  rw [accepted_note, accepted_note]
  exact (List.append_nil _).trans (List.append_nil _)

@[simp] theorem sendings_attending (b : UInt8) (occasion : Occasion) (d : Desk σ) :
    (d.attending b occasion).sendings = d.sendings := rfl

/-- A byte heard while an echo is due is the answer. -/
theorem answers_attending_of_armed {d : Desk σ} (h : d.outbox.echo.armed = true) (b : UInt8)
    (occasion : Occasion) : (d.attending b occasion).answers = d.answers ++ [b] := by
  have hecho : (Event.heard b (d.outbox.echo.classify b).1).echo? = some b := by
    rw [Echo.classify_of_armed h]
    split <;> rfl
  unfold attending classified
  rw [answers_note rfl, answers_note rfl, hecho]
  exact List.append_nil _

theorem answers_attending_of_not_armed {d : Desk σ} (h : d.outbox.echo.armed = false) (b : UInt8)
    (occasion : Occasion) : (d.attending b occasion).answers = d.answers := by
  have hecho : (Event.heard b (d.outbox.echo.classify b).1).echo? = none := by
    rw [Echo.classify_of_not_armed h]
    cases Opcode.ofByte b <;> rfl
  unfold attending classified
  rw [answers_note rfl, answers_note rfl, hecho]
  exact (List.append_nil _).trans (List.append_nil _)

/-- The sendings are of the accepted frames. -/
theorem map_frame_sendings (d : Desk σ) : d.sendings.map Sending.frame = d.accepted := by
  obtain ⟨outbox, host, history⟩ := d
  simp only [sendings, accepted, journal]
  induction history with
  | nil => rfl
  | cons event before ih =>
    cases h : event.accepted? <;>
      simp [Sending.ofHistory, h, ih, List.filterMap_append]

end Desk

end Powerline
