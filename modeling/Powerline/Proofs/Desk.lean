/-
What can happen at a desk. A submission either finds the outbox free and fills it, or leaves it as
it is; a reaction can do no more than submit frames and change the host's state, so what these keep
every reaction keeps; and an inbound byte touches nothing of a connection but its desk.
-/
import Powerline.Connection
import Mathlib.Tactic

namespace Powerline

variable {τ σ α : Type}

/-! ## Submissions -/

namespace Outbox

variable {o : Outbox}

theorem isPending_of_some {frame : Frame} (h : o.pending = some frame) : o.isPending = true := by
  rw [isPending, h]; rfl

theorem isPending_of_none (h : o.pending = none) : o.isPending = false := by
  rw [isPending, h]; rfl

theorem unsent_of_some {frame : Frame} (h : o.pending = some frame) :
    o.unsent = frame.drop o.sent := by
  rw [unsent, h]; rfl

/-- What is unsent is told by the slot. -/
theorem unsent_congr {o' : Outbox} (pending : o'.pending = o.pending) (sent : o'.sent = o.sent) :
    o'.unsent = o.unsent := by
  rw [unsent, unsent, pending, sent]

end Outbox

namespace Desk

/-- The desk after the outbox took a frame. -/
def queue (mode : Mode) (frame : Frame) (d : Desk σ) : Desk σ :=
  { d with outbox := ⟨some frame, 0, mode.prepare frame d.outbox.echo⟩ }.note (.accepted mode frame)

theorem submit_free {d : Desk σ} (mode : Mode) {frame : Frame} (free : d.outbox.pending = none)
    (hframe : frame ≠ []) : d.submit mode frame = (.ok (), d.queue mode frame) := by
  simp [submit, Outbox.submit, Outbox.isPending_of_none free, hframe, queue]

theorem submit_taken {d : Desk σ} (mode : Mode) (frame : Frame) {f : Frame}
    (taken : d.outbox.pending = some f) :
    d.submit mode frame = (.error .alreadyPending, d.note (.refused mode frame)) := by
  simp [submit, Outbox.submit, Outbox.isPending_of_some taken]

/-- A submission that fails only enters the refusal; one that succeeds found the outbox free. -/
theorem submit_cases (mode : Mode) (frame : Frame) (d : Desk σ) :
    (d.outbox.pending = none ∧ frame ≠ [] ∧ d.submit mode frame = (.ok (), d.queue mode frame)) ∨
      ∃ fault, d.submit mode frame = (.error fault, d.note (.refused mode frame)) := by
  cases hp : d.outbox.pending with
  | some f => exact .inr ⟨_, submit_taken mode frame hp⟩
  | none =>
    by_cases hframe : frame = []
    · refine .inr ⟨.invalidFrame "empty write", ?_⟩
      simp [submit, Outbox.submit, Outbox.isPending_of_none hp, hframe]
    · exact .inl ⟨rfl, hframe, submit_free mode hp hframe⟩

end Desk

/-! ## Reactions -/

/-- A reaction keeps whatever submissions and changes of the host's state keep. -/
theorem Reaction.run_keeps {P : Desk σ → Prop}
    (submit : ∀ d mode frame, P d → P (d.submit mode frame).2)
    (host : ∀ d s, P d → P { d with host := s }) (r : Reaction σ α) (d : Desk σ) (h : P d) :
    P (r.run d).2 := by
  induction r generalizing d with
  | done a => exact h
  | abort e => exact h
  | submit mode frame next ih => exact ih _ _ (submit d mode frame h)
  | isPending next ih => exact ih _ _ h
  | expected next ih => exact ih _ _ h
  | host next ih => exact ih _ _ h
  | setHost s next ih => exact ih _ (host d s h)

@[simp] theorem Reaction.run_send (mode : Mode) (frame : Frame) (d : Desk σ) :
    (Reaction.send mode frame).run d = d.submit mode frame := by
  simp only [Reaction.send, Reaction.run]
  rcases d.submit mode frame with ⟨_ | _, _⟩ <;> rfl

/-! ## Entries and the host's state -/

namespace Desk

/-- The desk with another state of the host. -/
def withHost (host : σ) (d : Desk σ) : Desk σ := { d with host }

@[simp] theorem outbox_withHost (s : σ) (d : Desk σ) : (d.withHost s).outbox = d.outbox := rfl

@[simp] theorem host_withHost (s : σ) (d : Desk σ) : (d.withHost s).host = s := rfl

@[simp] theorem journal_withHost (s : σ) (d : Desk σ) : (d.withHost s).journal = d.journal := rfl

@[simp] theorem outbox_queue (mode : Mode) (frame : Frame) (d : Desk σ) :
    (d.queue mode frame).outbox = ⟨some frame, 0, mode.prepare frame d.outbox.echo⟩ := rfl

@[simp] theorem host_queue (mode : Mode) (frame : Frame) (d : Desk σ) :
    (d.queue mode frame).host = d.host := rfl

@[simp] theorem journal_queue (mode : Mode) (frame : Frame) (d : Desk σ) :
    (d.queue mode frame).journal = d.journal ++ [.accepted mode frame] := journal_note _ _

end Desk

/-! ## Inbound bytes -/

/-- Whatever a byte means, no echo is due after it, and the sum stays. -/
theorem Echo.classify_snd (b : UInt8) (e : Echo) : (e.classify b).2 = e.clear := by
  obtain ⟨armed, expected⟩ := e
  cases armed <;> rfl

theorem Echo.classify_of_armed {b : UInt8} {e : Echo} (h : e.armed = true) :
    (e.classify b).1 =
      .ok (if b = e.expected then .echoMatched else .echoDiffered e.expected b) := by
  by_cases hb : b = e.expected <;> simp [Echo.classify, h, Echo.consume, hb]

theorem Echo.classify_of_not_armed {b : UInt8} {e : Echo} (h : e.armed = false) :
    (e.classify b).1 = (Opcode.ofByte b).map .opcode := by
  simp [Echo.classify, h]

/-- A byte without a meaning is no opcode, and no echo was due. -/
theorem Echo.of_classify_error {b : UInt8} {e : Echo} {fault : Fault}
    (h : (e.classify b).1 = .error fault) : fault = .unknownOpcode b ∧ e.clear = e := by
  obtain ⟨armed, expected⟩ := e
  cases armed with
  | true =>
    rw [classify_of_armed rfl] at h
    cases h
  | false =>
    rw [classify_of_not_armed rfl, Opcode.ofByte] at h
    split_ifs at h <;> cases h
    exact ⟨rfl, rfl⟩

namespace Desk

/-- The desk once an inbound byte has its meaning: no echo is due any more. -/
def classified (b : UInt8) (d : Desk σ) : Desk σ :=
  { d with outbox := { d.outbox with echo := d.outbox.echo.clear } }.note
    (.heard b (d.outbox.echo.classify b).1)

/-- The desk when the reaction to an inbound byte begins. -/
def attending (b : UInt8) (occasion : Occasion) (d : Desk σ) : Desk σ :=
  (d.classified b).note (.reacted occasion)

@[simp] theorem outbox_attending (b : UInt8) (occasion : Occasion) (d : Desk σ) :
    (d.attending b occasion).outbox = { d.outbox with echo := d.outbox.echo.clear } := rfl

@[simp] theorem host_attending (b : UInt8) (occasion : Occasion) (d : Desk σ) :
    (d.attending b occasion).host = d.host := rfl

/-- What an inbound byte does at the desk. -/
def hear (b : UInt8) (r : Reactions σ) (d : Desk σ) : Except Fault Unit × Desk σ :=
  match (d.outbox.echo.classify b).1 with
  | .error fault => (.error fault, d.classified b)
  | .ok signal => (d.classified b).react signal.occasion r

end Desk

theorem Connection.feed_eq (b : UInt8) (c : Connection τ σ) :
    c.feed b = ((c.toDesk.hear b c.reactions).1,
      { c with toDesk := (c.toDesk.hear b c.reactions).2 }) := by
  have hecho := c.outbox.echo.classify_snd b
  unfold Connection.feed Desk.hear Desk.classified
  rcases hc : c.outbox.echo.classify b with ⟨fault | signal, echo⟩ <;>
    (rw [hc] at hecho; subst hecho; rfl)

end Powerline
