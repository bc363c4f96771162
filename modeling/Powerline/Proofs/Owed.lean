/-
What an echo answers. A frame queued with verification makes its echo due at once, before a byte of it
is written; the byte that comes next is taken for that echo. The journal tells of each such byte whether
the frame was still outstanding then, and so whether the echo can have been one.
-/
import Powerline.Proofs.Keeping
import Powerline.Script.Line

namespace Powerline

variable {τ σ : Type}

/-! ## What the journal tells -/

/-- A byte taken for an echo, with the frame that was still outstanding when it came. -/
structure Taking where
  byte : UInt8
  outstanding : Option Frame
  deriving DecidableEq, Repr

namespace Taking

/-- The frame whose echo is awaited, of events told newest first: the last one taken, if it was to be
verified and no byte has been heard since. -/
def owedOf : List Event → Option Frame
  | [] => none
  | .accepted .verified frame :: _ => some frame
  | .accepted .plain _ :: _ | .heard _ _ :: _ => none
  | _ :: before => owedOf before

/-- The frame that is not all written, of events told newest first: the last one taken, if it has not
been released since. -/
def outstandingOf : List Event → Option Frame
  | [] => none
  | .accepted _ frame :: _ => some frame
  | .released _ :: _ => none
  | _ :: before => outstandingOf before

/-- The bytes taken for echoes, of events told newest first. -/
def ofHistory : List Event → List Taking
  | [] => []
  | event :: before =>
    ofHistory before ++ (event.echo?.map fun b => ⟨b, outstandingOf before⟩).toList

/-- What a byte means while the echo of a frame is awaited, or that of none. -/
def meaning (owed : Option Frame) (b : UInt8) : Except Fault Signal :=
  match owed with
  | some frame => .ok (if b = frame.checksum then .echoMatched else .echoDiffered frame.checksum b)
  | none => (Opcode.ofByte b).map .opcode

/-- A frame that is both owed an echo and outstanding is one frame. -/
theorem outstandingOf_of_owedOf {h : List Event} {frame : Frame} (howed : owedOf h = some frame) :
    outstandingOf h = some frame ∨ outstandingOf h = none := by
  induction h with
  | nil => exact .inr rfl
  | cons event before ih =>
    cases event with
    | accepted mode f => cases mode <;> cases howed; exact .inl rfl
    | heard b meaning => cases howed
    | released f => exact .inr rfl
    | refused | read | reacted | finished => exact ih howed

theorem classify_eq_meaning {e : Echo} {owed : Option Frame}
    (due : e.due = owed.map Frame.checksum) (b : UInt8) : (e.classify b).1 = meaning owed b := by
  have harmed := e.armed_eq_isSome_due
  cases owed with
  | none => exact Echo.classify_of_not_armed (by rw [harmed, due]; rfl)
  | some frame =>
    rw [Echo.classify_of_armed (by rw [harmed, due]; rfl), Echo.expected_of_due due]
    rfl

end Taking

namespace Desk

/-- The frame whose echo is awaited. -/
def owed (d : Desk σ) : Option Frame := Taking.owedOf d.history

/-- The frame that is not all written. -/
def outstanding (d : Desk σ) : Option Frame := Taking.outstandingOf d.history

/-- The bytes taken for echoes, in order. -/
def takings (d : Desk σ) : List Taking := Taking.ofHistory d.history

/-- The outbox holds what the journal tells: the sum of the frame that is owed an echo, and the frame
that is outstanding; and each byte heard had the meaning that the journal before it gives. -/
structure Owing (takings : List Taking) (d : Desk σ) : Prop where
  due : d.outbox.echo.due = d.owed.map Frame.checksum
  outstanding : d.outbox.pending = d.outstanding
  unfinished : d.outbox.Unfinished
  takings : d.takings = takings
  meanings : ∀ after b meaning before, d.history = after ++ .heard b meaning :: before →
    meaning = Taking.meaning (Taking.owedOf before) b

namespace Owing

variable {takings : List Taking} {d : Desk σ}

/-- An entry that is no byte's. -/
theorem meanings_cons {event : Event} {history : List Event}
    (h : ∀ after b meaning before, history = after ++ .heard b meaning :: before →
      meaning = Taking.meaning (Taking.owedOf before) b)
    (silent : ∀ b meaning, event ≠ .heard b meaning) :
    ∀ after b meaning before, event :: history = after ++ .heard b meaning :: before →
      meaning = Taking.meaning (Taking.owedOf before) b := by
  intro after b meaning before heq
  cases after with
  | nil => exact absurd (List.cons.inj heq).1 (silent b meaning)
  | cons first rest => exact h rest b meaning before (List.cons.inj heq).2

/-- An entry that tells nothing of frames and bytes. -/
theorem note (h : d.Owing takings) {event : Event} (silent : event.echo? = none)
    (howed : Taking.owedOf (event :: d.history) = Taking.owedOf d.history)
    (houtstanding : Taking.outstandingOf (event :: d.history) = Taking.outstandingOf d.history)
    (hheard : ∀ b meaning, event ≠ .heard b meaning) : (d.note event).Owing takings where
  due := h.due.trans (congrArg _ howed.symm)
  outstanding := h.outstanding.trans houtstanding.symm
  unfinished := h.unfinished
  takings := by
    rw [← h.takings]
    simp only [Desk.takings, Desk.note, Taking.ofHistory, silent]
    exact List.append_nil _
  meanings := meanings_cons h.meanings hheard

theorem submit (h : d.Owing takings) (mode : Mode) (frame : Frame) :
    (d.submit mode frame).2.Owing takings := by
  rcases d.submit_cases mode frame with ⟨-, hframe, hs⟩ | ⟨fault, hs⟩ <;> rw [hs]
  · refine ⟨?_, rfl, ?_, ?_, meanings_cons h.meanings nofun⟩
    · cases mode <;> rfl
    · exact d.unfinished_queue mode hframe
    · rw [← h.takings]
      exact List.append_nil _
  · exact h.note rfl rfl rfl nofun

/-- The byte that comes while an echo is due is taken for it, whether its frame is out or not. -/
theorem classified (h : d.Owing takings) (b : UInt8) : (d.classified b).Owing
    (takings ++ if d.outbox.echo.armed then [⟨b, d.outbox.pending⟩] else []) := by
  refine ⟨rfl, h.outstanding, h.unfinished, ?_, ?_⟩
  · have hecho : (Event.heard b (d.outbox.echo.classify b).1).echo? =
        if d.outbox.echo.armed then some b else none := by
      cases armed : d.outbox.echo.armed with
      | true => rw [Echo.classify_of_armed armed]; split <;> rfl
      | false => rw [Echo.classify_of_not_armed armed]; cases Opcode.ofByte b <;> rfl
    rw [← h.takings, h.outstanding]
    simp only [Desk.takings, Desk.classified, Desk.note, Taking.ofHistory, hecho]
    split <;> rfl
  · intro after b' meaning before heq
    cases after with
    | nil =>
      obtain ⟨⟨rfl, rfl⟩, rfl⟩ : (b = b' ∧ (d.outbox.echo.classify b).1 = meaning) ∧
          d.history = before := by simpa [Desk.classified, Desk.note] using heq
      exact Taking.classify_eq_meaning h.due b
    | cons first rest => exact h.meanings rest b' meaning before (List.cons.inj heq).2

end Owing

theorem kept_owing (takings : List Taking) : Kept fun d : Desk σ => d.Owing takings where
  unfinished _ h := h.unfinished
  submit _ mode frame h := h.submit mode frame
  host _ _ h := ⟨h.due, h.outstanding, h.unfinished, h.takings, h.meanings⟩
  read _ _ h := h.note rfl rfl rfl nofun
  reacted _ _ h := h.note rfl rfl rfl nofun
  finished _ _ _ h := h.note rfl rfl rfl nofun
  advanced _ _ _ h hp hmore :=
    ⟨h.due, h.outstanding, unfinished_advanced hp hmore, h.takings, h.meanings⟩
  released d frame h _ := by
    refine ⟨h.due, rfl, nofun, ?_, Owing.meanings_cons h.meanings nofun⟩
    rw [← h.takings]
    exact List.append_nil _

end Desk

/-! ## Along a run -/

namespace Connection

variable [Line τ]

/-- What an operation takes for an echo: the byte that it brings in while one is due, with the frame
outstanding then. -/
def taking (c : Connection τ σ) (op : Operation σ) : Option Taking :=
  if c.outbox.echo.armed then (c.inbound op).map (⟨·, c.outbox.pending⟩) else none

theorem perform_owing {c : Connection τ σ} {takings : List Taking} (h : c.toDesk.Owing takings)
    (op : Operation σ) : (c.perform op).toDesk.Owing (takings ++ (c.taking op).toList) := by
  cases hb : c.inbound op with
  | none =>
    have htaking : c.taking op = none := by simp [taking, hb]
    rw [htaking, Option.toList_none, List.append_nil]
    exact (Desk.kept_owing takings).perform_of_silent hb h
  | some b =>
    have htaking : (c.taking op).toList =
        if c.outbox.echo.armed then [⟨b, c.outbox.pending⟩] else [] := by
      simp only [taking, hb]
      split <;> rfl
    rw [htaking]
    refine (Desk.kept_owing takings).perform_of_inbound (Desk.kept_owing _) hb h fun d hd hsame => ?_
    rw [← hsame]
    exact hd.classified b

theorem performAll_owing {c : Connection τ σ} {takings : List Taking} (h : c.toDesk.Owing takings)
    (ops : List (Operation σ)) :
    (c.performAll ops).toDesk.Owing (takings ++ c.gather taking ops) := by
  induction ops generalizing c takings with
  | nil =>
    rw [gather, List.append_nil]
    exact h
  | cons op rest ih =>
    rw [gather, ← List.append_assoc]
    exact ih (perform_owing h op)

/-- What echoes are taken for: after any operations on a fresh connection over any line, whatever the
reactions do, each byte heard was compared with the sum of the last frame taken if that was to be
verified and no byte had been heard since, and was an opcode or unknown otherwise; an echo is due
exactly if there is such a frame now, and what is expected is its sum; that frame is outstanding, or
all of it is written, and nothing is outstanding exactly in the second case; and the bytes taken for
echoes are those that came in while one was due, each with the frame then outstanding, so that it was
taken before its frame was all written exactly if it came while a frame was outstanding. -/
theorem performAll_takings (line : τ) (host : σ) (reactions : Reactions σ)
    (ops : List (Operation σ)) :
    let start := Connection.fresh line host reactions
    let c := start.performAll ops
    (∀ before b meaning after, c.journal = before ++ .heard b meaning :: after →
      meaning = Taking.meaning (Taking.owedOf before.reverse) b) ∧
      (c.outbox.echo.armed = true ↔ c.owed ≠ none) ∧
      (∀ frame, c.owed = some frame → c.outbox.echo.expected = frame.checksum ∧
        (c.outbox.pending = some frame ∨ c.outbox.pending = none ∧ c.outstanding = none)) ∧
      c.outbox.pending = c.outstanding ∧
      c.takings = start.gather taking ops := by
  intro start c
  have hfresh : start.toDesk.Owing [] :=
    ⟨rfl, rfl, nofun, rfl, fun after _ _ _ h => by cases after <;> cases h⟩
  have h : c.toDesk.Owing (start.gather taking ops) := performAll_owing hfresh ops
  refine ⟨?_, ?_, ?_, h.outstanding, h.takings⟩
  · intro before b meaning after hjournal
    refine h.meanings after.reverse b meaning before.reverse ?_
    have hreverse := congrArg List.reverse hjournal
    simpa [Desk.journal] using hreverse
  · rw [Echo.armed_eq_isSome_due, h.due, Option.isSome_map, Option.isSome_iff_ne_none]
  · intro frame howed
    have hdue : c.outbox.echo.due = some frame.checksum := by rw [h.due, howed]; rfl
    refine ⟨Echo.expected_of_due hdue, ?_⟩
    rcases Taking.outstandingOf_of_owedOf howed with hout | hout
    · exact .inl (h.outstanding.trans hout)
    · exact .inr ⟨h.outstanding.trans hout, hout⟩

/-- An interface's poll that comes before the first byte of a verified frame is written is taken for a
wrong echo of it. -/
theorem performAll_takings_unwritten :
    let c := (Connection.fresh (σ := Unit) ({} : ScriptedLine) ()).performAll
      [.submit .verified [0x04, 0x6E], .feed 0x5A]
    c.takings = [⟨0x5A, some [0x04, 0x6E]⟩] ∧ c.outbox.unsent = [0x04, 0x6E] ∧
      c.dialogue = [.inl (.taken .verified [0x04, 0x6E]), .inl (.byte 0x5A),
        .inr (.reaction .echoDiffered)] := by
  decide

end Connection

end Powerline
