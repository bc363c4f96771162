/-
No byte is lost on the way out. Whatever the host's reactions do and whatever fails, the frames the
outbox took are those completed followed by the outstanding one, the line took the completed ones
whole and the beginning of the outstanding one, and each completed frame was reacted to once.
-/
import Powerline.Proofs.Journal
import Powerline.Proofs.Moves
import Powerline.Port.Terminal

namespace Powerline

variable {τ σ α : Type}

/-- A line that tells the truth of its writes: the bytes it took, `taken`, grow by as many of the
offered ones as it says, a write that fails takes none, and nothing else touches them. -/
structure Line.Truthful [Line τ] (taken : τ → List UInt8) : Prop where
  write_ok : ∀ (offered : List UInt8) (line : τ) (n : Nat), (Line.write offered line).1 = .ok n →
    n ≤ offered.length ∧ taken (Line.write offered line).2 = taken line ++ offered.take n
  write_error : ∀ (offered : List UInt8) (line : τ) (e : IoFault),
    (Line.write offered line).1 = .error e → taken (Line.write offered line).2 = taken line
  readByte : ∀ line : τ, taken (Line.readByte line).2 = taken line
  probe : ∀ line : τ, taken (Line.probe line).2 = taken line

theorem Terminal.truthful : Line.Truthful Terminal.outbound where
  write_ok offered t n h := by
    simp only [Line.write, Terminal.write] at h ⊢
    split_ifs at h ⊢ <;> cases h <;> simp
  write_error offered t e h := by
    simp only [Line.write, Terminal.write] at h ⊢
    -- only a terminal without another end refuses a write
    split_ifs at h ⊢
    rfl
  readByte t := by
    simp only [Line.readByte, Terminal.read]
    split_ifs <;> rfl
  probe _ := rfl

/-- The bytes of the outstanding frame that are written. -/
def Outbox.written (o : Outbox) : List UInt8 := (o.pending.getD []).take o.sent

/-- What the journal of a desk says of the frames it took and completed, and of the bytes written. -/
structure Desk.Conserves (completed : List Frame) (wire : List UInt8) (d : Desk σ) : Prop where
  accepted : d.accepted = completed ++ d.outbox.pending.toList
  wire : wire = completed.flatten ++ d.outbox.written
  drainings : d.drainings = completed.flatMap fun frame => [.released frame, .reacted .drained]
  unfinished : d.outbox.Unfinished

namespace Desk.Conserves

variable {completed : List Frame} {wire : List UInt8} {d : Desk σ}

/-! ## At the desk -/

theorem note (h : d.Conserves completed wire) {event : Event} (ha : event.accepted? = none)
    (hd : event.isDraining = false) : (d.note event).Conserves completed wire := by
  refine ⟨?_, h.wire, ?_, h.unfinished⟩
  · rw [accepted_note, ha, h.accepted]
    simp
  · rw [drainings_note, hd, h.drainings]
    simp

theorem echo (h : d.Conserves completed wire) (echo : Echo) :
    { d with outbox := { d.outbox with echo } }.Conserves completed wire :=
  ⟨h.accepted, h.wire, h.drainings, h.unfinished⟩

theorem host (h : d.Conserves completed wire) (host : σ) :
    { d with host }.Conserves completed wire :=
  ⟨h.accepted, h.wire, h.drainings, h.unfinished⟩

theorem submit (h : d.Conserves completed wire) (mode : Mode) (frame : Frame) :
    (d.submit mode frame).2.Conserves completed wire := by
  rcases d.submit_cases mode frame with ⟨free, hframe, hs⟩ | ⟨fault, hs⟩ <;> rw [hs]
  · have hacc := h.accepted
    have hwire := h.wire
    rw [free] at hacc
    simp only [Outbox.written, free] at hwire
    constructor
    · rw [accepted_queue, hacc]
      simp [queue]
    · rw [hwire]
      simp [queue, Outbox.written]
    · rw [drainings_queue, h.drainings]
    · exact d.unfinished_queue mode hframe
  · exact h.note rfl rfl

theorem run (h : d.Conserves completed wire) (r : Reaction σ α) :
    (r.run d).2.Conserves completed wire :=
  r.run_keeps (P := Conserves completed wire) (fun _ mode frame h => h.submit mode frame)
    (fun _ s h => h.host s) d h

/-- A reaction conserves, whatever it does; the entry that it began is the desk's. -/
theorem react {occasion : Occasion} (r : Reactions σ)
    (h : (d.note (.reacted occasion)).Conserves completed wire) :
    (d.react occasion r).2.Conserves completed wire :=
  (h.run (r.toOccasion occasion)).note rfl rfl

theorem hear (h : d.Conserves completed wire) (b : UInt8) (r : Reactions σ) :
    (d.hear b r).2.Conserves completed wire := by
  have hc : (d.classified b).Conserves completed wire := (h.echo _).note rfl rfl
  unfold Desk.hear
  split
  · exact hc
  · rename_i signal _
    exact (hc.note rfl signal.isDraining_reacted).react r

theorem advanced (h : d.Conserves completed wire) {frame : Frame} {n : Nat}
    (hp : d.outbox.pending = some frame) (hn : d.outbox.sent + n < frame.length) :
    (d.advanced n).Conserves completed (wire ++ (frame.drop d.outbox.sent).take n) := by
  refine ⟨h.accepted, ?_, h.drainings, unfinished_advanced hp hn⟩
  rw [h.wire]
  simp [Desk.advanced, Outbox.written, hp, List.take_add]

/-- The frame whose last byte is written counts as completed from its release on. -/
theorem released (h : d.Conserves completed wire) {frame : Frame}
    (hp : d.outbox.pending = some frame) :
    ((d.released frame).note (.reacted .drained)).Conserves (completed ++ [frame])
      (wire ++ frame.drop d.outbox.sent) := by
  have hacc := h.accepted
  have hdr := h.drainings
  have hwire := h.wire
  simp only [Outbox.written, hp, Option.getD_some] at hwire
  rw [hp] at hacc
  have hnone : ((d.released frame).note (.reacted .drained)).outbox.pending = none := rfl
  constructor
  · rw [accepted_note, Desk.released, accepted_note]
    show d.accepted ++ [] ++ [] = completed ++ [frame] ++ []
    simpa using hacc
  · rw [hwire]
    simp [Desk.released, Outbox.written]
  · rw [drainings_note, Desk.released, drainings_note]
    show d.drainings ++ [.released frame] ++ [.reacted .drained] = _
    simp [hdr]
  · intro f hf
    rw [hnone] at hf
    cases hf

end Desk.Conserves

/-! ## Along a run -/

/-- A connection over a line that had taken `before` when the connection was made: what its desk
says is what the line took, and the counter of bytes written agrees. -/
def Connection.Conserves (taken : τ → List UInt8) (before : List UInt8) (c : Connection τ σ) : Prop :=
  ∃ completed wire, taken c.line = before ++ wire ∧ c.toDesk.Conserves completed wire ∧
    c.transmitted = UInt64.ofNat wire.length

namespace Connection.Conserves

variable {taken : τ → List UInt8} {before : List UInt8} {c : Connection τ σ}

theorem fresh (taken : τ → List UInt8) (line : τ) (host : σ) (reactions : Reactions σ) :
    (Connection.fresh line host reactions).Conserves taken (taken line) :=
  ⟨[], [], (List.append_nil _).symm, ⟨rfl, rfl, rfl, fun _ h => by cases h⟩, rfl⟩

theorem line (h : c.Conserves taken before) {line : τ} (hl : taken line = taken c.line) :
    { c with line }.Conserves taken before := by
  obtain ⟨completed, wire, ht, hd, hn⟩ := h
  exact ⟨completed, wire, hl.trans ht, hd, hn⟩

theorem feed (h : c.Conserves taken before) (b : UInt8) : (c.feed b).2.Conserves taken before := by
  obtain ⟨completed, wire, ht, hd, hn⟩ := h
  rw [Connection.feed_eq]
  exact ⟨completed, wire, ht, hd.hear b c.reactions, hn⟩

variable [Line τ]

theorem drain (truthful : Line.Truthful taken) (h : c.Conserves taken before) :
    c.drain.2.Conserves taken before := by
  obtain ⟨completed, wire, ht, hd, hn⟩ := h
  have hdraining := Connection.draining (c := c) hd.unfinished
  generalize c.drain.1 = result, c.drain.2 = c' at hdraining ⊢
  cases hdraining with
  | idle free => exact ⟨completed, wire, ht, hd, hn⟩
  | @failed frame reason pending nothing =>
    refine ⟨completed, wire, Eq.trans ?_ ht, hd, hn⟩
    cases hw : (Line.write (frame.drop c.outbox.sent) c.line).1 with
    | error e => exact truthful.write_error _ _ e hw
    | ok n =>
      obtain ⟨-, htaken⟩ := truthful.write_ok _ _ n hw
      rw [nothing n hw, List.take_zero, List.append_nil] at htaken
      exact htaken
  | @partly frame n pending took pos more =>
    -- the frame stays outstanding
    obtain ⟨hle, htaken⟩ := truthful.write_ok _ _ n took
    have hlen : ((frame.drop c.outbox.sent).take n).length = n := by simp; omega
    refine ⟨completed, _, htaken.trans ?_, hd.advanced pending more, ?_⟩
    · rw [ht, List.append_assoc]
    · simp [hn, hlen, List.length_append]
  | @last frame n pending took unfinished rest =>
    obtain ⟨hle, htaken⟩ := truthful.write_ok _ _ n took
    rw [List.length_drop] at hle
    have hall : n = frame.length - c.outbox.sent := by omega
    -- the frame is completed before the reaction, which may queue the next one
    refine ⟨completed ++ [frame], _, htaken.trans ?_, (hd.released pending).react c.reactions, ?_⟩
    · rw [ht, List.append_assoc, List.take_of_length_le (by simp; omega)]
    · simp [hn, List.length_append]

theorem kept (truthful : Line.Truthful taken) :
    Connection.Kept (σ := σ) (Conserves taken before) (Conserves taken before) where
  fails _ h := h
  readByte c h := h.line (truthful.readByte c.line)
  feed c b h := by
    obtain ⟨completed, wire, ht, hd, hn⟩ := h
    have hread : (c.toDesk.note (.read b)).Conserves completed wire := hd.note rfl rfl
    exact ends_self.2 (feed (c := { c with
      toDesk := c.toDesk.note (.read b), received := c.received + 1 })
      ⟨completed, wire, ht, hread, hn⟩ b)
  probe c h := h.line (truthful.probe c.line)
  drain _ h := ends_self.2 (h.drain truthful)

theorem perform (truthful : Line.Truthful taken) (h : c.Conserves taken before) (op : Operation σ) :
    (c.perform op).Conserves taken before := by
  cases op with
  | submit mode frame =>
    obtain ⟨completed, wire, ht, hd, hn⟩ := h
    exact ⟨completed, wire, ht, hd.submit mode frame, hn⟩
  | feed b => exact h.feed b
  | drain => exact h.drain truthful
  | tick found => exact ends_self.1 ((kept truthful).tick found h)
  | setReactions r => exact h
  | setHost s =>
    obtain ⟨completed, wire, ht, hd, hn⟩ := h
    exact ⟨completed, wire, ht, hd.host s, hn⟩

end Connection.Conserves

/-- Wire conservation: after any operations on a fresh connection over a truthful line, successful
or not, there are completed frames such that the frames accepted are these and the outstanding one,
in order; the line took these whole and of the outstanding one the bytes counted as sent; the host
reacted once to the release of each of these, and to no other; and the counter of bytes written
counts the bytes taken, as far as it can count. What is entered as a reaction to a release is the
connection's reaction, run there: the operations move the desk in no other way. -/
theorem Connection.performAll_conserves [Line τ] {taken : τ → List UInt8}
    (truthful : Line.Truthful taken) (line : τ) (host : σ) (reactions : Reactions σ)
    (ops : List (Operation σ)) :
    let c := (Connection.fresh line host reactions).performAll ops
    (∃ completed wire,
      c.accepted = completed ++ c.outbox.pending.toList ∧
      taken c.line = taken line ++ wire ∧
      wire = completed.flatten ++ (c.outbox.pending.getD []).take c.outbox.sent ∧
      c.drainings = completed.flatMap (fun frame => [.released frame, .reacted .drained]) ∧
      (wire.length < 2 ^ 64 → c.transmitted.toNat = wire.length)) ∧
    ∀ op, (∀ state, op ≠ .setHost state) →
      Desk.Moves c.reactions c.toDesk (c.perform op).toDesk := by
  intro c
  have h : c.Conserves taken (taken line) :=
    performAll_keeps (fun c op h => h.perform truthful op) ops _
      (Conserves.fresh taken line host reactions)
  obtain ⟨completed, wire, ht, hd, hn⟩ := h
  constructor
  · refine ⟨completed, wire, hd.accepted, ht, hd.wire, hd.drainings, fun hlt => ?_⟩
    rw [hn, UInt64.toNat_ofNat_of_lt' hlt]
  · intro op other
    exact perform_moves hd.unfinished other

/-- On a terminal, with a frame refused while another is outstanding and one queued by a reaction:
the first frame is out whole, the reaction's is outstanding. -/
theorem Connection.performAll_conserves_terminal :
    let reactions : Reactions Unit := { echoMatched := .send .plain [0x00] }
    let c := (Connection.fresh ({} : Terminal) () reactions).performAll
      [.submit .verified [0x04, 0x6E], .submit .plain [0x9B], .drain, .feed 0x72]
    Line.Truthful Terminal.outbound ∧ c.outbox.pending = some [0x00] ∧
      (∃ completed wire,
        c.accepted = completed ++ c.outbox.pending.toList ∧
        c.line.outbound = wire ∧
        wire = completed.flatten ++ (c.outbox.pending.getD []).take c.outbox.sent ∧
        c.drainings = completed.flatMap (fun frame => [.released frame, .reacted .drained]) ∧
        (wire.length < 2 ^ 64 → c.transmitted.toNat = wire.length)) ∧
      ∀ op, (∀ state, op ≠ .setHost state) →
        Desk.Moves c.reactions c.toDesk (c.perform op).toDesk :=
  ⟨Terminal.truthful, rfl, performAll_conserves Terminal.truthful ({} : Terminal) () _ _⟩

end Powerline
