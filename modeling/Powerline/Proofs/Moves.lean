/-
The moves of a desk. Whatever is done with a connection, but for giving the host another state, takes
the desk along by a few kinds of moves. Of these only the reaction to an occasion, run at the desk as it
is then, enters in the journal that one began and how it ended: what the journal says of reactions is
what was run.
-/
import Powerline.Proofs.Connection

namespace Powerline

variable {τ σ : Type}

namespace Desk

/-- One move of a desk whose host has the reactions `r`. It leaves the host's state alone, unless a
reaction changes it. -/
inductive Move (r : Reactions σ) (d : Desk σ) : Desk σ → Prop where
  | submit (mode : Mode) (frame : Frame) : Move r d (d.submit mode frame).2
  | read (b : UInt8) : Move r d (d.note (.read b))
  | classified (b : UInt8) : Move r d (d.classified b)
  | advanced {n : Nat} {frame : Frame} (pending : d.outbox.pending = some frame)
      (more : d.outbox.sent + n < frame.length) : Move r d (d.advanced n)
  | released {frame : Frame} (pending : d.outbox.pending = some frame) : Move r d (d.released frame)
  | reaction {occasion : Occasion} {result : Except Fault Unit} {left : Desk σ}
      (run : (r.toOccasion occasion).run (d.note (.reacted occasion)) = (result, left)) :
      Move r d (left.note (.finished occasion result))

/-- So many moves. -/
abbrev Moves (r : Reactions σ) : Desk σ → Desk σ → Prop := Relation.ReflTransGen (Move r)

/-- A desk reached by moves, whose outstanding frame still has a byte to be written. -/
structure Reached (r : Reactions σ) (start d : Desk σ) : Prop where
  moves : Moves r start d
  unfinished : d.outbox.Unfinished

theorem unfinished_submit {d : Desk σ} (h : d.outbox.Unfinished) (mode : Mode) (frame : Frame) :
    (d.submit mode frame).2.outbox.Unfinished := by
  rcases d.submit_cases mode frame with ⟨-, hframe, hs⟩ | ⟨fault, hs⟩ <;> rw [hs]
  · exact d.unfinished_queue mode hframe
  · exact h

namespace Reached

variable {r : Reactions σ} {start d : Desk σ}

theorem submit (h : Reached r start d) (mode : Mode) (frame : Frame) :
    Reached r start (d.submit mode frame).2 :=
  ⟨h.moves.tail (.submit mode frame), unfinished_submit h.unfinished mode frame⟩

theorem react (h : Reached r start d) (occasion : Occasion) :
    Reached r start (d.react occasion r).2 := by
  refine ⟨h.moves.tail (.reaction rfl), ?_⟩
  exact (r.toOccasion occasion).run_keeps (P := fun d => d.outbox.Unfinished)
    (fun _ mode frame hd => unfinished_submit hd mode frame) (fun _ _ hd => hd) _ h.unfinished

theorem hear (h : Reached r start d) (b : UInt8) : Reached r start (d.hear b r).2 := by
  have hclassified : Reached r start (d.classified b) := ⟨h.moves.tail (.classified b), h.unfinished⟩
  unfold Desk.hear
  split
  · exact hclassified
  · exact hclassified.react _

end Reached

end Desk

namespace Connection

variable [Line τ]

open Desk

theorem reached_drain {c : Connection τ σ} {start : Desk σ}
    (h : Reached c.reactions start c.toDesk) : Reached c.reactions start c.drain.2.toDesk := by
  have hdraining := draining h.unfinished
  generalize c.drain.1 = result, c.drain.2 = c' at hdraining ⊢
  cases hdraining with
  | idle free => exact h
  | failed pending nothing => exact h
  | partly pending took pos more =>
    exact ⟨h.moves.tail (.advanced pending more), unfinished_advanced pending more⟩
  | last pending took unfinished rest =>
    have hreleased : Reached c.reactions start (c.toDesk.released _) :=
      ⟨h.moves.tail (.released pending), nofun⟩
    exact hreleased.react .drained

/-- A tick makes none but moves. -/
theorem kept_reached (r : Reactions σ) (start : Desk σ) :
    Kept (fun c : Connection τ σ => c.reactions = r ∧ Reached r start c.toDesk)
      fun c => c.reactions = r ∧ Reached r start c.toDesk where
  fails _ h := h
  readByte _ h := h
  feed c b h := by
    obtain ⟨rfl, h⟩ := h
    have hread : Reached c.reactions start (c.toDesk.note (.read b)) :=
      ⟨h.moves.tail (.read b), h.unfinished⟩
    rw [feed_eq, ends_self]
    exact ⟨rfl, hread.hear b⟩
  probe _ h := h
  drain c h := by
    obtain ⟨rfl, h⟩ := h
    exact ends_self.2 ⟨(ends_self.1 ((kept_reactions c.reactions).drain c rfl)), reached_drain h⟩

/-- Every operation of the host takes the desk along by moves, with the reactions of the connection; but
for one that gives the host another state. -/
theorem perform_moves {c : Connection τ σ} (unfinished : c.outbox.Unfinished) {op : Operation σ}
    (other : ∀ state, op ≠ .setHost state) :
    Moves c.reactions c.toDesk (c.perform op).toDesk := by
  have hstart : Reached c.reactions c.toDesk c.toDesk := ⟨.refl, unfinished⟩
  cases op with
  | submit mode frame => exact .single (.submit mode frame)
  | feed b =>
    show Moves _ _ (c.feed b).2.toDesk
    rw [feed_eq]
    exact (hstart.hear b).moves
  | drain => exact (reached_drain hstart).moves
  | tick found =>
    obtain ⟨-, hreached⟩ := ends_self.1 ((kept_reached c.reactions c.toDesk).tick found ⟨rfl, hstart⟩)
    exact hreached.moves
  | setReactions reactions => exact .refl
  | setHost state => exact absurd rfl (other state)

end Connection

end Powerline
