/-
What a desk keeps. Between two inbound bytes a desk moves by submissions, changes of the host's
state, bytes written and entries in its journal; a property that these keep is kept by every
operation of the host, with what the inbound byte makes of it if the operation brings one in.
-/
import Powerline.Proofs.Pairing

namespace Powerline

variable {τ σ : Type}

namespace Desk

/-- What keeps `P` at a desk but for inbound bytes, whatever the host's reactions do. -/
structure Kept (P : Desk σ → Prop) : Prop where
  unfinished : ∀ d, P d → d.outbox.Unfinished
  submit : ∀ d mode frame, P d → P (d.submit mode frame).2
  host : ∀ d s, P d → P { d with host := s }
  read : ∀ d b, P d → P (d.note (.read b))
  reacted : ∀ d occasion, P d → P (d.note (.reacted occasion))
  finished : ∀ d occasion result, P d → P (d.note (.finished occasion result))
  advanced : ∀ d n frame, P d → d.outbox.pending = some frame →
    d.outbox.sent + n < frame.length → P (d.advanced n)
  released : ∀ d frame, P d → d.outbox.pending = some frame → P (d.released frame)

namespace Kept

variable {P Q : Desk σ → Prop} {d : Desk σ}

theorem react (kept : Kept P) (occasion : Occasion) (r : Reactions σ) (h : P d) :
    P (d.react occasion r).2 := by
  apply kept.finished
  exact (r.toOccasion occasion).run_keeps kept.submit kept.host _ (kept.reacted d occasion h)

/-- An inbound byte gets its meaning, and then the host reacts. -/
theorem hear (kept : Kept P) {b : UInt8} (r : Reactions σ) (h : P (d.classified b)) :
    P (d.hear b r).2 := by
  unfold Desk.hear
  split
  · exact h
  · exact kept.react _ r h

variable [Line τ] {c : Connection τ σ}

theorem drain (kept : Kept P) (h : P c.toDesk) : P c.drain.2.toDesk := by
  have hdraining := Connection.draining (c := c) (kept.unfinished _ h)
  generalize c.drain.1 = result, c.drain.2 = c' at hdraining ⊢
  cases hdraining with
  | idle free => exact h
  | failed pending nothing => exact h
  | partly pending took pos more => exact kept.advanced _ _ _ h pending more
  | last pending took unfinished rest =>
    exact kept.react _ c.reactions (kept.released _ _ h pending)

theorem transmit (kept : Kept P) (waited writable : Bool) (h : P c.toDesk) :
    P (c.transmit waited writable).2.toDesk :=
  ends_self.1 (Connection.transmit_ends (P := fun c' : Connection τ σ => P c'.toDesk)
    (fun _ h => h) (fun _ h => h) (fun _ h => h) (fun _ h => ends_self.2 (kept.drain h))
    waited writable h)

theorem reception (kept : Kept P) (classified : ∀ d b, P d → P (d.classified b)) (found : Readiness)
    (h : P c.toDesk) : P (c.reception found).2.toDesk :=
  Connection.reception_desk found h fun b => kept.hear _ (classified _ b (kept.read _ b h))

/-! ## One operation -/

/-- An operation without an inbound byte. -/
theorem perform_of_silent (kept : Kept P) {op : Operation σ} (silent : c.inbound op = none)
    (h : P c.toDesk) : P (c.perform op).toDesk := by
  cases op with
  | submit mode frame => exact kept.submit _ mode frame h
  | feed b => cases silent
  | drain => exact kept.drain h
  | tick found =>
    show P (c.tick found).2.toDesk
    rcases Connection.tick_of_silent silent with ht | ⟨reason, ht⟩ <;> rw [ht]
    · exact kept.transmit _ _ h
    · exact h
  | setReactions r => exact h
  | setHost s => exact kept.host _ s h

/-- An operation that brings in a byte: what the byte's meaning makes of `P` is kept after it. -/
theorem perform_of_inbound (kept : Kept P) (kept' : Kept Q) {op : Operation σ} {b : UInt8}
    (inbound : c.inbound op = some b) (h : P c.toDesk)
    (classified : ∀ d : Desk σ, P d → d.outbox = c.outbox → Q (d.classified b)) :
    Q (c.perform op).toDesk := by
  cases op with
  | feed b' =>
    obtain rfl : b' = b := Option.some.inj inbound
    show Q (c.feed b').2.toDesk
    rw [Connection.feed_eq]
    exact kept'.hear _ (classified _ h rfl)
  | tick found =>
    have hfed : Q ((c.reading b).feed b).2.toDesk := by
      rw [Connection.feed_eq]
      exact kept'.hear _ (classified _ (kept.read _ b h) rfl)
    show Q (c.tick found).2.toDesk
    rw [Connection.tick_of_incoming inbound]
    rcases hf : (c.reading b).feed b with ⟨fault | _, c'⟩ <;> rw [hf] at hfed
    · exact hfed
    · exact kept'.transmit _ _ hfed
  | submit | drain | setReactions | setHost => cases inbound

/-- What inbound bytes keep as well, every operation keeps. -/
theorem perform (kept : Kept P) (classified : ∀ d b, P d → P (d.classified b))
    (op : Operation σ) (h : P c.toDesk) : P (c.perform op).toDesk := by
  cases hb : c.inbound op with
  | none => exact kept.perform_of_silent hb h
  | some b => exact kept.perform_of_inbound kept hb h fun d hd _ => classified d b hd

end Kept

end Desk

end Powerline
