/-
Lines that do the same. Where one line does what another does, so do their connections. A line under
watch is one that does what the line within it does and keeps the calls made on it, so that what a
connection asks of its line can be told.
-/
import Powerline.Proofs.Connection

namespace Powerline

variable {τ υ σ : Type} [Line τ] [Line υ]

/-! ## Lines that do the same -/

/-- A view of a line as another that answers every call alike and stays its view. -/
structure Line.View (view : τ → υ) : Prop where
  handle : ∀ line, Line.handle (view line) = Line.handle line
  readByte : ∀ line, Line.readByte (view line) = Prod.map id view (Line.readByte line)
  write : ∀ offered line,
    Line.write offered (view line) = Prod.map id view (Line.write offered line)
  probe : ∀ line, Line.probe (view line) = Prod.map id view (Line.probe line)

theorem Outbox.drain_view {view : τ → υ} (same : Line.View view) (o : Outbox) (line : τ) :
    o.drain (view line) = Prod.map id (Prod.map id view) (o.drain line) := by
  unfold Outbox.drain
  cases hp : o.pending with
  | none => rfl
  | some frame =>
    simp only [same.write]
    rcases Line.write (frame.drop o.sent) line with ⟨e | _ | n, line⟩ <;> rfl

namespace Connection

omit [Line τ] [Line υ] in
/-- The connection over a view of its line. -/
def viewed (view : τ → υ) (c : Connection τ σ) : Connection υ σ where
  toDesk := c.toDesk
  line := view c.line
  reactions := c.reactions
  received := c.received
  transmitted := c.transmitted

variable {view : τ → υ} (same : Line.View view) (c : Connection τ σ)

omit [Line τ] [Line υ] in
theorem feed_viewed (b : UInt8) :
    (c.viewed view).feed b = Prod.map id (viewed view) (c.feed b) := by
  rw [feed_eq, feed_eq]
  rfl

include same

theorem receive_viewed : (c.viewed view).receive = Prod.map id (viewed view) c.receive := by
  unfold receive
  simp only [viewed, same.readByte]
  rcases Line.readByte c.line with ⟨e | _ | b, line⟩
  · rfl
  · rfl
  · exact feed_viewed
      { c with line, toDesk := c.toDesk.note (.read b), received := c.received + 1 } b

theorem drain_viewed : (c.viewed view).drain = Prod.map id (viewed view) c.drain := by
  unfold drain
  simp only [viewed, Outbox.drain_view same]
  rcases c.outbox.drain c.line with ⟨fault | progress, outbox, line⟩
  · rfl
  · show (if progress = .drained ∧ 0 < c.outbox.unsent.length then _ else _) =
      Prod.map id (viewed view) (if progress = .drained ∧ 0 < c.outbox.unsent.length then _ else _)
    split
    · rfl
    · rfl

theorem drainIf_viewed (writable : Bool) :
    (c.viewed view).drainIf writable = Prod.map id (viewed view) (c.drainIf writable) := by
  cases writable with
  | true => simp only [drainIf, if_true, drain_viewed same]; rfl
  | false => rfl

theorem transmit_viewed (waited writable : Bool) :
    (c.viewed view).transmit waited writable =
      Prod.map id (viewed view) (c.transmit waited writable) := by
  cases hp : c.outbox.isPending with
  | false =>
    have hp' : (c.viewed view).outbox.isPending = false := hp
    simp only [transmit, hp, hp', Bool.not_false, if_true]
    rfl
  | true =>
    have hp' : (c.viewed view).outbox.isPending = true := hp
    simp only [transmit, hp, hp', Bool.not_true, Bool.false_eq_true, if_false]
    cases waited with
    | true => exact drainIf_viewed same c writable
    | false =>
      simp only [viewed, same.probe, Bool.false_eq_true, if_false]
      rcases Line.probe c.line with ⟨e | free, line⟩
      · rfl
      · exact drainIf_viewed same { c with line } free

theorem reception_viewed (found : Readiness) :
    (c.viewed view).reception found = Prod.map id (viewed view) (c.reception found) := by
  have hhandle : Line.handle (c.viewed view).line = Line.handle c.line := same.handle c.line
  unfold reception
  rw [hhandle]
  split
  · exact receive_viewed same c
  · rfl

theorem tick_viewed (found : Readiness) :
    (c.viewed view).tick found = Prod.map id (viewed view) (c.tick found) := by
  have hhandle : Line.handle (c.viewed view).line = Line.handle c.line := same.handle c.line
  rw [tick_eq, tick_eq, reception_viewed same, hhandle]
  rcases c.reception found with ⟨fault | _, after⟩
  · rfl
  · exact transmit_viewed same after _ _

theorem perform_viewed (op : Operation σ) :
    (c.viewed view).perform op = (c.perform op).viewed view := by
  cases op with
  | submit mode frame => rfl
  | feed b => exact congrArg Prod.snd (c.feed_viewed b)
  | drain => exact congrArg Prod.snd (drain_viewed same c)
  | tick found => exact congrArg Prod.snd (tick_viewed same c found)
  | setReactions r => rfl
  | setHost s => rfl

/-- A run over a view of a line is the run over the line, viewed. -/
theorem performAll_viewed (ops : List (Operation σ)) :
    (c.viewed view).performAll ops = (c.performAll ops).viewed view := by
  induction ops generalizing c with
  | nil => rfl
  | cons op rest ih =>
    show ((c.viewed view).perform op).performAll rest = _
    rw [perform_viewed same, ih]
    rfl

end Connection

/-! ## A line under watch -/

namespace Line

/-- A call on a line. -/
inductive Call where
  | readByte
  | write (offered : List UInt8)
  | probe
  deriving DecidableEq, Repr

/-- A line under watch, with the calls made on it, newest first. -/
structure Watched (τ : Type) where
  line : τ
  calls : List Call := []

instance : Line (Watched τ) where
  handle w := Line.handle w.line
  readByte w :=
    let (result, line) := Line.readByte w.line
    (result, ⟨line, .readByte :: w.calls⟩)
  write offered w :=
    let (result, line) := Line.write offered w.line
    (result, ⟨line, .write offered :: w.calls⟩)
  probe w :=
    let (result, line) := Line.probe w.line
    (result, ⟨line, .probe :: w.calls⟩)

/-- Watching changes nothing that the line does. -/
theorem Watched.view : View (Watched.line : Watched τ → τ) where
  handle _ := rfl
  readByte _ := rfl
  write _ _ := rfl
  probe _ := rfl

end Line

/-- A drain writes the unsent bytes of what is outstanding, and does nothing else to the line. -/
theorem Outbox.line_drain (o : Outbox) (line : τ) :
    (o.drain line).2.2 = if o.isPending then (Line.write o.unsent line).2 else line := by
  cases hp : o.pending with
  | none => simp [Outbox.drain, Outbox.isPending, hp]
  | some frame =>
    rw [Outbox.isPending_of_some hp, if_pos rfl, Outbox.unsent_of_some hp]
    rcases hw : Line.write (frame.drop o.sent) line with ⟨e | _ | n, line'⟩ <;>
      simp [Outbox.drain, hp, hw]

/-- An outbox makes one call on its line at most: it offers the unsent bytes of what is outstanding. -/
theorem Outbox.calls_drain (o : Outbox) (w : Line.Watched τ) :
    (o.drain w).2.2.calls = if o.isPending then .write o.unsent :: w.calls else w.calls := by
  rw [Outbox.line_drain]
  split <;> rfl

end Powerline
