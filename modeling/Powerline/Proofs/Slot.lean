/-
The slot of the outbox. An outstanding frame always has a byte still to be written and an empty slot
has no count, whatever the line claims to have taken and whatever the reactions queue; so a drain
never takes more away than there is, and never offers the line nothing.
-/
import Powerline.Proofs.Keeping
import Powerline.Proofs.Watch

namespace Powerline

variable {τ σ : Type}

namespace Outbox

/-! ## The invariant -/

/-- An outstanding frame has a byte still to be written; an empty slot has no count. -/
structure Sound (o : Outbox) : Prop where
  unfinished : o.Unfinished
  idle : o.pending = none → o.sent = 0

theorem Sound.empty : Sound {} := ⟨nofun, fun _ => rfl⟩

theorem Sound.echo {o : Outbox} (h : o.Sound) (echo : Echo) : Sound { o with echo } :=
  ⟨h.unfinished, h.idle⟩

theorem Sound.submit {o o' : Outbox} {mode : Mode} {frame : Frame}
    (h : o.submit mode frame = .ok o') : o'.Sound := by
  unfold Outbox.submit at h
  split_ifs at h with hpending hempty
  cases h
  refine ⟨?_, nofun⟩
  rintro f ⟨⟩
  exact List.length_pos_of_ne_nil (by simpa using hempty)

variable [Line τ]

/-- What a drain can give over any line, and the outbox after it. -/
inductive Drained (o : Outbox) : Except Fault Progress → Outbox → Prop where
  | idle (free : o.pending = none) : Drained o (.ok .drained) o
  | failed {frame : Frame} {fault : Fault} (pending : o.pending = some frame) :
      Drained o (.error fault) o
  | partly {frame : Frame} {n : Nat} (pending : o.pending = some frame)
      (more : o.sent + n < frame.length) :
      Drained o (.ok (.partly (o.sent + n) (frame.length - (o.sent + n))))
        { o with sent := o.sent + n }
  | last {frame : Frame} (pending : o.pending = some frame) :
      Drained o (.ok .drained) { o with pending := none, sent := 0 }

theorem drained (o : Outbox) (line : τ) : Drained o (o.drain line).1 (o.drain line).2.1 := by
  cases hp : o.pending with
  | none =>
    simp only [drain, hp]
    exact .idle hp
  | some frame =>
    simp only [drain, hp]
    rcases Line.write (frame.drop o.sent) line with ⟨e | _ | n, line'⟩
    · exact .failed hp
    · exact .failed hp
    · simp only [advance]
      split
      · exact .partly hp ‹_›
      · exact .last hp

theorem Sound.drain {o : Outbox} (h : o.Sound) (line : τ) : (o.drain line).2.1.Sound := by
  have hdrained := o.drained line
  generalize (o.drain line).1 = result, (o.drain line).2.1 = o' at hdrained ⊢
  cases hdrained with
  | idle free => exact h
  | failed pending => exact h
  | @partly frame n pending more =>
    refine ⟨fun f hf => ?_, fun hnone => absurd (pending.symm.trans hnone) nofun⟩
    obtain rfl : f = frame := Option.some.inj (hf.symm.trans pending)
    exact more
  | last pending => exact ⟨nofun, fun _ => rfl⟩

/-! ## What a drain computes -/

omit [Line τ] in
theorem length_unsent (o : Outbox) : o.unsent.length = (o.pending.getD []).length - o.sent := by
  rw [unsent, List.length_drop]

/-- The sums of a drain are of naturals that can be taken from each other, and it offers the line the
unsent bytes of an outstanding frame, of which there is one at least. -/
structure DrainsSafely (o : Outbox) : Prop where
  /-- The count never passes the length of the slot. -/
  counted : o.sent + o.unsent.length = (o.pending.getD []).length
  /-- There are bytes before a drain exactly if a frame is outstanding. -/
  before : 0 < o.unsent.length ↔ o.isPending = true
  /-- What is left was there before. -/
  after : ∀ (τ : Type) [Line τ] (line : τ) progress, (o.drain line).1 = .ok progress →
    progress.remaining ≤ o.unsent.length
  /-- What is written and what is left are the frame. -/
  partly : ∀ (τ : Type) [Line τ] (line : τ) sent remaining,
    (o.drain line).1 = .ok (.partly sent remaining) →
      sent + remaining = (o.pending.getD []).length ∧ 0 < remaining
  /-- The line gets one call while a frame is outstanding, and none else. -/
  calls : ∀ (τ : Type) [Line τ] (line : τ), (o.drain (Line.Watched.mk line [])).2.2.calls =
    if o.isPending then [.write o.unsent] else []

theorem Sound.drainsSafely {o : Outbox} (h : o.Sound) : o.DrainsSafely := by
  have hlength := o.length_unsent
  constructor
  · cases hp : o.pending with
    | none => simp [hlength, hp, h.idle hp]
    | some frame =>
      have := h.unfinished frame hp
      simp only [hlength, hp, Option.getD_some]
      omega
  · cases hp : o.pending with
    | none => simp [hlength, hp, isPending]
    | some frame =>
      have := h.unfinished frame hp
      simp only [hlength, hp, Option.getD_some, isPending, Option.isSome_some, iff_true]
      omega
  · intro τ _ line progress hprogress
    have hdrained := o.drained line
    rw [hprogress] at hdrained
    generalize (o.drain line).2.1 = o' at hdrained
    cases hdrained with
    | idle free => exact Nat.zero_le _
    | partly pending more =>
      simp only [hlength, pending, Option.getD_some, Progress.remaining]
      omega
    | last pending => exact Nat.zero_le _
  · intro τ _ line sent remaining hprogress
    have hdrained := o.drained line
    rw [hprogress] at hdrained
    generalize (o.drain line).2.1 = o' at hdrained
    cases hdrained with
    | partly pending more =>
      rw [pending, Option.getD_some]
      omega
  · intro τ _ line
    exact o.calls_drain _

/-! ## An outbox of its own -/

/-- What can be done with an outbox that is in no connection: queue a frame, drain it over any line,
set the echo that is due. -/
inductive Operation : Type 1 where
  | submit (mode : Mode) (frame : Frame)
  | drain (τ : Type) (inst : Line τ) (line : τ)
  | setEcho (echo : Echo)

/-- The outbox after one operation, successful or not. -/
def perform (o : Outbox) : Operation → Outbox
  | .submit mode frame =>
    match o.submit mode frame with
    | .ok o' => o'
    | .error _ => o
  | .drain _ _ line => (o.drain line).2.1
  | .setEcho echo => { o with echo }

def performAll (o : Outbox) (ops : List Operation) : Outbox := ops.foldl perform o

theorem Sound.perform {o : Outbox} (h : o.Sound) (op : Operation) : (o.perform op).Sound := by
  cases op with
  | submit mode frame =>
    simp only [Outbox.perform]
    split
    · rename_i o' hsubmit
      exact Sound.submit hsubmit
    · exact h
  | drain τ inst line => exact h.drain line
  | setEcho echo => exact h.echo echo

theorem Sound.performAll {o : Outbox} (h : o.Sound) (ops : List Operation) :
    (o.performAll ops).Sound := by
  induction ops generalizing o with
  | nil => exact h
  | cons op rest ih => exact ih (h.perform op)

end Outbox

/-! ## The outbox of a connection -/

/-- Whatever the reactions do, the slot is sound. -/
theorem Desk.kept_sound : Desk.Kept fun d : Desk σ => d.outbox.Sound where
  unfinished _ h := h.unfinished
  submit d mode frame h := by
    rcases d.submit_cases mode frame with ⟨-, hframe, hs⟩ | ⟨fault, hs⟩ <;> rw [hs]
    · exact ⟨d.unfinished_queue mode hframe, nofun⟩
    · exact h
  host _ _ h := h
  read _ _ h := h
  reacted _ _ h := h
  finished _ _ _ h := h
  advanced _ _ _ _ hp hmore :=
    ⟨Desk.unfinished_advanced hp hmore, fun hnone => absurd (hp.symm.trans hnone) nofun⟩
  released _ _ _ _ := ⟨nofun, fun _ => rfl⟩

namespace Connection

variable [Line τ]

theorem perform_sound {c : Connection τ σ} (op : Operation σ) (h : c.outbox.Sound) :
    (c.perform op).outbox.Sound :=
  Desk.kept_sound.perform (fun _ _ hd => hd.echo _) op h

theorem line_drain (c : Connection τ σ) : c.drain.2.line = (c.outbox.drain c.line).2.2 := by
  unfold drain
  rcases c.outbox.drain c.line with ⟨fault | progress, outbox, line⟩
  · rfl
  · show (if _ then _ else _ : Except Fault Progress × Connection τ σ).2.line = line
    split
    · rfl
    · rfl

/-- Every write that was asked of the line offered it a byte at least. -/
def Offered (c : Connection (Line.Watched τ) σ) : Prop :=
  ∀ offered, .write offered ∈ c.line.calls → offered ≠ []

theorem Offered.drain {c : Connection (Line.Watched τ) σ} (h : c.Offered) (sound : c.outbox.Sound) :
    c.drain.2.Offered := by
  intro offered hoffered
  rw [line_drain, Outbox.calls_drain] at hoffered
  split at hoffered
  · rename_i hpending
    rcases List.mem_cons.1 hoffered with hnow | hbefore
    · obtain rfl : offered = c.outbox.unsent := by injection hnow
      exact List.ne_nil_of_length_pos (sound.drainsSafely.before.2 hpending)
    · exact h offered hbefore
  · exact h offered hoffered

/-- A tick offers a byte at least, if it writes. -/
theorem Offered.tick {c : Connection (Line.Watched τ) σ} (h : c.Offered) (sound : c.outbox.Sound)
    (found : Readiness) : (c.tick found).2.Offered := by
  have hother : ∀ {calls : List Line.Call} {call : Line.Call}, (∀ offered, call ≠ .write offered) →
      (∀ offered, .write offered ∈ calls → offered ≠ []) →
      ∀ offered, .write offered ∈ call :: calls → offered ≠ [] := by
    intro calls call hcall hcalls offered hoffered
    rcases List.mem_cons.1 hoffered with hnow | hbefore
    · exact absurd hnow.symm (hcall offered)
    · exact hcalls offered hbefore
  have kept : Kept (fun c' : Connection (Line.Watched τ) σ => c'.outbox.Sound ∧ c'.Offered)
      fun c' => c'.outbox.Sound ∧ c'.Offered := by
    refine ⟨fun _ h => h, fun c' h => ?_, fun c' b h => ?_, fun c' h => ?_, fun c' h => ?_⟩
    · exact ⟨h.1, hother nofun h.2⟩
    · rw [ends_self, feed_eq]
      exact ⟨Desk.kept_sound.hear _ (h.1.echo _), h.2⟩
    · exact ⟨h.1, hother nofun h.2⟩
    · rw [ends_self]
      exact ⟨Desk.kept_sound.drain h.1, h.2.drain h.1⟩
  exact (ends_self.1 (kept.tick found ⟨sound, h⟩)).2

theorem Offered.perform {c : Connection (Line.Watched τ) σ} (h : c.Offered) (sound : c.outbox.Sound)
    (op : Operation σ) : (c.perform op).Offered := by
  cases op with
  | submit mode frame => exact h
  | feed b =>
    show (c.feed b).2.Offered
    rw [feed_eq]
    exact h
  | drain => exact h.drain sound
  | tick found => exact h.tick sound found
  | setReactions r => exact h
  | setHost s => exact h

/-- The slot is safe: after any operations on a fresh connection over any line, whatever the line
claims and the reactions do, and after any operations on an outbox of its own, an outstanding frame is
not empty and has a byte still to be written, and an empty slot has no count. So the sums of a drain
never go below nothing, there are bytes before it exactly if a frame is outstanding, and it offers the
line no empty write; and none was offered on the way, as a watch on the line tells. -/
theorem performAll_slot (line : τ) (host : σ) (reactions : Reactions σ) (ops : List (Operation σ))
    (alone : List Outbox.Operation) :
    let c := (Connection.fresh line host reactions).performAll ops
    let watched := (Connection.fresh (Line.Watched.mk line []) host reactions).performAll ops
    let o := Outbox.performAll {} alone
    (∀ slot ∈ [c.outbox, o],
      (∀ frame, slot.pending = some frame → frame ≠ [] ∧ slot.sent < frame.length) ∧
        (slot.pending = none → slot.sent = 0) ∧ slot.DrainsSafely) ∧
      watched.viewed Line.Watched.line = c ∧
      (∀ offered, .write offered ∈ watched.line.calls → offered ≠ []) := by
  intro c watched o
  have hc : c.outbox.Sound :=
    performAll_keeps (P := fun c : Connection τ σ => c.outbox.Sound)
      (fun _ op h => perform_sound op h) ops _ Outbox.Sound.empty
  have hwatched : watched.outbox.Sound ∧ watched.Offered :=
    performAll_keeps (P := fun c : Connection (Line.Watched τ) σ => c.outbox.Sound ∧ c.Offered)
      (fun _ op h => ⟨perform_sound op h.1, h.2.perform h.1 op⟩) ops _
      ⟨Outbox.Sound.empty, fun _ h => by cases h⟩
  refine ⟨?_, (performAll_viewed Line.Watched.view _ ops).symm, hwatched.2⟩
  intro slot hslot
  have hsound : slot.Sound := by
    simp only [List.mem_cons, List.not_mem_nil, or_false] at hslot
    rcases hslot with rfl | rfl
    · exact hc
    · exact Outbox.Sound.empty.performAll alone
  refine ⟨fun frame hp => ?_, hsound.idle, hsound.drainsSafely⟩
  have hlt := hsound.unfinished frame hp
  exact ⟨List.ne_nil_of_length_pos (Nat.zero_lt_of_lt hlt), hlt⟩

end Connection

end Powerline
