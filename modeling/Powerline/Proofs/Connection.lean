/-
The ways a connection can move. A drain fails, gets on, or releases the frame; a tick is a read, a
fed byte, a probe and a drain, of which the first failure is the last; and a run is any sequence of
the operations a host has. What each of these keeps, every tick and every run keeps.
-/
import Powerline.Proofs.Desk

namespace Powerline

variable {τ σ α β : Type}

/-- `P` after a success, `Q` after a failure. -/
def Ends (P Q : β → Prop) (r : Except Fault α × β) : Prop :=
  match r.1 with
  | .ok _ => P r.2
  | .error _ => Q r.2

theorem Ends.ok {P Q : β → Prop} {r : Except Fault α × β} {a : α} (h : Ends P Q r)
    (hr : r.1 = .ok a) : P r.2 := by
  simpa only [Ends, hr] using h

theorem Ends.error {P Q : β → Prop} {r : Except Fault α × β} {fault : Fault} (h : Ends P Q r)
    (hr : r.1 = .error fault) : Q r.2 := by
  simpa only [Ends, hr] using h

theorem ends_self {P : β → Prop} {r : Except Fault α × β} : Ends P P r ↔ P r.2 := by
  unfold Ends; cases r.1 <;> rfl

theorem ends_map {γ : Type} {P Q : β → Prop} {r : Except Fault α} {b : β} (f : α → γ) :
    Ends P Q (r.map f, b) ↔ Ends P Q (r, b) := by
  cases r <;> rfl

/-- A result that is a failure once its value is mapped was that failure. -/
theorem error_of_map {γ : Type} {r : Except Fault α} {f : α → γ} {fault : Fault}
    (h : r.map f = .error fault) : r = .error fault := by
  cases r <;> cases h
  rfl

/-! ## Drains -/

/-- An outstanding frame still has a byte to be written. -/
def Outbox.Unfinished (o : Outbox) : Prop := ∀ frame, o.pending = some frame → o.sent < frame.length

namespace Desk

/-- The desk after `n` more bytes of the outstanding frame are written, not its last. -/
def advanced (n : Nat) (d : Desk σ) : Desk σ :=
  { d with outbox := { d.outbox with sent := d.outbox.sent + n } }

/-- The desk after the last byte of the outstanding frame is written. -/
def released (frame : Frame) (d : Desk σ) : Desk σ :=
  { d with outbox := { d.outbox with pending := none, sent := 0 } }.note (.released frame)

theorem unfinished_queue (mode : Mode) {frame : Frame} (d : Desk σ) (hframe : frame ≠ []) :
    (d.queue mode frame).outbox.Unfinished := by
  rintro f ⟨⟩
  exact List.length_pos_of_ne_nil hframe

theorem unfinished_advanced {d : Desk σ} {frame : Frame} {n : Nat}
    (pending : d.outbox.pending = some frame) (more : d.outbox.sent + n < frame.length) :
    (d.advanced n).outbox.Unfinished := by
  intro f hf
  obtain rfl : frame = f := Option.some.inj (pending.symm.trans hf)
  exact more

end Desk

namespace Connection

variable [Line τ]

theorem drain_idle {c : Connection τ σ} (free : c.outbox.pending = none) :
    c.drain = (.ok .drained, c) := by
  simp [drain, Outbox.drain, Outbox.unsent, Progress.remaining, free]

/-- A line that fails or takes nothing changes only itself. -/
theorem drain_failed {c : Connection τ σ} {frame : Frame} (hp : c.outbox.pending = some frame)
    (hw : ∀ n, (Line.write (frame.drop c.outbox.sent) c.line).1 = .ok n → n = 0) :
    ∃ reason, c.drain = (.error (.writeFailed reason),
      { c with line := (Line.write (frame.drop c.outbox.sent) c.line).2 }) := by
  unfold drain Outbox.drain
  simp only [hp]
  rcases hr : Line.write (frame.drop c.outbox.sent) c.line with ⟨e | n, line⟩
  · exact ⟨_, rfl⟩
  · have h0 : n = 0 := hw n (by rw [hr])
    subst h0
    exact ⟨_, rfl⟩

/-- A write that leaves some of the frame. -/
theorem drain_partly {c : Connection τ σ} {frame : Frame} {n : Nat}
    (hp : c.outbox.pending = some frame)
    (hw : (Line.write (frame.drop c.outbox.sent) c.line).1 = .ok n) (hn : 0 < n)
    (hs : c.outbox.sent + n < frame.length) :
    c.drain = (.ok (.partly (c.outbox.sent + n) (frame.length - (c.outbox.sent + n))),
      { c with
        toDesk := c.toDesk.advanced n
        line := (Line.write (frame.drop c.outbox.sent) c.line).2
        transmitted := c.transmitted + UInt64.ofNat n }) := by
  rcases hr : Line.write (frame.drop c.outbox.sent) c.line with ⟨e | m, line⟩ <;> rw [hr] at hw <;>
    cases hw
  -- the drain tells a write of nothing from the others by their pattern
  obtain ⟨k, rfl⟩ : ∃ k, n = k + 1 := ⟨n - 1, by omega⟩
  have hmin : min (k + 1) (frame.length - c.outbox.sent) = k + 1 := by omega
  have hcount : frame.length - c.outbox.sent - (frame.length - (c.outbox.sent + (k + 1))) = k + 1 := by
    omega
  simp [drain, Outbox.drain, hp, hr, Outbox.advance, hmin, hs, Outbox.unsent, Progress.remaining,
    hcount, Desk.advanced]

/-- The write that takes the last byte. -/
theorem drain_last {c : Connection τ σ} {frame : Frame} {n : Nat}
    (hp : c.outbox.pending = some frame)
    (hw : (Line.write (frame.drop c.outbox.sent) c.line).1 = .ok n)
    (hs : c.outbox.sent < frame.length) (hn : frame.length ≤ c.outbox.sent + n) :
    c.drain = (((c.toDesk.released frame).react .drained c.reactions).1.map fun _ => .drained,
      { c with
        toDesk := ((c.toDesk.released frame).react .drained c.reactions).2
        line := (Line.write (frame.drop c.outbox.sent) c.line).2
        transmitted := c.transmitted + UInt64.ofNat (frame.length - c.outbox.sent) }) := by
  rcases hr : Line.write (frame.drop c.outbox.sent) c.line with ⟨e | m, line⟩ <;> rw [hr] at hw <;>
    cases hw
  obtain ⟨k, rfl⟩ : ∃ k, n = k + 1 := ⟨n - 1, by omega⟩
  have hsum : c.outbox.sent + min (k + 1) (frame.length - c.outbox.sent) = frame.length := by omega
  simp [drain, Outbox.drain, hp, hr, Outbox.advance, hsum, Outbox.unsent, Progress.remaining,
    Desk.released, react, hs]

/-- What a drain does while an outstanding frame still has a byte to be written: the result, and the
connection after it. -/
inductive Draining (c : Connection τ σ) : Except Fault Progress → Connection τ σ → Prop where
  | idle (free : c.outbox.pending = none) : Draining c (.ok .drained) c
  | failed {frame : Frame} {reason : String} (pending : c.outbox.pending = some frame)
      (nothing : ∀ n, (Line.write (frame.drop c.outbox.sent) c.line).1 = .ok n → n = 0) :
      Draining c (.error (.writeFailed reason))
        { c with line := (Line.write (frame.drop c.outbox.sent) c.line).2 }
  | partly {frame : Frame} {n : Nat} (pending : c.outbox.pending = some frame)
      (took : (Line.write (frame.drop c.outbox.sent) c.line).1 = .ok n) (pos : 0 < n)
      (more : c.outbox.sent + n < frame.length) :
      Draining c (.ok (.partly (c.outbox.sent + n) (frame.length - (c.outbox.sent + n))))
        { c with
          toDesk := c.toDesk.advanced n
          line := (Line.write (frame.drop c.outbox.sent) c.line).2
          transmitted := c.transmitted + UInt64.ofNat n }
  -- the line may claim more than it was offered
  | last {frame : Frame} {n : Nat} (pending : c.outbox.pending = some frame)
      (took : (Line.write (frame.drop c.outbox.sent) c.line).1 = .ok n)
      (unfinished : c.outbox.sent < frame.length) (rest : frame.length ≤ c.outbox.sent + n) :
      Draining c (((c.toDesk.released frame).react .drained c.reactions).1.map fun _ => .drained)
        { c with
          toDesk := ((c.toDesk.released frame).react .drained c.reactions).2
          line := (Line.write (frame.drop c.outbox.sent) c.line).2
          transmitted := c.transmitted + UInt64.ofNat (frame.length - c.outbox.sent) }

theorem draining {c : Connection τ σ} (h : c.outbox.Unfinished) : Draining c c.drain.1 c.drain.2 := by
  cases hp : c.outbox.pending with
  | none =>
    rw [drain_idle hp]
    exact .idle hp
  | some frame =>
    by_cases hzero : ∀ n, (Line.write (frame.drop c.outbox.sent) c.line).1 = .ok n → n = 0
    · obtain ⟨reason, hdrain⟩ := drain_failed hp hzero
      rw [hdrain]
      exact .failed hp hzero
    push Not at hzero
    obtain ⟨n, hw, hn⟩ := hzero
    have hpos : 0 < n := Nat.pos_of_ne_zero hn
    by_cases hmore : c.outbox.sent + n < frame.length
    · rw [drain_partly hp hw hpos hmore]
      exact .partly hp hw hpos hmore
    · have hrest : frame.length ≤ c.outbox.sent + n := by omega
      rw [drain_last hp hw (h frame hp) hrest]
      exact .last hp hw (h frame hp) hrest

/-! ## Transmissions -/

section
variable {P Q R : Connection τ σ → Prop} (fails : ∀ c, P c → Q c) (rests : ∀ c, P c → R c)
  (probe : ∀ c, P c → P { c with line := (Line.probe c.line).2 })
  (drain : ∀ c, P c → Ends R Q c.drain)

include rests drain in
theorem drainIf_ends (writable : Bool) {c : Connection τ σ} (h : P c) :
    Ends R Q (c.drainIf writable) := by
  unfold drainIf
  split
  · exact (ends_map _).2 (drain c h)
  · exact rests c h

include fails rests probe drain in
/-- A transmission is a probe at most, and a drain at most. -/
theorem transmit_ends (waited writable : Bool) {c : Connection τ σ} (h : P c) :
    Ends R Q (c.transmit waited writable) := by
  have hprobe := probe c h
  unfold transmit
  split
  · exact rests c h
  · split
    · exact drainIf_ends rests drain writable h
    · rcases hr : Line.probe c.line with ⟨e | free, line⟩ <;> simp only [hr] at hprobe ⊢
      · exact fails _ hprobe
      · exact drainIf_ends rests drain free hprobe

end

/-! ## Ticks -/

/-- The first half of a tick: a byte is read and fed, if the line was found readable. -/
def reception (found : Readiness) (c : Connection τ σ) : Except Fault Unit × Connection τ σ :=
  if found.isReadable (Line.handle c.line) then c.receive else (.ok (), c)

/-- A tick is a reception and, unless that failed, a transmission. -/
theorem tick_eq (found : Readiness) (c : Connection τ σ) :
    c.tick found =
      match c.reception found with
      | (.error fault, c') => (.error fault, c')
      | (.ok (), c') => c'.transmit c.outbox.isPending (found.isWritable (Line.handle c.line)) :=
  rfl

/-- What keeps `P` as long as nothing fails, and leaves `Q` after the first failure: reading a byte
and feeding it, probing, and draining. -/
structure Kept (P Q : Connection τ σ → Prop) : Prop where
  fails : ∀ c, P c → Q c
  readByte : ∀ c, P c → P { c with line := (Line.readByte c.line).2 }
  feed : ∀ c b, P c → Ends P Q
    ({ c with toDesk := c.toDesk.note (.read b), received := c.received + 1 }.feed b)
  probe : ∀ c, P c → P { c with line := (Line.probe c.line).2 }
  drain : ∀ c, P c → Ends P Q c.drain

namespace Kept

variable {P Q : Connection τ σ → Prop}

theorem receive (kept : Kept P Q) {c : Connection τ σ} (h : P c) : Ends P Q c.receive := by
  have hread := kept.readByte c h
  unfold Connection.receive
  rcases hr : Line.readByte c.line with ⟨e | _ | b, line⟩ <;> simp only [hr] at hread
  · exact kept.fails _ hread
  · exact kept.fails _ hread
  · exact kept.feed _ b hread

theorem reception (kept : Kept P Q) (found : Readiness) {c : Connection τ σ} (h : P c) :
    Ends P Q (c.reception found) := by
  unfold Connection.reception
  split
  · exact kept.receive h
  · exact h

/-- A tick keeps what its parts keep. -/
theorem tick (kept : Kept P Q) (found : Readiness) {c : Connection τ σ} (h : P c) :
    Ends P Q (c.tick found) := by
  have hread := kept.reception found h
  rw [tick_eq]
  rcases hr : c.reception found with ⟨fault | _, after⟩ <;> rw [hr] at hread
  · exact hread
  · exact transmit_ends kept.fails (fun _ h => h) kept.probe kept.drain _ _ hread

end Kept

/-- Nothing that a tick does changes the reactions. -/
theorem kept_reactions (r : Reactions σ) :
    Kept (fun c : Connection τ σ => c.reactions = r) fun c => c.reactions = r where
  fails _ h := h
  readByte _ h := h
  feed c b h := by
    rw [feed_eq, ends_self]
    exact h
  probe _ h := h
  drain c h := by
    rw [ends_self, drain]
    split
    · exact h
    · split
      · exact h
      · exact h

theorem reactions_reception (found : Readiness) (c : Connection τ σ) :
    (c.reception found).2.reactions = c.reactions :=
  ends_self.1 ((kept_reactions c.reactions).reception found rfl)

/-- A tick changes no reactions. -/
theorem reactions_tick (found : Readiness) (c : Connection τ σ) :
    (c.tick found).2.reactions = c.reactions :=
  ends_self.1 ((kept_reactions c.reactions).tick found rfl)

/-! ## The byte of a tick -/

/-- The byte that a tick on a finding feeds, if it feeds one. -/
def incoming (found : Readiness) (c : Connection τ σ) : Option UInt8 :=
  if found.isReadable (Line.handle c.line) then
    match (Line.readByte c.line).1 with
    | .ok b => b
    | .error _ => none
  else none

/-- The connection once a tick has read a byte. -/
def reading (b : UInt8) (c : Connection τ σ) : Connection τ σ :=
  { c with
    line := (Line.readByte c.line).2
    toDesk := c.toDesk.note (.read b)
    received := c.received + 1 }

theorem reception_of_incoming {c : Connection τ σ} {found : Readiness} {b : UInt8}
    (h : c.incoming found = some b) : c.reception found = (c.reading b).feed b := by
  unfold incoming at h
  split at h
  · rename_i hreadable
    rcases hr : Line.readByte c.line with ⟨e | _ | b', line⟩ <;> rw [hr] at h <;> cases h
    simp only [reception, hreadable, if_true, receive, hr, reading]
  · cases h

/-- A line found readable that has no byte, or fails, changes only itself. -/
theorem reception_of_unread {c : Connection τ σ} {found : Readiness}
    (readable : found.isReadable (Line.handle c.line) = true)
    (nothing : ∀ b, (Line.readByte c.line).1 ≠ .ok (some b)) :
    ∃ reason, c.reception found =
      (.error (.readFailed reason), { c with line := (Line.readByte c.line).2 }) := by
  unfold reception
  rw [if_pos readable, receive]
  rcases hr : Line.readByte c.line with ⟨e | _ | b, line⟩
  · exact ⟨_, rfl⟩
  · exact ⟨_, rfl⟩
  · exact absurd (by rw [hr]) (nothing b)

/-- Without a byte to feed, the line was not found readable or had none. -/
theorem reception_of_silent {c : Connection τ σ} {found : Readiness} (h : c.incoming found = none) :
    c.reception found = (.ok (), c) ∨ found.isReadable (Line.handle c.line) = true ∧
      ∀ b, (Line.readByte c.line).1 ≠ .ok (some b) := by
  unfold incoming at h
  split at h
  · rename_i hreadable
    refine .inr ⟨hreadable, fun b hb => ?_⟩
    rw [hb] at h
    cases h
  · rename_i hreadable
    exact .inl (if_neg hreadable)

/-- A property of the desk that is kept when a byte is read and heard is kept by the first half of a
tick. -/
theorem reception_desk {P : Desk σ → Prop} {c : Connection τ σ} (found : Readiness) (h : P c.toDesk)
    (hear : ∀ b, P ((c.toDesk.note (.read b)).hear b c.reactions).2) :
    P (c.reception found).2.toDesk := by
  unfold reception receive
  split
  · rcases Line.readByte c.line with ⟨e | _ | b, line⟩
    · exact h
    · exact h
    · simp only [feed_eq]
      exact hear b
  · exact h

/-- A tick feeds its byte, and transmits unless that failed. -/
theorem tick_of_incoming {c : Connection τ σ} {found : Readiness} {b : UInt8}
    (h : c.incoming found = some b) :
    c.tick found =
      match (c.reading b).feed b with
      | (.error fault, c') => (.error fault, c')
      | (.ok (), c') =>
        c'.transmit c.outbox.isPending (found.isWritable (Line.handle c.line)) := by
  rw [tick_eq, reception_of_incoming h]

/-- A tick without a byte only transmits, unless it could not read. -/
theorem tick_of_silent {c : Connection τ σ} {found : Readiness} (h : c.incoming found = none) :
    c.tick found = c.transmit c.outbox.isPending (found.isWritable (Line.handle c.line)) ∨
      ∃ reason, c.tick found =
        (.error (.readFailed reason), { c with line := (Line.readByte c.line).2 }) := by
  rw [tick_eq]
  rcases reception_of_silent h with hr | ⟨hreadable, hnothing⟩
  · rw [hr]
    exact .inl rfl
  · obtain ⟨reason, hr⟩ := reception_of_unread hreadable hnothing
    rw [hr]
    exact .inr ⟨reason, rfl⟩

/-! ## Failures -/

end Connection

/-- A desk as a reaction has left it that failed: it was begun at some desk and entered there, did what
it did until it gave up, and its fault is the last entry. -/
def Desk.Aborted (r : Reactions σ) (occasion : Occasion) (fault : Fault) (d : Desk σ) : Prop :=
  ∃ before left, (r.toOccasion occasion).run (Desk.note (.reacted occasion) before) =
    (.error fault, left) ∧ d = left.note (.finished occasion (.error fault))

theorem Desk.aborted_react {occasion : Occasion} {r : Reactions σ} {d : Desk σ} {fault : Fault}
    (h : (d.react occasion r).1 = .error fault) :
    (d.react occasion r).2.Aborted r occasion fault := by
  have hrun : ((r.toOccasion occasion).run (d.note (.reacted occasion))).1 = .error fault := h
  refine ⟨d, ((r.toOccasion occasion).run (d.note (.reacted occasion))).2, Prod.ext hrun rfl, ?_⟩
  rw [← hrun]
  rfl

/-- A byte fails exactly by having no meaning, or by the reaction to it. -/
theorem Desk.hear_error_iff {d : Desk σ} {b : UInt8} {r : Reactions σ} {fault : Fault} :
    (d.hear b r).1 = .error fault ↔ (d.outbox.echo.classify b).1 = .error fault ∨
      ∃ signal, (d.outbox.echo.classify b).1 = .ok signal ∧
        ((r.toOccasion signal.occasion).run (d.attending b signal.occasion)).1 = .error fault := by
  unfold Desk.hear
  rcases (d.outbox.echo.classify b).1 with e | signal
  · simp
  · simp only [reduceCtorEq, false_or, Except.ok.injEq, exists_eq_left']
    rfl

/-- What is left of a byte that fails but has a meaning is the desk as the reaction to it leaves it. -/
theorem Desk.hear_error {d : Desk σ} {b : UInt8} {r : Reactions σ} {fault : Fault}
    (h : (d.hear b r).1 = .error fault) :
    fault = .unknownOpcode b ∨ ∃ occasion, (d.hear b r).2.Aborted r occasion fault := by
  unfold Desk.hear at h ⊢
  split at h
  · rename_i e hmeaning
    cases h
    exact .inl (Echo.of_classify_error hmeaning).1
  · exact .inr ⟨_, aborted_react h⟩

namespace Connection

variable [Line τ]

/-- How the first half of a tick fails: the line fails to give a byte or has none, the byte has no
meaning, or the reaction to it gives up. -/
inductive Unheard (found : Readiness) (c : Connection τ σ) : Fault → Prop where
  | broken {e : IoFault} (readable : found.isReadable (Line.handle c.line) = true)
      (failed : (Line.readByte c.line).1 = .error e) : Unheard found c (.readFailed e.message)
  | nothing (readable : found.isReadable (Line.handle c.line) = true)
      (none : (Line.readByte c.line).1 = .ok none) :
      Unheard found c (.readFailed "readable handle returned no data")
  | unknown {b : UInt8} (byte : c.incoming found = some b)
      (meaningless : (c.outbox.echo.classify b).1 = .error (.unknownOpcode b)) :
      Unheard found c (.unknownOpcode b)
  | aborted {b : UInt8} {signal : Signal} {fault : Fault} (byte : c.incoming found = some b)
      (meaning : (c.outbox.echo.classify b).1 = .ok signal)
      (failed : ((c.reactions.toOccasion signal.occasion).run
        ((c.reading b).toDesk.attending b signal.occasion)).1 = .error fault) :
      Unheard found c fault

/-- The first half of a tick fails in these ways, and in no other. -/
theorem reception_error_iff {c : Connection τ σ} {found : Readiness} {fault : Fault} :
    (c.reception found).1 = .error fault ↔ Unheard found c fault := by
  constructor
  · intro h
    cases hb : c.incoming found with
    | none =>
      rcases reception_of_silent hb with hr | ⟨readable, hnothing⟩
      · rw [hr] at h
        cases h
      · rw [reception, if_pos readable, receive] at h
        rcases hr : Line.readByte c.line with ⟨e | _ | b, line⟩ <;> rw [hr] at h
        · cases h
          exact .broken readable (by rw [hr])
        · cases h
          exact .nothing readable (by rw [hr])
        · exact absurd (by rw [hr]) (hnothing b)
    | some b =>
      rw [reception_of_incoming hb, feed_eq] at h
      rcases Desk.hear_error_iff.1 h with meaningless | ⟨signal, meaning, failed⟩
      · obtain ⟨rfl, -⟩ := Echo.of_classify_error meaningless
        exact .unknown hb meaningless
      · exact .aborted hb meaning failed
  · intro h
    cases h with
    | broken readable failed =>
      rw [reception, if_pos readable, receive]
      rcases hr : Line.readByte c.line with ⟨e | _ | b, line⟩ <;> rw [hr] at failed <;> cases failed
      rfl
    | nothing readable none =>
      rw [reception, if_pos readable, receive]
      rcases hr : Line.readByte c.line with ⟨e | _ | b, line⟩ <;> rw [hr] at none <;> cases none
    | unknown hb meaningless =>
      rw [reception_of_incoming hb, feed_eq]
      exact Desk.hear_error_iff.2 (.inl meaningless)
    | aborted hb meaning failed =>
      rw [reception_of_incoming hb, feed_eq]
      exact Desk.hear_error_iff.2 (.inr ⟨_, meaning, failed⟩)

/-- The first half of a tick fails by the line, or by its byte. -/
theorem reception_error {c : Connection τ σ} {found : Readiness} {fault : Fault}
    (h : (c.reception found).1 = .error fault) :
    (∃ reason, fault = .readFailed reason) ∨ ∃ b, c.incoming found = some b ∧
      ((c.toDesk.note (.read b)).hear b c.reactions).1 = .error fault ∧
      (c.reception found).2.toDesk = ((c.toDesk.note (.read b)).hear b c.reactions).2 := by
  cases hb : c.incoming found with
  | none =>
    rcases reception_of_silent hb with hr | ⟨readable, hnothing⟩
    · rw [hr] at h
      cases h
    · obtain ⟨reason, hr⟩ := reception_of_unread readable hnothing
      rw [hr] at h
      cases h
      exact .inl ⟨reason, rfl⟩
  | some b =>
    rw [reception_of_incoming hb, feed_eq] at h ⊢
    exact .inr ⟨b, rfl, h, rfl⟩

/-- A drain fails by the line, or by the reaction to the release. -/
theorem drain_error {c : Connection τ σ} {fault : Fault} (h : c.drain.1 = .error fault) :
    (∃ reason, fault = .writeFailed reason) ∨
      c.drain.2.toDesk.Aborted c.reactions .drained fault := by
  unfold drain Outbox.drain at h ⊢
  rcases hp : c.outbox.pending with _ | frame
  · rw [hp] at h
    simp [Outbox.unsent, hp] at h
  · rw [hp] at h
    rcases hw : Line.write (frame.drop c.outbox.sent) c.line with ⟨e | _ | n, line⟩ <;>
      simp only [hw] at h ⊢
    · cases h; exact .inl ⟨_, rfl⟩
    · cases h; exact .inl ⟨_, rfl⟩
    · split at h
      · rename_i hreleased
        simp only [if_pos hreleased]
        exact .inr (Desk.aborted_react (error_of_map h))
      · cases h

theorem drainIf_error {c : Connection τ σ} {fault : Fault} {writable : Bool}
    (h : (c.drainIf writable).1 = .error fault) :
    (∃ reason, fault = .writeFailed reason) ∨
      (c.drainIf writable).2.toDesk.Aborted c.reactions .drained fault := by
  unfold drainIf at h ⊢
  split at h
  · rename_i hwritable
    rw [if_pos hwritable]
    exact drain_error (error_of_map h)
  · cases h

theorem transmit_error {c : Connection τ σ} {fault : Fault} {waited writable : Bool}
    (h : (c.transmit waited writable).1 = .error fault) :
    (∃ reason, fault = .writeFailed reason) ∨
      (c.transmit waited writable).2.toDesk.Aborted c.reactions .drained fault := by
  unfold transmit at h ⊢
  split_ifs at h ⊢
  · exact drainIf_error h
  · rcases hp : Line.probe c.line with ⟨e | free, line⟩ <;> simp only [hp] at h ⊢
    · cases h
      exact .inl ⟨_, rfl⟩
    · exact drainIf_error (c := { c with line }) h

/-- A tick fails with the byte, or after it by the line or the reaction to a release. -/
theorem tick_error {c : Connection τ σ} {found : Readiness} {fault : Fault}
    (h : (c.tick found).1 = .error fault) :
    c.reception found = (.error fault, (c.tick found).2) ∨ (∃ reason, fault = .writeFailed reason) ∨
      (c.tick found).2.toDesk.Aborted c.reactions .drained fault := by
  have hreactions := c.reactions_reception found
  rw [tick_eq] at h ⊢
  rcases hr : c.reception found with ⟨e | _, after⟩ <;> rw [hr] at hreactions <;> simp only [hr] at h ⊢
  · cases h
    exact .inl rfl
  · rw [← hreactions]
    exact .inr (transmit_error h)

/-- A fault that is neither the line's own nor that of a byte without a meaning is the fault of a
reaction, and the tick ends with it. -/
theorem aborted_tick {c : Connection τ σ} {found : Readiness} {fault : Fault}
    (hread : ∀ reason, fault ≠ .readFailed reason) (hwrite : ∀ reason, fault ≠ .writeFailed reason)
    (hbyte : ∀ b, fault ≠ .unknownOpcode b) (h : (c.tick found).1 = .error fault) :
    ∃ occasion, (c.tick found).2.toDesk.Aborted c.reactions occasion fault := by
  rcases tick_error h with hr | ⟨reason, hf⟩ | haborted
  · rcases reception_error (congrArg Prod.fst hr) with ⟨reason, hf⟩ | ⟨b, -, hheard, hdesk⟩
    · exact absurd hf (hread reason)
    · rw [hr] at hdesk
      rw [show (c.tick found).2.toDesk = _ from hdesk]
      exact (Desk.hear_error hheard).resolve_left (hbyte b)
  · exact absurd hf (hwrite reason)
  · exact ⟨.drained, haborted⟩

/-- With no reaction to releases, a fault that is not the line's own fails a tick exactly when the
reaction to the byte it feeds does. -/
theorem tick_error_iff {c : Connection τ σ} {found : Readiness} {fault : Fault}
    (silent : c.reactions.drained = pure ()) (hread : ∀ reason, fault ≠ .readFailed reason)
    (hwrite : ∀ reason, fault ≠ .writeFailed reason) :
    (c.tick found).1 = .error fault ↔
      ∃ b, c.incoming found = some b ∧
        ((c.toDesk.note (.read b)).hear b c.reactions).1 = .error fault := by
  constructor
  · intro h
    rcases tick_error h with hr | ⟨reason, hf⟩ | ⟨before, left, hrun, -⟩
    · rcases reception_error (congrArg Prod.fst hr) with ⟨reason, hf⟩ | ⟨b, hb, hheard, -⟩
      · exact absurd hf (hread reason)
      · exact ⟨b, hb, hheard⟩
    · exact absurd hf (hwrite reason)
    · rw [show c.reactions.toOccasion .drained = pure () from silent] at hrun
      cases hrun
  · rintro ⟨b, hb, hh⟩
    rw [tick_of_incoming hb, feed_eq]
    simp only [reading, hh]

end Connection

/-! ## Runs -/

/-- What a host can do with a connection: submit a frame, feed a byte, drain, tick on a finding,
replace its reactions, change its own state. -/
inductive Operation (σ : Type) where
  | submit (mode : Mode) (frame : Frame)
  | feed (b : UInt8)
  | drain
  | tick (found : Readiness)
  | setReactions (reactions : Reactions σ)
  | setHost (state : σ)

namespace Connection

variable [Line τ]

/-- The connection after one operation, successful or not. -/
def perform (c : Connection τ σ) : Operation σ → Connection τ σ
  | .submit mode frame => (c.submit mode frame).2
  | .feed b => (c.feed b).2
  | .drain => c.drain.2
  | .tick found => (c.tick found).2
  | .setReactions reactions => { c with reactions }
  | .setHost host => { c with host }

/-- The connection after one operation after the other. -/
def performAll (c : Connection τ σ) (ops : List (Operation σ)) : Connection τ σ :=
  ops.foldl perform c

/-- What every operation keeps, every run keeps. -/
theorem performAll_keeps {P : Connection τ σ → Prop} (step : ∀ c op, P c → P (c.perform op))
    (ops : List (Operation σ)) (c : Connection τ σ) (h : P c) : P (c.performAll ops) := by
  induction ops generalizing c with
  | nil => exact h
  | cons op rest ih => exact ih _ (step c op h)

end Connection

end Powerline
