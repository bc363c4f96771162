/-
An outstanding frame gets out. No reaction to an inbound byte can put another frame in its place, for
each submission is refused; a tick that may write and does not fail takes bytes off what is unsent;
and the tick that writes the last of them releases the frame, with one reaction. What that
reaction queues is another frame, so the measure is of the one frame only and ends with it.
-/
import Powerline.Proofs.Calls
import Powerline.Proofs.Conservation
import Powerline.Script.Line

namespace Powerline

variable {τ σ α : Type}

/-! ## What reactions submit -/

/-- A frame that a reaction submitted, with the answer it got. -/
structure Submission where
  mode : Mode
  frame : Frame
  answer : Except Fault Unit

/-- The entry that a submission makes. -/
def Submission.event (s : Submission) : Event :=
  match s.answer with
  | .ok () => .accepted s.mode s.frame
  | .error _ => .refused s.mode s.frame

/-- Whether an event is the answer to a submission. -/
def Event.isAnswer : Event → Bool
  | accepted _ _ | refused _ _ => true
  | _ => false

namespace Desk

/-- The answers to submissions, in order. -/
def submitted (d : Desk σ) : List Event := d.journal.filter Event.isAnswer

theorem submitted_note (event : Event) (d : Desk σ) :
    (d.note event).submitted = d.submitted ++ if event.isAnswer then [event] else [] := by
  simp only [submitted, journal_note, List.filter_append]
  cases h : event.isAnswer <;> simp [h]

theorem submitted_submit (mode : Mode) (frame : Frame) (d : Desk σ) :
    (d.submit mode frame).2.submitted =
      d.submitted ++ [Submission.event ⟨mode, frame, (d.submit mode frame).1⟩] := by
  rcases d.submit_cases mode frame with ⟨-, -, hs⟩ | ⟨fault, hs⟩ <;> rw [hs]
  · exact submitted_note _ _
  · exact submitted_note _ _

end Desk

namespace Reaction

/-- What a reaction submits at a desk, in order. -/
def submissions : Reaction σ α → Desk σ → List Submission
  | done _, _ | abort _, _ => []
  | submit mode frame next, d =>
    let (answer, d) := d.submit mode frame
    ⟨mode, frame, answer⟩ :: (next answer).submissions d
  | isPending next, d => (next d.outbox.isPending).submissions d
  | expected next, d => (next d.outbox.echo.expected).submissions d
  | host next, d => (next d.host).submissions d
  | setHost s next, d => next.submissions { d with host := s }

/-- The journal knows of each submission, and of no other. -/
theorem submitted_run (r : Reaction σ α) (d : Desk σ) :
    (r.run d).2.submitted = d.submitted ++ (r.submissions d).map Submission.event := by
  induction r generalizing d with
  | done a => exact (List.append_nil _).symm
  | abort e => exact (List.append_nil _).symm
  | submit mode frame next ih =>
    simp only [run, submissions, List.map_cons]
    rw [ih, Desk.submitted_submit, List.append_assoc]
    rfl
  | isPending next ih => exact ih _ d
  | expected next ih => exact ih _ d
  | host next ih => exact ih _ d
  | setHost s next ih => exact ih _

/-- While a frame is outstanding, a reaction gets nothing queued, however it goes about it. -/
theorem refused_of_pending (r : Reaction σ α) {d : Desk σ} {frame : Frame}
    (pending : d.outbox.pending = some frame) :
    ∀ s ∈ r.submissions d, s.answer = .error .alreadyPending := by
  induction r generalizing d with
  | done a => exact nofun
  | abort e => exact nofun
  | submit mode f next ih =>
    intro s hs
    rw [submissions, Desk.submit_taken mode f pending] at hs
    rcases List.mem_cons.1 hs with rfl | hlater
    · rfl
    · -- the desk has one more entry, and the frame that it had
      exact ih _ (d := d.note (.refused mode f)) pending s hlater
  | isPending next ih => exact ih _ pending
  | expected next ih => exact ih _ pending
  | host next ih => exact ih _ pending
  | setHost s next ih => exact ih (d := { d with host := s }) pending

end Reaction

/-- What the reaction to an inbound byte submits. -/
def Desk.submissions (b : UInt8) (r : Reactions σ) (d : Desk σ) : List Submission :=
  match (d.outbox.echo.classify b).1 with
  | .error _ => []
  | .ok signal => (r.toOccasion signal.occasion).submissions (d.attending b signal.occasion)

theorem Desk.submitted_hear (b : UInt8) (r : Reactions σ) (d : Desk σ) :
    (d.hear b r).2.submitted = d.submitted ++ (d.submissions b r).map Submission.event := by
  have hclassified : (d.classified b).submitted = d.submitted :=
    (submitted_note _ _).trans (List.append_nil _)
  unfold Desk.hear Desk.submissions
  rcases (d.outbox.echo.classify b).1 with fault | signal
  · exact hclassified.trans (List.append_nil _).symm
  · have hattending : (d.attending b signal.occasion).submitted = d.submitted :=
      (submitted_note _ _).trans ((List.append_nil _).trans hclassified)
    show (Desk.react _ _ _).2.submitted = d.submitted ++ List.map _ (Reaction.submissions _ _)
    rw [← hattending, ← Reaction.submitted_run]
    exact (submitted_note _ _).trans (List.append_nil _)

namespace Connection

variable [Line τ]

/-- What the reaction to the byte of a tick submits. -/
def submissions (found : Readiness) (c : Connection τ σ) : List Submission :=
  match c.incoming found with
  | none => []
  | some b => (c.reading b).toDesk.submissions b c.reactions

/-- All that is submitted in a tick before it comes to its write is submitted by the reaction to its
byte. -/
theorem submitted_reception (found : Readiness) (c : Connection τ σ) :
    (c.reception found).2.submitted =
      c.submitted ++ (c.submissions found).map Submission.event := by
  cases hb : c.incoming found with
  | none =>
    simp only [submissions, hb, List.map_nil, List.append_nil]
    rcases reception_of_silent hb with hr | ⟨hreadable, hnothing⟩
    · rw [hr]
    · obtain ⟨reason, hr⟩ := reception_of_unread hreadable hnothing
      rw [hr]
  | some b =>
    have hread : (c.reading b).submitted = c.submitted :=
      (Desk.submitted_note _ _).trans (List.append_nil _)
    simp only [submissions, hb]
    rw [reception_of_incoming hb, feed_eq, ← hread]
    exact Desk.submitted_hear b c.reactions (c.reading b).toDesk

theorem submitted_poised (found : Readiness) (c : Connection τ σ) :
    (c.poised found).submitted = c.submitted ++ (c.submissions found).map Submission.event := by
  rw [toDesk_poised, submitted_reception]

theorem refused_of_pending {found : Readiness} {c : Connection τ σ} {frame : Frame}
    (pending : c.outbox.pending = some frame) :
    ∀ s ∈ c.submissions found, s.answer = .error .alreadyPending := by
  intro s hs
  unfold submissions Desk.submissions at hs
  split at hs
  · cases hs
  · split at hs
    · cases hs
    · exact Reaction.refused_of_pending _ (by exact pending) s hs

/-! ## Accounts over any line -/

/-- The frames completed `before` and some since are what the desk says it completed, whether or not
the line tells the truth of what it took. -/
def Accounts (before : List Frame) (c : Connection τ σ) : Prop :=
  ∃ later wire, c.toDesk.Conserves (before ++ later) wire

namespace Accounts

variable {before : List Frame} {c : Connection τ σ}

omit [Line τ] in
theorem of_conserves {wire : List UInt8} (h : c.toDesk.Conserves before wire) : c.Accounts before :=
  ⟨[], wire, by rwa [List.append_nil]⟩

theorem drain (h : c.Accounts before) : c.drain.2.Accounts before := by
  obtain ⟨later, wire, hd⟩ := h
  have hdraining := Connection.draining (c := c) hd.unfinished
  generalize c.drain.1 = result, c.drain.2 = c' at hdraining ⊢
  cases hdraining with
  | idle | failed => exact ⟨later, wire, hd⟩
  | partly pending took pos more => exact ⟨later, _, hd.advanced pending more⟩
  | @last frame n pending took unfinished rest =>
    refine ⟨later ++ [frame], wire ++ frame.drop c.outbox.sent, ?_⟩
    rw [← List.append_assoc]
    exact (hd.released pending).react c.reactions

theorem kept : Connection.Kept (τ := τ) (σ := σ) (Accounts before) (Accounts before) where
  fails _ h := h
  readByte _ h := h
  feed c b h := by
    obtain ⟨later, wire, hd⟩ := h
    rw [ends_self, feed_eq]
    exact ⟨later, wire, (hd.note rfl rfl).hear b c.reactions⟩
  probe _ h := h
  drain _ h := ends_self.2 h.drain

theorem tick (h : c.Accounts before) (found : Readiness) : (c.tick found).2.Accounts before :=
  ends_self.1 (kept.tick found h)

theorem perform (h : c.Accounts before) (op : Operation σ) : (c.perform op).Accounts before := by
  cases op with
  | submit mode frame =>
    obtain ⟨later, wire, hd⟩ := h
    exact ⟨later, wire, hd.submit mode frame⟩
  | feed b =>
    obtain ⟨later, wire, hd⟩ := h
    show (c.feed b).2.Accounts before
    rw [feed_eq]
    exact ⟨later, wire, hd.hear b c.reactions⟩
  | drain => exact h.drain
  | tick found => exact h.tick found
  | setReactions r => exact h
  | setHost s =>
    obtain ⟨later, wire, hd⟩ := h
    exact ⟨later, wire, hd.host s⟩

end Accounts

/-! ## One tick -/

/-- A tick that may write, and does not fail. -/
structure Steady (found : Readiness) (c : Connection τ σ) : Prop where
  writable : found.isWritable (Line.handle c.line) = true
  done : (c.tick found).1 = .ok ()

/-- A tick that takes bytes off what is unsent of the outstanding frame and leaves some. -/
structure Shortens (frame : Frame) (found : Readiness) (c : Connection τ σ) : Prop where
  took : ∃ n, (Line.write c.outbox.unsent (c.poised found).line).1 = .ok n ∧
    n < c.outbox.unsent.length ∧ (c.tick found).2.outbox.unsent = c.outbox.unsent.drop n
  shorter : (c.tick found).2.outbox.unsent.length < c.outbox.unsent.length
  stays : (c.tick found).2.outbox.pending = some frame
  submitted : (c.tick found).2.submitted = c.submitted ++ (c.submissions found).map Submission.event

/-- A tick that writes the last of the outstanding frame, after which the host reacts to the release,
once. What more is submitted then, that reaction submits, to the free slot. -/
structure Completes (frame : Frame) (found : Readiness) (c : Connection τ σ) : Prop where
  took : ∃ n, (Line.write c.outbox.unsent (c.poised found).line).1 = .ok n ∧
    c.outbox.unsent.length ≤ n
  reacted : (c.tick found).2.drainings = c.drainings ++ [.released frame, .reacted .drained]
  submitted : (c.tick found).2.submitted = c.submitted ++ (c.submissions found ++
    c.reactions.drained.submissions
      (((c.poised found).toDesk.released frame).note (.reacted .drained))).map Submission.event

section
variable {found : Readiness} {c : Connection τ σ} {frame : Frame} {completed : List Frame}
  {wire : List UInt8}

theorem Steady.writes (h : c.Steady found) (pending : c.outbox.pending = some frame) :
    c.writes found = true := by
  refine writes_iff.2 ⟨?_, .inl ⟨by simp [pending], h.writable⟩⟩
  have hdone := h.done
  rw [tick_eq] at hdone
  rcases hr : c.reception found with ⟨fault | _, after⟩
  · rw [hr] at hdone
    cases hdone
  · rfl

/-- The byte of a tick completes nothing. -/
theorem conserves_poised (h : c.toDesk.Conserves completed wire) (found : Readiness) :
    (c.poised found).toDesk.Conserves completed wire := by
  rw [toDesk_poised]
  exact reception_desk found h fun b => (h.note rfl rfl).hear b c.reactions

/-- What a steady tick makes of the outstanding frame: it gets shorter, or it is completed, whatever the
reactions to the byte and to the release do. -/
theorem Steady.departs (h : c.Steady found) (hc : c.toDesk.Conserves completed wire)
    (pending : c.outbox.pending = some frame) :
    (c.Shortens frame found ∧ ∃ wire, (c.tick found).2.toDesk.Conserves completed wire) ∨
      (c.Completes frame found ∧
        ∃ wire, (c.tick found).2.toDesk.Conserves (completed ++ [frame]) wire) := by
  have hpoised := conserves_poised hc found
  obtain ⟨hslot, hsent⟩ := reception_of_pending found (c := c) (by simp [pending])
  rw [← toDesk_poised] at hslot hsent
  have hunsent := Outbox.unsent_of_some pending
  have hoffered : frame.drop (c.poised found).outbox.sent = c.outbox.unsent := by
    rw [hsent, hunsent]
  have hlength : c.outbox.unsent.length = frame.length - c.outbox.sent := by
    rw [hunsent, List.length_drop]
  have htick := tick_of_writes (h.writes pending)
  have hafter : (c.tick found).2 = (c.poised found).drain.2 := by rw [htick]
  have hdone := h.done
  rw [htick] at hdone
  have hdraining := Connection.draining hpoised.unfinished
  generalize (c.poised found).drain.1 = result at hdone hdraining
  generalize (c.poised found).drain.2 = c' at hafter hdraining
  cases hdraining with
  | idle free =>
    rw [hslot, pending] at free
    cases free
  | failed => cases hdone
  | @partly f n hp took pos more =>
    obtain rfl : f = frame := Option.some.inj (hp.symm.trans (hslot.trans pending))
    rw [hoffered] at took
    rw [hsent] at more
    have hleft : (c.tick found).2.outbox.unsent = c.outbox.unsent.drop n := by
      rw [hafter, hunsent, List.drop_drop, ← hsent]
      exact Outbox.unsent_of_some hp
    refine .inl ⟨⟨⟨n, took, by omega, hleft⟩, ?_, ?_, ?_⟩, ?_⟩
    · rw [hleft, List.length_drop]
      omega
    · rw [hafter]
      exact hp
    · rw [hafter, ← submitted_poised]
      rfl
    · rw [hafter]
      exact ⟨_, hpoised.advanced hp (by rwa [hsent])⟩
  | @last f n hp took unfinished rest =>
    obtain rfl : f = frame := Option.some.inj (hp.symm.trans (hslot.trans pending))
    rw [hoffered] at took
    rw [hsent] at rest
    have hreleased : ∃ wire, (c.tick found).2.toDesk.Conserves (completed ++ [f]) wire := by
      rw [hafter]
      exact ⟨_, (hpoised.released hp).react _⟩
    refine .inr ⟨⟨⟨n, took, by omega⟩, ?_, ?_⟩, hreleased⟩
    · obtain ⟨wire', hw⟩ := hreleased
      rw [hw.drainings, hc.drainings, List.flatMap_append]
      rfl
    · have hreleasing : (((c.poised found).toDesk.released f).note (.reacted .drained)).submitted =
          c.submitted ++ (c.submissions found).map Submission.event := by
        rw [Desk.submitted_note, Desk.released, Desk.submitted_note, ← submitted_poised]
        exact (List.append_nil _).trans (List.append_nil _)
      rw [hafter, List.map_append, ← List.append_assoc, ← hreleasing, ← Reaction.submitted_run,
        ← reactions_poised found c]
      exact (Desk.submitted_note _ _).trans (List.append_nil _)

end

/-! ## One tick after the other -/

/-- The connection after the first so many ticks, one on each finding. -/
def ticks (findings : Nat → Readiness) (c : Connection τ σ) : Nat → Connection τ σ
  | 0 => c
  | k + 1 => ((c.ticks findings k).tick (findings k)).2

/-- The first `t` ticks have shortened a frame and not completed it. -/
structure Shortened (completed : List Frame) (frame : Frame) (findings : Nat → Readiness)
    (c : Connection τ σ) (t : Nat) : Prop where
  conserves : ∀ k ≤ t, ∃ wire, (c.ticks findings k).toDesk.Conserves completed wire
  pending : ∀ k ≤ t, (c.ticks findings k).outbox.pending = some frame
  shortens : ∀ k < t, (c.ticks findings k).Shortens frame (findings k)

section
variable {findings : Nat → Readiness} {c : Connection τ σ} {frame : Frame} {completed : List Frame}
  {wire : List UInt8} {t : Nat}

theorem Shortened.zero (hc : c.toDesk.Conserves completed wire)
    (pending : c.outbox.pending = some frame) : Shortened completed frame findings c 0 where
  conserves k hk := by
    obtain rfl := Nat.le_zero.1 hk
    exact ⟨wire, hc⟩
  pending k hk := by
    obtain rfl := Nat.le_zero.1 hk
    exact pending
  shortens k hk := absurd hk (Nat.not_lt_zero k)

theorem Shortened.succ (h : Shortened completed frame findings c t)
    (hc : ∃ wire, (c.ticks findings (t + 1)).toDesk.Conserves completed wire)
    (ht : (c.ticks findings t).Shortens frame (findings t)) :
    Shortened completed frame findings c (t + 1) where
  conserves k hk := by
    rcases Nat.lt_or_eq_of_le hk with hlt | rfl
    · exact h.conserves k (Nat.le_of_lt_succ hlt)
    · exact hc
  pending k hk := by
    rcases Nat.lt_or_eq_of_le hk with hlt | rfl
    · exact h.pending k (Nat.le_of_lt_succ hlt)
    · exact ht.stays
  shortens k hk := by
    rcases Nat.lt_or_eq_of_le (Nat.le_of_lt_succ hk) with hlt | rfl
    · exact h.shortens k hlt
    · exact ht

/-- So many ticks take at least as many bytes. -/
theorem Shortened.measure (h : Shortened completed frame findings c t) :
    ∀ k ≤ t, (c.ticks findings k).outbox.unsent.length + k ≤ c.outbox.unsent.length := by
  intro k hk
  induction k with
  | zero => exact Nat.le_refl _
  | succ k ih =>
    have hshorter := (h.shortens k hk).shorter
    have hbefore := ih (Nat.le_of_lt hk)
    simp only [ticks]
    omega

/-- A frame that is not completed yet has a byte left, so there were fewer ticks than bytes. -/
theorem Shortened.lt (h : Shortened completed frame findings c t) : t < c.outbox.unsent.length := by
  obtain ⟨wire, hw⟩ := h.conserves t (Nat.le_refl t)
  have hpending := h.pending t (Nat.le_refl t)
  have hunfinished := hw.unfinished frame hpending
  have hmeasure := h.measure t (Nat.le_refl t)
  rw [Outbox.unsent_of_some hpending, List.length_drop] at hmeasure
  omega

/-- Steady ticks have only shortened the frame, or one of them has completed it. -/
theorem shortened_or_completes (hc : c.toDesk.Conserves completed wire)
    (pending : c.outbox.pending = some frame) (n : Nat)
    (steady : ∀ k < n, (c.ticks findings k).Steady (findings k)) :
    Shortened completed frame findings c n ∨
      ∃ t < n, Shortened completed frame findings c t ∧
        (c.ticks findings t).Completes frame (findings t) ∧
        ∃ wire, (c.ticks findings (t + 1)).toDesk.Conserves (completed ++ [frame]) wire := by
  induction n with
  | zero => exact .inl (.zero hc pending)
  | succ n ih =>
    rcases ih fun k hk => steady k (Nat.lt_succ_of_lt hk) with h | ⟨t, ht, h⟩
    · obtain ⟨wire, hw⟩ := h.conserves n (Nat.le_refl n)
      rcases (steady n (Nat.lt_succ_self n)).departs hw (h.pending n (Nat.le_refl n)) with
        ⟨hshortens, hnext⟩ | hcompletes
      · exact .inl (h.succ hnext hshortens)
      · exact .inr ⟨n, Nat.lt_succ_self n, h, hcompletes⟩
    · exact .inr ⟨t, Nat.lt_succ_of_lt ht, h⟩

theorem Accounts.ticks {before : List Frame} (h : (c.ticks findings t).Accounts before) {k : Nat}
    (hk : t ≤ k) : (c.ticks findings k).Accounts before := by
  induction k, hk using Nat.le_induction with
  | base => exact h
  | succ k _ ih => exact ih.tick (findings k)

end

/-- An outstanding frame that departs on findings: `t` ticks shorten it, and the next one, if the ticks
go on so far, completes it. -/
structure Departs (frame : Frame) (findings : Nat → Readiness) (n t : Nat) (c : Connection τ σ) :
    Prop where
  within : t ≤ n
  /-- Each tick takes a byte at least, so there are not more ticks than bytes. -/
  soon : t < c.outbox.unsent.length
  completed : c.outbox.unsent.length ≤ n → t < n
  shortens : ∀ k < t, (c.ticks findings k).Shortens frame (findings k)
  completes : t < n → (c.ticks findings t).Completes frame (findings t)
  /-- Until it is completed, it is the outstanding frame; no other is accepted, and no release is
  reacted to. -/
  stays : ∀ k ≤ t, (c.ticks findings k).outbox.pending = some frame ∧
    (c.ticks findings k).accepted = c.accepted ∧ (c.ticks findings k).drainings = c.drainings
  refused : ∀ k ≤ t, ∀ s ∈ (c.ticks findings k).submissions (findings k),
    s.answer = .error .alreadyPending
  /-- Once it is completed, the releases that are reacted to are its own, and those of the frames
  accepted later; the last of these may be outstanding. -/
  once : ∀ k ≤ n, t < k → ∃ later,
    (c.ticks findings k).accepted =
      c.accepted ++ later ++ (c.ticks findings k).outbox.pending.toList ∧
    (c.ticks findings k).drainings =
      c.drainings ++ (frame :: later).flatMap fun frame => [.released frame, .reacted .drained]

theorem Shortened.departs {completed : List Frame} {wire : List UInt8} {frame : Frame}
    {findings : Nat → Readiness} {c : Connection τ σ} {n t : Nat}
    (h : Shortened completed frame findings c t) (hc : c.toDesk.Conserves completed wire)
    (within : t ≤ n)
    (ends : t < n → (c.ticks findings t).Completes frame (findings t) ∧
      ∃ wire, (c.ticks findings (t + 1)).toDesk.Conserves (completed ++ [frame]) wire) :
    c.Departs frame findings n t where
  within := within
  soon := h.lt
  completed hn := Nat.lt_of_lt_of_le h.lt hn
  shortens := h.shortens
  completes ht := (ends ht).1
  stays k hk := by
    obtain ⟨wire', hw⟩ := h.conserves k hk
    have hpending := h.pending k hk
    have hfirst := h.pending 0 (Nat.zero_le t)
    refine ⟨hpending, ?_, hw.drainings.trans hc.drainings.symm⟩
    rw [hw.accepted, hc.accepted, hpending]
    exact congrArg (completed ++ Option.toList ·) hfirst.symm
  refused k hk := refused_of_pending (h.pending k hk)
  once k hk ht := by
    obtain ⟨-, wire', hnext⟩ := ends (Nat.lt_of_lt_of_le ht hk)
    obtain ⟨later, wire'', hw⟩ := (Accounts.of_conserves hnext).ticks ht
    have hfirst : c.outbox.pending = some frame := h.pending 0 (Nat.zero_le t)
    refine ⟨later, ?_, ?_⟩
    · rw [hw.accepted, hc.accepted, hfirst]
      rfl
    · rw [hw.drainings, hc.drainings, List.append_assoc, List.flatMap_append]
      rfl

/-- An outstanding frame gets out: after any operations on a fresh connection over any line, and
whatever the reactions do, ticks that may write and do not fail each take bytes off what is unsent of
it until one of them completes it, which is no later than the tick of the number of these bytes. The
host reacts to its release in that tick and never again; until then the frame stays what it is,
and every frame that a reaction submits is refused for it. -/
theorem performAll_departs (line : τ) (host : σ) (reactions : Reactions σ)
    (ops : List (Operation σ)) {frame : Frame} {findings : Nat → Readiness} {n : Nat} :
    let c := (Connection.fresh line host reactions).performAll ops
    c.outbox.pending = some frame →
      (∀ k < n, (c.ticks findings k).Steady (findings k)) →
      ∃ t, c.Departs frame findings n t := by
  intro c pending steady
  have hfresh : (Connection.fresh line host reactions).Accounts [] :=
    ⟨[], [], ⟨rfl, rfl, rfl, fun _ h => by cases h⟩⟩
  obtain ⟨completed, wire, hc⟩ : c.Accounts [] :=
    performAll_keeps (fun c op h => h.perform op) ops _ hfresh
  rcases shortened_or_completes hc pending n steady with h | ⟨t, ht, h, hends⟩
  · exact ⟨n, h.departs hc (Nat.le_refl n) fun hlt => absurd hlt (Nat.lt_irrefl n)⟩
  · exact ⟨t, h.departs hc (Nat.le_of_lt ht) fun _ => hends⟩

/-- A byte of the frame at a time, while the host answers its echo and its release with more frames:
the first is refused, the second is queued once the frame is out, and departs in its turn. -/
theorem performAll_departs_byByte :
    let reactions : Reactions Unit :=
      { echoMatched := do let _ ← Reaction.trySend .plain [0x9B]
        drained := do let _ ← Reaction.trySend .plain [0x00] }
    let line : ScriptedLine := { reads := [.byte 0x73], chunk := some 1 }
    let c := (Connection.fresh line () reactions).performAll [.submit .verified [0x04, 0x6E, 0x01]]
    let findings (k : Nat) := Readiness.of (if k = 1 then [42] else []) [42]
    c.outbox.pending = some [0x04, 0x6E, 0x01] ∧ c.outbox.unsent.length = 3 ∧
      (∀ k < 4, (c.ticks findings k).Steady (findings k)) ∧
      ((c.ticks findings 1).submissions (findings 1)).map (·.frame) = [[0x9B]] ∧
      ∃ t, c.Departs [0x04, 0x6E, 0x01] findings 4 t := by
  intro reactions line c findings
  have hsteady : ∀ k < 4, (findings k).isWritable (Line.handle (c.ticks findings k).line) = true ∧
      ((c.ticks findings k).tick (findings k)).1 = .ok () := by
    decide
  have steady : ∀ k < 4, (c.ticks findings k).Steady (findings k) :=
    fun k hk => ⟨(hsteady k hk).1, (hsteady k hk).2⟩
  exact ⟨rfl, rfl, steady, rfl, performAll_departs line () reactions _ rfl steady⟩

end Connection

end Powerline
