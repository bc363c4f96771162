/-
What failures leave behind. A frame that is refused is entered in the journal and changes nothing
else; a byte that cannot be read changes nothing but the line, and one without a meaning is counted; a
probe or a write that fails leaves the slot to the next write, which goes on where the last one
stood; and the fault of a reaction is what the operation gives, with the frame of a failed reaction to
a release done with for good.
-/
import Powerline.Proofs.Calls

namespace Powerline

variable {τ σ : Type}

/-! ## Failed reactions -/

/-- The occasion and the fault of a reaction that an event says has failed. -/
def Event.abort? : Event → Option (Occasion × Fault)
  | finished occasion (.error fault) => some (occasion, fault)
  | _ => none

theorem Signal.occasion_ne_drained (s : Signal) : s.occasion ≠ .drained := by
  rcases s with _ | _ | ⟨_ | _ | _⟩ <;> nofun

namespace Desk

/-- The reactions that have failed, each with its fault, in order. -/
def aborts (d : Desk σ) : List (Occasion × Fault) := d.journal.filterMap Event.abort?

theorem aborts_note (event : Event) (d : Desk σ) :
    (d.note event).aborts = d.aborts ++ event.abort?.toList := by
  simp only [aborts, journal_note, List.filterMap_append]
  cases h : event.abort? <;> simp [h]

theorem aborts_note_of_silent {event : Event} (silent : event.abort? = none) (d : Desk σ) :
    (d.note event).aborts = d.aborts := by
  rw [aborts_note, silent]
  exact List.append_nil _

theorem aborts_submit (mode : Mode) (frame : Frame) (d : Desk σ) :
    (d.submit mode frame).2.aborts = d.aborts := by
  rcases d.submit_cases mode frame with ⟨-, -, hs⟩ | ⟨fault, hs⟩ <;> rw [hs]
  · exact aborts_note_of_silent rfl _
  · exact aborts_note_of_silent rfl _

/-- A reaction that fails is entered with its fault, after whatever it did. -/
theorem aborts_react (occasion : Occasion) (r : Reactions σ) (d : Desk σ) :
    (d.react occasion r).2.aborts =
      d.aborts ++ (Event.finished occasion (d.react occasion r).1).abort?.toList := by
  have hrun := (r.toOccasion occasion).run_keeps (P := fun d' => d'.aborts = d.aborts)
    (fun d' mode frame h => (d'.aborts_submit mode frame).trans h) (fun _ _ h => h)
    (d.note (.reacted occasion)) (aborts_note_of_silent rfl d)
  rw [react, aborts_note, hrun]

/-- What an operation adds to the failed reactions: none, or one on an occasion in `P` whose fault is
what the operation gives, and which it ends with. -/
inductive Reports {α : Type} (P : Occasion → Prop) (r : Reactions σ) (d : Desk σ)
    (result : Except Fault α) (d' : Desk σ) : Prop where
  | none (same : d'.aborts = d.aborts)
  | one {occasion : Occasion} {fault : Fault} (on : P occasion) (failed : result = .error fault)
      (more : d'.aborts = d.aborts ++ [(occasion, fault)]) (left : d'.Aborted r occasion fault)

namespace Reports

variable {α : Type} {P : Occasion → Prop} {r : Reactions σ} {d d' : Desk σ} {result : Except Fault α}

theorem of_ok (h : Reports P r d result d') {a : α} (ok : result = .ok a) : d'.aborts = d.aborts := by
  cases h with
  | none same => exact same
  | one on failed more =>
    rw [ok] at failed
    cases failed

theorem of_mem (h : Reports P r d result d') {occasion : Occasion} {fault : Fault}
    (new : (occasion, fault) ∈ d'.aborts.drop d.aborts.length) :
    P occasion ∧ result = .error fault ∧ d'.Aborted r occasion fault := by
  cases h with
  | none same =>
    rw [same, List.drop_length] at new
    cases new
  | one on failed more left =>
    rw [more, List.drop_left] at new
    cases List.mem_singleton.1 new
    exact ⟨on, failed, left⟩

end Reports

theorem reports_react (occasion : Occasion) (r : Reactions σ) (d : Desk σ) :
    Reports (· = occasion) r d (d.react occasion r).1 (d.react occasion r).2 := by
  have haborts := d.aborts_react occasion r
  cases hr : (d.react occasion r).1 with
  | error fault =>
    rw [hr] at haborts
    exact .one rfl rfl haborts (aborted_react hr)
  | ok _ =>
    rw [hr] at haborts
    exact .none (haborts.trans (List.append_nil _))

theorem aborts_released (frame : Frame) (d : Desk σ) : (d.released frame).aborts = d.aborts :=
  aborts_note_of_silent rfl _

theorem mem_aborts_react {occasion : Occasion} {r : Reactions σ} {d : Desk σ} {fault : Fault}
    (h : (d.react occasion r).1 = .error fault) :
    (occasion, fault) ∈ (d.react occasion r).2.aborts.drop d.aborts.length := by
  rw [aborts_react, h, List.drop_left]
  exact List.mem_singleton_self _

theorem aborts_classified (b : UInt8) (d : Desk σ) : (d.classified b).aborts = d.aborts :=
  aborts_note_of_silent rfl _

/-- The reaction to a byte is on another occasion than a release. -/
theorem reports_hear (b : UInt8) (r : Reactions σ) (d : Desk σ) :
    Reports (· ≠ .drained) r d (d.hear b r).1 (d.hear b r).2 := by
  unfold hear
  split
  · exact .none (aborts_classified b d)
  · rename_i signal _
    cases (d.classified b).reports_react signal.occasion r with
    | none same => exact .none (same.trans (aborts_classified b d))
    | one on failed more left =>
      rw [aborts_classified] at more
      exact .one (on ▸ signal.occasion_ne_drained) failed more left

/-- What fails a byte is that it has no meaning, or the reaction to it. -/
theorem cause_of_hear {b : UInt8} {r : Reactions σ} {d : Desk σ} {fault : Fault}
    (h : (d.hear b r).1 = .error fault) : (d.outbox.echo.classify b).1 = .error fault ∨
      ∃ occasion, (occasion, fault) ∈ (d.hear b r).2.aborts.drop d.aborts.length := by
  unfold hear at h ⊢
  split at h
  · rename_i e hmeaning
    cases h
    exact .inl hmeaning
  · rename_i signal hmeaning
    rw [hmeaning, ← aborts_classified b d]
    exact .inr ⟨_, mem_aborts_react h⟩

/-! ## Refusals -/

theorem submit_error {mode : Mode} {frame : Frame} {d : Desk σ} {fault : Fault}
    (h : (d.submit mode frame).1 = .error fault) :
    (fault = .alreadyPending ∨ ∃ reason, fault = .invalidFrame reason) ∧
      (d.submit mode frame).2 = d.note (.refused mode frame) := by
  unfold submit Outbox.submit at h ⊢
  split_ifs at h ⊢ with hpending hempty <;> cases h
  · exact ⟨.inl rfl, rfl⟩
  · exact ⟨.inr ⟨_, rfl⟩, rfl⟩

/-- A byte without a meaning is entered in the journal and changes nothing else. -/
theorem hear_of_error {b : UInt8} {r : Reactions σ} {d : Desk σ} {fault : Fault}
    (h : (d.outbox.echo.classify b).1 = .error fault) :
    d.hear b r = (.error fault, d.note (.heard b (.error fault))) := by
  have hclassified : d.classified b = d.note (.heard b (.error fault)) := by
    simp only [classified, h, (Echo.of_classify_error h).2]
  unfold hear
  rw [h, hclassified]

/-! ## Frames accepted -/

theorem isPrefix_accepted_note (event : Event) (d : Desk σ) : d.accepted <+: (d.note event).accepted :=
  ⟨_, (accepted_note event d).symm⟩

/-- The frames accepted are these and others after them, and the slot is sound. -/
structure Extends (before : List Frame) (d : Desk σ) : Prop where
  sound : d.outbox.Sound
  accepted : before <+: d.accepted

namespace Extends

variable {before : List Frame} {d : Desk σ}

theorem refl (sound : d.outbox.Sound) : d.Extends d.accepted := ⟨sound, List.prefix_refl _⟩

theorem note (h : d.Extends before) (event : Event) : (d.note event).Extends before :=
  ⟨h.sound, h.accepted.trans (isPrefix_accepted_note event d)⟩

end Extends

theorem kept_extends (before : List Frame) : Kept fun d : Desk σ => d.Extends before where
  unfinished _ h := h.sound.unfinished
  submit d mode frame h := by
    refine ⟨kept_sound.submit d mode frame h.sound, h.accepted.trans ?_⟩
    rcases d.submit_cases mode frame with ⟨-, -, hs⟩ | ⟨fault, hs⟩ <;> rw [hs]
    · exact ⟨_, (accepted_queue mode frame d).symm⟩
    · exact isPrefix_accepted_note _ d
  host _ _ h := ⟨h.sound, h.accepted⟩
  read _ _ h := h.note _
  reacted _ _ h := h.note _
  finished _ _ _ h := h.note _
  advanced d n frame h hp hmore := ⟨kept_sound.advanced d n frame h.sound hp hmore, h.accepted⟩
  released d frame h hp :=
    ⟨kept_sound.released d frame h.sound hp, h.accepted.trans (isPrefix_accepted_note _ _)⟩

theorem Extends.classified {before : List Frame} {d : Desk σ} (h : d.Extends before) (b : UInt8) :
    (d.classified b).Extends before :=
  ⟨h.sound.echo _, h.accepted.trans (isPrefix_accepted_note _ _)⟩

/-- The outstanding frame was accepted last, and after these. -/
structure Since (before : List Frame) (d : Desk σ) : Prop extends Extends before d where
  latest : ∀ frame, d.outbox.pending = some frame →
    before.length < d.accepted.length ∧ d.accepted.getLast? = some frame

namespace Since

variable {before : List Frame} {d : Desk σ}

theorem note (h : d.Since before) (event : Event) (silent : event.accepted? = none) :
    (d.note event).Since before := by
  refine ⟨h.toExtends.note event, ?_⟩
  rw [accepted_note, silent]
  simpa using h.latest

theorem submit (h : d.Since before) (mode : Mode) (frame : Frame) :
    (d.submit mode frame).2.Since before := by
  have hextends := (kept_extends before).submit d mode frame h.toExtends
  rcases d.submit_cases mode frame with ⟨-, -, hs⟩ | ⟨fault, hs⟩ <;> rw [hs] at hextends ⊢
  · -- the frame taken is the last one now
    refine ⟨hextends, ?_⟩
    rintro f ⟨⟩
    have hlength := h.accepted.length_le
    rw [accepted_queue, List.length_append, List.getLast?_concat]
    exact ⟨by simp only [List.length_singleton]; omega, rfl⟩
  · exact h.note _ rfl

theorem mem (h : d.Since before) {frame : Frame} (pending : d.outbox.pending = some frame) :
    frame ∈ d.accepted.drop before.length := by
  obtain ⟨hlength, hlast⟩ := h.latest frame pending
  obtain ⟨earlier, hearlier⟩ := List.getLast?_eq_some_iff.1 hlast
  rw [hearlier, List.length_append, List.length_singleton] at hlength
  rw [hearlier, List.drop_append_of_le_length (by omega)]
  exact List.mem_append_right _ (List.mem_singleton_self frame)

/-- A free slot holds no frame accepted before. -/
theorem of_free (sound : d.outbox.Sound) (free : d.outbox.pending = none) : d.Since d.accepted :=
  ⟨.refl sound, fun _ hp => by rw [free] at hp; cases hp⟩

end Since

theorem kept_since (before : List Frame) : Kept fun d : Desk σ => d.Since before where
  unfinished _ h := h.sound.unfinished
  submit _ mode frame h := h.submit mode frame
  host _ _ h := ⟨⟨h.sound, h.accepted⟩, h.latest⟩
  read _ _ h := h.note _ rfl
  reacted _ _ h := h.note _ rfl
  finished _ _ _ h := h.note _ rfl
  advanced d n frame h hp hmore :=
    ⟨(kept_extends before).advanced d n frame h.toExtends hp hmore, h.latest⟩
  released d frame h hp := ⟨(kept_extends before).released d frame h.toExtends hp, nofun⟩

theorem Since.classified {before : List Frame} {d : Desk σ} (h : d.Since before) (b : UInt8) :
    (d.classified b).Since before := by
  have hclear : Since before { d with outbox := { d.outbox with echo := d.outbox.echo.clear } } :=
    ⟨⟨h.sound.echo _, h.accepted⟩, h.latest⟩
  exact hclear.note _ rfl

/-- Nothing is struck from the journal while the host reacts. -/
theorem isPrefix_journal_react (occasion : Occasion) (r : Reactions σ) (d : Desk σ) :
    d.journal <+: (d.react occasion r).2.journal := by
  have hnote : ∀ (event : Event) (d' : Desk σ), d'.journal <+: (d'.note event).journal :=
    fun event d' => ⟨[event], (journal_note event d').symm⟩
  refine List.IsPrefix.trans ?_ (hnote _ _)
  refine (r.toOccasion occasion).run_keeps (P := fun d' => d.journal <+: d'.journal)
    (fun d' mode frame h => h.trans ?_) (fun _ _ h => h) _ (hnote _ _)
  rcases d'.submit_cases mode frame with ⟨-, -, hs⟩ | ⟨fault, hs⟩ <;> rw [hs]
  · exact ⟨_, (journal_queue mode frame d').symm⟩
  · exact hnote _ _

end Desk

namespace Connection

variable [Line τ]

/-! ## The write of an operation -/

/-- The connection when an operation comes to its write, if it comes to one. -/
def beforeWrite (c : Connection τ σ) : Operation σ → Option (Connection τ σ)
  | .drain => if c.outbox.isPending then some c else none
  | .tick found => if c.writes found then some (c.poised found) else none
  | _ => none

section
variable {c x : Connection τ σ} {op : Operation σ}

/-- An operation that comes to a write ends in a drain of an outstanding frame. -/
theorem perform_of_beforeWrite (h : c.beforeWrite op = some x) :
    x.outbox.pending ≠ none ∧ c.perform op = x.drain.2 ∧ c.result op = x.drain.1.map fun _ => () := by
  cases op with
  | drain =>
    simp only [beforeWrite] at h
    split at h
    · rename_i hpending
      cases h
      exact ⟨Option.isSome_iff_ne_none.1 hpending, rfl, rfl⟩
    · cases h
  | tick found =>
    simp only [beforeWrite] at h
    split at h
    · rename_i hwrites
      cases h
      have htick := tick_of_writes hwrites
      refine ⟨?_, congrArg Prod.snd htick, congrArg Prod.fst htick⟩
      rw [toDesk_poised]
      exact pending_of_writes hwrites
    · cases h
  | submit | feed | setReactions | setHost => cases h

/-- What a desk keeps, it has kept when the operation comes to its write. -/
theorem kept_beforeWrite {P : Desk σ → Prop} (kept : Desk.Kept P)
    (classified : ∀ d b, P d → P (d.classified b)) (hx : c.beforeWrite op = some x)
    (h : P c.toDesk) : P x.toDesk := by
  cases op with
  | drain =>
    simp only [beforeWrite] at hx
    split at hx <;> cases hx
    exact h
  | tick found =>
    simp only [beforeWrite] at hx
    split at hx <;> cases hx
    rw [toDesk_poised]
    exact kept.reception classified found h
  | submit | feed | setReactions | setHost => cases hx

end

theorem beforeWrite_viewed {υ : Type} [Line υ] {view : τ → υ} (same : Line.View view)
    (c : Connection τ σ) (op : Operation σ) :
    (c.viewed view).beforeWrite op = (c.beforeWrite op).map (viewed view) := by
  cases op with
  | submit | feed | setReactions | setHost => rfl
  | drain =>
    show (if c.outbox.isPending then some (c.viewed view) else none) = _
    rw [beforeWrite]
    split <;> rfl
  | tick found =>
    simp only [beforeWrite, writes_viewed same, poised_viewed same]
    split <;> rfl

/-- An operation under watch writes where it comes to a write, what is outstanding by then. -/
theorem write_mem_calls {w : Connection (Line.Watched τ) σ} {op : Operation σ} {offered : List UInt8} :
    .write offered ∈ (w.perform op).line.calls ↔
      .write offered ∈ w.line.calls ∨ ∃ x, w.beforeWrite op = some x ∧ offered = x.outbox.unsent := by
  cases op with
  | submit | setReactions | setHost => simp [beforeWrite, perform, submit]
  | feed b =>
    have hline : (w.perform (.feed b)).line = w.line := by
      show (w.feed b).2.line = w.line
      rw [feed_eq]
    simp [hline, beforeWrite]
  | drain =>
    have hcalls : (w.perform .drain).line.calls = w.drain.2.line.calls := rfl
    rw [hcalls, line_drain, Outbox.calls_drain]
    cases hp : w.outbox.isPending <;> simp [beforeWrite, hp, or_comm]
  | tick found =>
    have hcalls : (w.perform (.tick found)).line.calls = (w.tick found).2.line.calls := rfl
    rw [hcalls, calls_tick, ← toDesk_poised]
    -- the read and the probe are no writes
    cases hwrites : w.writes found <;> cases w.probes found <;>
      cases found.isReadable (Line.handle w.line) <;> simp [beforeWrite, hwrites, or_comm]

/-- The calls that an operation makes on the line, in order, as a watch on the line tells. -/
def asked (op : Operation σ) (c : Connection τ σ) : List Line.Call :=
  (c.watched.perform op).line.calls.reverse

theorem write_mem_asked {c : Connection τ σ} {op : Operation σ} {offered : List UInt8} :
    .write offered ∈ c.asked op ↔ ∃ x, c.beforeWrite op = some x ∧ offered = x.outbox.unsent := by
  have hview : c.beforeWrite op = (c.watched.beforeWrite op).map (viewed Line.Watched.line) :=
    beforeWrite_viewed Line.Watched.view c.watched op
  have hnone : c.watched.line.calls = [] := rfl
  rw [asked, List.mem_reverse, write_mem_calls, hnone, hview]
  simp [viewed]

/-! ## Writes of frames accepted since -/

/-- The outstanding frame was accepted after these, and so was that of every write under watch. -/
structure OffersSince (before : List Frame) (w : Connection (Line.Watched τ) σ) : Prop where
  since : w.toDesk.Since before
  offers : ∀ offered, .write offered ∈ w.line.calls →
    ∃ frame ∈ w.accepted.drop before.length, offered <:+ frame

theorem OffersSince.perform {before : List Frame} {w : Connection (Line.Watched τ) σ}
    (h : w.OffersSince before) (op : Operation σ) : (w.perform op).OffersSince before := by
  have hsound := h.since.sound
  refine ⟨(Desk.kept_since before).perform (fun _ b hd => hd.classified b) op h.since, ?_⟩
  intro offered hoffered
  rcases write_mem_calls.1 hoffered with hbefore | ⟨x, hx, rfl⟩
  · obtain ⟨frame, hframe, hsuffix⟩ := h.offers offered hbefore
    have hgrown : (w.perform op).toDesk.Extends w.accepted :=
      (Desk.kept_extends _).perform (fun _ b hd => hd.classified b) op (.refl hsound)
    exact ⟨frame, (hgrown.accepted.drop _).subset hframe, hsuffix⟩
  · -- the frame of the write is outstanding at `x`, and the drain strikes nothing from the journal
    obtain ⟨hpending, hperform, -⟩ := perform_of_beforeWrite hx
    obtain ⟨frame, hp⟩ := Option.ne_none_iff_exists'.1 hpending
    have hsince : x.toDesk.Since before :=
      kept_beforeWrite (Desk.kept_since before) (fun _ b hd => hd.classified b) hx h.since
    have hgrown : x.drain.2.toDesk.Extends x.accepted :=
      (Desk.kept_extends _).drain (.refl hsince.sound)
    rw [hperform]
    refine ⟨frame, (hgrown.accepted.drop _).subset (hsince.mem hp), ?_⟩
    rw [Outbox.unsent_of_some hp]
    exact List.drop_suffix _ _

/-- Whatever is done with a connection, what it writes is of frames accepted since. -/
theorem performAll_offers {before : List Frame} {c : Connection τ σ} (h : c.toDesk.Since before)
    (ops : List (Operation σ)) (offered : List UInt8)
    (hoffered : .write offered ∈ (c.watched.performAll ops).line.calls) :
    ∃ frame ∈ (c.performAll ops).accepted.drop before.length, offered <:+ frame := by
  have hwatched : c.watched.OffersSince before := ⟨h, nofun⟩
  have hrun := performAll_keeps (P := fun w : Connection (Line.Watched τ) σ => w.OffersSince before)
    (fun _ op hw => hw.perform op) ops _ hwatched
  have hview : c.performAll ops = (c.watched.performAll ops).viewed Line.Watched.line :=
    performAll_viewed Line.Watched.view c.watched ops
  rw [hview]
  exact hrun.offers offered hoffered

/-! ## The slot up to the next write -/

/-- Over operations to come, the first one that changes the slot writes these bytes. -/
def Resumes (offer : List UInt8) : Connection τ σ → List (Operation σ) → Prop
  | _, [] => True
  | c, op :: rest =>
    let c' := c.perform op
    if c'.outbox.pending = c.outbox.pending ∧ c'.outbox.sent = c.outbox.sent then
      Resumes offer c' rest
    else .write offer ∈ c.asked op

/-- An operation leaves a taken slot alone, unless it writes. -/
theorem perform_slot {c : Connection τ σ} (pending : c.outbox.pending ≠ none) (op : Operation σ) :
    ((c.perform op).outbox.pending = c.outbox.pending ∧
      (c.perform op).outbox.sent = c.outbox.sent) ∨ .write c.outbox.unsent ∈ c.asked op := by
  obtain ⟨frame, hp⟩ := Option.ne_none_iff_exists'.1 pending
  cases op with
  | submit mode f =>
    left
    show (c.submit mode f).2.outbox.pending = _ ∧ (c.submit mode f).2.outbox.sent = _
    simp only [submit, Desk.submit_taken mode f hp, Desk.outbox_note, and_self]
  | feed b =>
    left
    obtain ⟨hpending, hsent, -⟩ :=
      ((Desk.Filled.refl c.toDesk).hear b c.reactions).of_some hp
    show (c.feed b).2.outbox.pending = _ ∧ (c.feed b).2.outbox.sent = _
    rw [feed_eq]
    exact ⟨hpending.trans hp.symm, hsent⟩
  | drain => exact .inr (write_mem_asked.2 ⟨c, if_pos (Outbox.isPending_of_some hp), rfl⟩)
  | tick found =>
    cases hwrites : c.writes found with
    | true =>
      right
      refine write_mem_asked.2 ⟨c.poised found, if_pos hwrites, ?_⟩
      rw [toDesk_poised, unsent_reception found pending]
    | false =>
      left
      show (c.tick found).2.outbox.pending = _ ∧ (c.tick found).2.outbox.sent = _
      rw [tick_of_not_writes hwrites, toDesk_poised]
      exact reception_of_pending found pending
  | setReactions | setHost => exact .inl ⟨rfl, rfl⟩

/-- A frame in the slot stays there until a write goes on from the very byte where it stands. -/
theorem resumes {c : Connection τ σ} (pending : c.outbox.pending ≠ none) (ops : List (Operation σ)) :
    c.Resumes c.outbox.unsent ops := by
  induction ops generalizing c with
  | nil => trivial
  | cons op rest ih =>
    -- as long as the slot stays, so does what is unsent of it
    unfold Resumes
    dsimp only
    split
    · rename_i hslot
      rw [← Outbox.unsent_congr hslot.1 hslot.2]
      exact ih (by rw [hslot.1]; exact pending)
    · rename_i hslot
      exact (perform_slot pending op).resolve_left hslot

theorem resumes_of_outbox {c x : Connection τ σ} (same : c.outbox = x.outbox)
    (pending : x.outbox.pending ≠ none) (ops : List (Operation σ)) :
    c.Resumes x.outbox.unsent ops := by
  rw [← same] at pending ⊢
  exact resumes pending ops

/-! ## Failed reactions to a release -/

/-- The frame outstanding at `x` is done with in `c`. -/
structure Discharged (frame : Frame) (x c : Connection τ σ) : Prop where
  outstanding : x.outbox.pending = some frame
  last : x.accepted.getLast? = some frame
  released : x.journal ++ [.released frame] <+: c.journal
  transmitted : c.transmitted = x.transmitted + UInt64.ofNat (frame.length - x.outbox.sent)
  /-- The slot is free, or holds a frame that came after it, all still to be written. -/
  slot : ∀ next, c.outbox.pending = some next →
    c.outbox.sent = 0 ∧ c.accepted = x.accepted ++ [next]
  /-- Whatever is done from here on, only frames that came after it are written. -/
  never : ∀ ops offered, .write offered ∈ (c.watched.performAll ops).line.calls →
    ∃ later ∈ (c.performAll ops).accepted.drop x.accepted.length, offered <:+ later

/-- A reaction fails in a drain only after the release of the frame. -/
theorem discharged_of_abort {x : Connection τ σ} (h : x.toDesk.Since []) {occasion : Occasion}
    {fault : Fault} (new : (occasion, fault) ∈ x.drain.2.aborts.drop x.aborts.length) :
    x.drain.1 = .error fault ∧ x.drain.2.toDesk.Aborted x.reactions occasion fault ∧
      ∃ frame, Discharged frame x x.drain.2 := by
  have hdraining := draining h.sound.unfinished
  generalize x.drain.1 = result, x.drain.2 = c at hdraining new ⊢
  cases hdraining with
  | idle | failed | partly =>
    have hnone : (occasion, fault) ∈ x.aborts.drop x.aborts.length := new
    rw [List.drop_length] at hnone
    cases hnone
  | @last frame n pending took _ rest =>
    have haccepted : (x.toDesk.released frame).accepted = x.accepted :=
      (Desk.accepted_note _ _).trans (List.append_nil _)
    have hjournal : (x.toDesk.released frame).journal = x.journal ++ [.released frame] :=
      Desk.journal_note _ _
    -- the release leaves the slot free, so what comes into it afterwards is a later frame
    have hfree : (x.toDesk.released frame).Since x.accepted := by
      rw [← haccepted]
      exact .of_free (Desk.kept_sound.released _ frame h.sound pending) rfl
    have hreports := (x.toDesk.released frame).reports_react .drained x.reactions
    rw [← Desk.aborts_released frame] at new
    obtain ⟨-, hfault, hleft⟩ := hreports.of_mem new
    refine ⟨by rw [hfault]; rfl, hleft, frame, ?_⟩
    refine ⟨pending, (h.latest frame pending).2, ?_, rfl, fun next hnext => ?_, fun ops offered => ?_⟩
    · rw [← hjournal]
      exact Desk.isPrefix_journal_react .drained x.reactions _
    · have hfilled := (Desk.Filled.refl (x.toDesk.released frame)).react .drained x.reactions
      obtain ⟨hsent, -, hlater⟩ := hfilled.of_none rfl hnext
      exact ⟨hsent, hlater.trans (by rw [haccepted])⟩
    · exact performAll_offers ((Desk.kept_since _).react .drained x.reactions hfree) ops offered

/-! ## What fails an operation -/

theorem aborts_reading (b : UInt8) (c : Connection τ σ) : (c.reading b).aborts = c.aborts :=
  Desk.aborts_note_of_silent rfl _

/-- A reception reports the reaction to its byte. -/
theorem reports_reception (found : Readiness) (c : Connection τ σ) :
    Desk.Reports (· ≠ .drained) c.reactions c.toDesk (c.reception found).1
      (c.reception found).2.toDesk := by
  cases hb : c.incoming found with
  | none =>
    rcases reception_of_silent hb with hr | ⟨hreadable, hnothing⟩
    · rw [hr]
      exact .none rfl
    · obtain ⟨reason, hr⟩ := reception_of_unread hreadable hnothing
      rw [hr]
      exact .none rfl
  | some b =>
    have hread := c.aborts_reading b
    rw [reception_of_incoming hb, feed_eq]
    cases (c.reading b).toDesk.reports_hear b (c.reading b).reactions with
    | none same => exact .none (same.trans hread)
    | one on failed more left => exact .one on failed (hread ▸ more) left

/-- Where a tick comes to its write, no reaction has failed in it. -/
theorem aborts_poised {found : Readiness} {c : Connection τ σ} (h : c.writes found = true) :
    (c.poised found).aborts = c.aborts := by
  rw [toDesk_poised]
  exact (c.reports_reception found).of_ok (writes_iff.1 h).1

/-- The fault of a reaction that fails in an operation is the operation's, which ends with it. -/
theorem result_of_abort {c : Connection τ σ} (h : c.toDesk.Since []) {op : Operation σ}
    {occasion : Occasion} {fault : Fault}
    (new : (occasion, fault) ∈ (c.perform op).aborts.drop c.aborts.length) :
    c.result op = .error fault ∧ (c.perform op).toDesk.Aborted c.reactions occasion fault ∧
      (occasion = .drained →
        ∃ x frame, c.beforeWrite op = some x ∧ Discharged frame x (c.perform op)) := by
  have hnone : ∀ d : Desk σ, d.aborts = c.aborts → (occasion, fault) ∉ d.aborts.drop c.aborts.length := by
    intro d hd hmem
    rw [hd, List.drop_length] at hmem
    cases hmem
  cases op with
  | submit mode frame => exact absurd new (hnone _ (Desk.aborts_submit mode frame c.toDesk))
  | feed b =>
    have hreports := c.toDesk.reports_hear b c.reactions
    have hperform : (c.perform (.feed b)).toDesk = (c.toDesk.hear b c.reactions).2 := by
      show (c.feed b).2.toDesk = _
      rw [feed_eq]
    rw [hperform] at new ⊢
    obtain ⟨hoccasion, hfault, hleft⟩ := hreports.of_mem new
    refine ⟨?_, hleft, fun h => absurd h hoccasion⟩
    show (c.feed b).1 = _
    rw [feed_eq]
    exact hfault
  | drain =>
    obtain ⟨hfault, hleft, frame, hframe⟩ := discharged_of_abort h new
    refine ⟨?_, hleft, fun _ =>
      ⟨c, frame, if_pos (Outbox.isPending_of_some hframe.outstanding), hframe⟩⟩
    show c.drain.1.map _ = _
    rw [hfault]
    rfl
  | tick found =>
    have hperform : c.perform (.tick found) = (c.tick found).2 := rfl
    rw [hperform] at new ⊢
    cases hwrites : c.writes found with
    | true =>
      have hx : c.beforeWrite (.tick found) = some (c.poised found) := if_pos hwrites
      have hsince := kept_beforeWrite (Desk.kept_since []) (fun _ b hd => hd.classified b) hx h
      obtain ⟨-, -, hresult⟩ := perform_of_beforeWrite hx
      rw [tick_of_writes hwrites, ← aborts_poised hwrites] at new
      obtain ⟨hfault, hleft, frame, hframe⟩ := discharged_of_abort hsince new
      rw [hresult, hfault, tick_of_writes hwrites]
      exact ⟨rfl, c.reactions_poised found ▸ hleft, fun _ => ⟨_, frame, hx, hframe⟩⟩
    | false =>
      -- nothing was written, so it was the reaction to the byte
      rw [tick_of_not_writes hwrites, toDesk_poised] at new
      obtain ⟨hoccasion, hfault, hleft⟩ := (c.reports_reception found).of_mem new
      refine ⟨congrArg Prod.fst (called_of_error hfault).2, ?_, fun hdrained => absurd hdrained hoccasion⟩
      rw [tick_of_not_writes hwrites, toDesk_poised]
      exact hleft
  | setReactions | setHost => exact absurd new (hnone _ rfl)

/-- What fails a drain is the line, or the reaction to the release. -/
theorem cause_of_drain {x : Connection τ σ} (unfinished : x.outbox.Unfinished) {fault : Fault}
    (h : x.drain.1 = .error fault) :
    (∀ n, (Line.write x.outbox.unsent x.line).1 = .ok n → n = 0) ∨
      (.drained, fault) ∈ x.drain.2.aborts.drop x.aborts.length := by
  have hdraining := draining unfinished
  generalize x.drain.1 = result, x.drain.2 = c at hdraining h ⊢
  cases hdraining with
  | idle | partly => cases h
  | failed pending nothing =>
    left
    rw [Outbox.unsent_of_some pending]
    exact nothing
  | @last frame n pending took _ rest =>
    right
    rw [← Desk.aborts_released frame]
    exact Desk.mem_aborts_react (error_of_map h)

/-- What fails a tick. -/
inductive Cause (found : Readiness) (c : Connection τ σ) (fault : Fault) : Prop where
  | unread (readable : found.isReadable (Line.handle c.line) = true)
      (nothing : ∀ b, (Line.readByte c.line).1 ≠ .ok (some b))
  | unknown {b : UInt8} (byte : c.incoming found = some b)
      (meaningless : (c.outbox.echo.classify b).1 = .error fault)
  | unprobed {e : IoFault} (probes : c.probes found = true)
      (failed : (Line.probe (c.reception found).2.line).1 = .error e)
  | unwritten {x : Connection τ σ} (write : c.beforeWrite (.tick found) = some x)
      (nothing : ∀ n, (Line.write x.outbox.unsent x.line).1 = .ok n → n = 0)
  | aborted {occasion : Occasion}
      (new : (occasion, fault) ∈ (c.tick found).2.aborts.drop c.aborts.length)

/-- Each failure of a tick has its cause. -/
theorem cause_of_tick {found : Readiness} {c : Connection τ σ} {fault : Fault}
    (unfinished : (c.reception found).2.outbox.Unfinished)
    (h : (c.tick found).1 = .error fault) : Cause found c fault := by
  cases hheard : (c.reception found).1 with
  | error e =>
    obtain ⟨-, htick⟩ := called_of_error hheard
    rw [htick] at h
    cases h
    cases hb : c.incoming found with
    | none =>
      rcases reception_of_silent hb with hr | ⟨hreadable, hnothing⟩
      · rw [hr] at hheard
        cases hheard
      · exact .unread hreadable hnothing
    | some b =>
      rw [reception_of_incoming hb, feed_eq] at hheard
      rcases Desk.cause_of_hear hheard with hmeaning | ⟨occasion, hnew⟩
      · exact .unknown hb hmeaning
      · have hmem : (occasion, fault) ∈ (c.tick found).2.aborts.drop c.aborts.length := by
          rw [htick, reception_of_incoming hb, feed_eq, ← c.aborts_reading b]
          exact hnew
        exact .aborted hmem
  | ok _ =>
    cases hwrites : c.writes found with
    | true =>
      have hdrain : (c.poised found).drain.1 = .error fault := by
        rw [tick_of_writes hwrites] at h
        exact error_of_map h
      rcases cause_of_drain (by rw [toDesk_poised]; exact unfinished) hdrain with hnothing | hnew
      · exact .unwritten (if_pos hwrites) hnothing
      · have hmem : (.drained, fault) ∈ (c.tick found).2.aborts.drop c.aborts.length := by
          rw [tick_of_writes hwrites, ← aborts_poised hwrites]
          exact hnew
        exact .aborted hmem
    | false =>
      have hticking := c.ticking found
      generalize hresult : (c.tick found).1 = result, (c.tick found).2 = c' at hticking
      rw [h] at hresult
      cases hticking with
      | unheard failed =>
        rw [hheard] at failed
        cases failed
      | unprobed probes failed => exact .unprobed probes failed
      | quiet => cases hresult
      | wrote writes =>
        rw [hwrites] at writes
        cases writes

/-- What a failure leaves behind of a connection. -/
structure Resilient (c : Connection τ σ) : Prop where
  /-- A refusal is entered in the journal. -/
  refused : ∀ mode frame fault, (c.submit mode frame).1 = .error fault →
    (fault = .alreadyPending ∨ ∃ reason, fault = .invalidFrame reason) ∧
      (c.submit mode frame).2 = { c with toDesk := c.toDesk.note (.refused mode frame) }
  /-- A byte that cannot be read leaves all but the line alone. -/
  unread : ∀ found, found.isReadable (Line.handle c.line) = true →
    (∀ b, (Line.readByte c.line).1 ≠ .ok (some b)) →
      ∃ reason, c.tick found =
        (.error (.readFailed reason), { c with line := (Line.readByte c.line).2 })
  /-- A byte without a meaning is counted, and entered in the journal. -/
  unknown : ∀ found b fault, c.incoming found = some b →
    (c.outbox.echo.classify b).1 = .error fault →
      fault = .unknownOpcode b ∧ c.tick found = (.error fault,
        { c with
          line := (Line.readByte c.line).2
          received := c.received + 1
          history := .heard b (.error fault) :: .read b :: c.history })
  writes : ∀ op offered, .write offered ∈ c.asked op ↔
    ∃ x, c.beforeWrite op = some x ∧ offered = x.outbox.unsent
  /-- A probe that fails leaves all but the line alone, and the frame to a later write. -/
  unprobed : ∀ found e, c.probes found = true →
    (Line.probe (c.reception found).2.line).1 = .error e →
      c.tick found = (.error (.writeFailed e.message),
        { (c.reception found).2 with line := (Line.probe (c.reception found).2.line).2 }) ∧
      ∀ later, (c.tick found).2.Resumes (c.reception found).2.outbox.unsent later
  /-- So does a write that fails, or takes nothing. -/
  unwritten : ∀ op x, c.beforeWrite op = some x →
    (∀ n, (Line.write x.outbox.unsent x.line).1 = .ok n → n = 0) →
      (∃ reason, c.result op = .error (.writeFailed reason)) ∧
      c.perform op = { x with line := (Line.write x.outbox.unsent x.line).2 } ∧
      ∀ later, (c.perform op).Resumes x.outbox.unsent later
  /-- The fault that a reaction gave is what the operation gives, and the desk is as that reaction left
  it; if the reaction was to a release, the frame is done with. -/
  aborted : ∀ op occasion fault,
    (occasion, fault) ∈ (c.perform op).aborts.drop c.aborts.length →
      c.result op = .error fault ∧ (c.perform op).toDesk.Aborted c.reactions occasion fault ∧
        (occasion = .drained →
          ∃ x frame, c.beforeWrite op = some x ∧ Discharged frame x (c.perform op))
  /-- Nothing else fails a tick. -/
  causes : ∀ found fault, (c.tick found).1 = .error fault → Cause found c fault

/-- The frames accepted tell the outstanding one, and nothing more is asked of a connection. -/
theorem Resilient.of_since {c : Connection τ σ} (h : c.toDesk.Since []) : Resilient c where
  refused mode frame fault hrefused := by
    obtain ⟨hfault, hdesk⟩ := Desk.submit_error (d := c.toDesk) hrefused
    refine ⟨hfault, ?_⟩
    rw [← hdesk]
    rfl
  unread found readable nothing := by
    obtain ⟨reason, hr⟩ := reception_of_unread readable nothing
    exact ⟨reason, by rw [tick_eq, hr]⟩
  unknown found b fault hb meaningless := by
    have hhear : (c.reading b).toDesk.hear b (c.reading b).reactions =
        (.error fault, (c.reading b).toDesk.note (.heard b (.error fault))) :=
      Desk.hear_of_error meaningless
    refine ⟨(Echo.of_classify_error meaningless).1, ?_⟩
    rw [tick_of_incoming hb, feed_eq]
    simp only [hhear]
    rfl
  writes op offered := write_mem_asked
  unprobed found e probes failed := by
    rw [tick_of_unprobed probes failed]
    refine ⟨by simp only [poised, probes, if_true], resumes_of_outbox ?_ (probes_iff.1 probes).2.2⟩
    rw [toDesk_poised]
  unwritten op x hx nothing := by
    obtain ⟨hpending, hperform, hresult⟩ := perform_of_beforeWrite hx
    obtain ⟨frame, hp⟩ := Option.ne_none_iff_exists'.1 hpending
    have hunsent := Outbox.unsent_of_some hp
    rw [hunsent] at nothing ⊢
    obtain ⟨reason, hdrain⟩ := drain_failed hp nothing
    rw [hperform, hresult, hdrain, ← hunsent]
    exact ⟨⟨reason, rfl⟩, rfl, resumes_of_outbox rfl hpending⟩
  aborted op occasion fault := result_of_abort h
  causes found fault hfailed := by
    have hsince := (Desk.kept_since []).reception (fun _ b hd => hd.classified b) found h
    exact cause_of_tick hsince.sound.unfinished hfailed

/-- What failures leave behind, after any operations on a fresh connection over any line, whatever the
reactions do. A frame that is refused, the host's or a reaction's, changes nothing but the journal; a
byte that cannot be read, nothing but the line, with no reaction to it; a byte without a meaning is
counted besides, once. After a probe or a write that fails, all but the line is as it was just before
it, with no reaction to it, and what next changes the slot is a write of the same bytes. The fault that
a reaction gave is what the operation gives, which does nothing more; if the reaction was to a release,
the frame is out of the slot and counted, and whatever is done later writes only frames accepted after
it. A tick fails in none but these ways. -/
theorem performAll_resilient (line : τ) (host : σ) (reactions : Reactions σ)
    (ops : List (Operation σ)) :
    Resilient ((Connection.fresh line host reactions).performAll ops) ∧
      ∀ (α : Type) (d : Desk σ) (mode : Mode) (frame : Frame)
        (next : Except Fault Unit → Reaction σ α) (fault : Fault),
        (d.submit mode frame).1 = .error fault →
          (fault = .alreadyPending ∨ ∃ reason, fault = .invalidFrame reason) ∧
          (Reaction.submit mode frame next).run d =
            (next (.error fault)).run (d.note (.refused mode frame)) := by
  have hfresh : (Connection.fresh line host reactions).toDesk.Since [] :=
    ⟨⟨Outbox.Sound.empty, List.nil_prefix⟩, nofun⟩
  have hsince := performAll_keeps (P := fun c : Connection τ σ => c.toDesk.Since [])
    (fun _ op hc => (Desk.kept_since []).perform (fun _ b hd => hd.classified b) op hc) ops _ hfresh
  refine ⟨.of_since hsince, fun α d mode frame next fault hrefused => ?_⟩
  obtain ⟨hfault, hdesk⟩ := Desk.submit_error hrefused
  refine ⟨hfault, ?_⟩
  rw [Reaction.run, ← hdesk, ← hrefused]

end Connection

end Powerline
