/-
The calls that a tick makes on its line: a read if the line was found readable, then a probe if the
byte called for a frame that the wait did not know of, then a write if the line can take it. No
reaction can take a frame out of the slot or put another in its place, so what is written is of
the frame that was outstanding before the tick, or all of the one that the byte called for.
-/
import Powerline.Port.Terminal
import Powerline.Proofs.Slot

namespace Powerline

variable {τ σ : Type}

/-! ## What reactions make of the slot -/

namespace Desk

/-- What submissions make of the slot: it is as it was, or it was free and holds a frame of which
nothing is written. -/
inductive Filled (d d' : Desk σ) : Prop where
  | kept (pending : d'.outbox.pending = d.outbox.pending) (sent : d'.outbox.sent = d.outbox.sent)
      (accepted : d'.accepted = d.accepted)
  | queued {frame : Frame} (free : d.outbox.pending = none)
      (pending : d'.outbox.pending = some frame) (unsent : d'.outbox.sent = 0)
      (accepted : d'.accepted = d.accepted ++ [frame])

namespace Filled

variable {d d' : Desk σ}

theorem refl (d : Desk σ) : Filled d d := .kept rfl rfl rfl

/-- What leaves the outbox's slot and the frames accepted alone. -/
theorem congr {d'' : Desk σ} (h : Filled d d') (pending : d''.outbox.pending = d'.outbox.pending)
    (sent : d''.outbox.sent = d'.outbox.sent) (accepted : d''.accepted = d'.accepted) :
    Filled d d'' := by
  cases h with
  | kept hp hs ha => exact .kept (pending.trans hp) (sent.trans hs) (accepted.trans ha)
  | queued free hp hs ha => exact .queued free (pending.trans hp) (sent.trans hs) (accepted.trans ha)

theorem note (h : Filled d d') (event : Event) (silent : event.accepted? = none) :
    Filled d (d'.note event) := by
  refine h.congr rfl rfl ?_
  rw [accepted_note, silent]
  exact List.append_nil _

theorem submit (h : Filled d d') (mode : Mode) (frame : Frame) :
    Filled d (d'.submit mode frame).2 := by
  rcases d'.submit_cases mode frame with ⟨free, -, hs⟩ | ⟨fault, hs⟩ <;> rw [hs]
  · -- the slot is free after all that was done, so nothing was queued before
    cases h with
    | kept hp hsent ha =>
      refine .queued (hp.symm.trans free) rfl rfl ?_
      rw [accepted_queue, ha]
    | queued _ hp _ _ =>
      rw [hp] at free
      cases free
  · exact h.note _ rfl

theorem run {α : Type} (h : Filled d d') (r : Reaction σ α) : Filled d (r.run d').2 :=
  r.run_keeps (P := fun d' => Filled d d') (fun _ mode frame h => h.submit mode frame)
    (fun _ _ h => h.congr rfl rfl rfl) d' h

theorem react (h : Filled d d') (occasion : Occasion) (r : Reactions σ) :
    Filled d (d'.react occasion r).2 :=
  ((h.note (.reacted occasion) rfl).run (r.toOccasion occasion)).note _ rfl

theorem hear (h : Filled d d') (b : UInt8) (r : Reactions σ) : Filled d (d'.hear b r).2 := by
  have hclear : Filled d { d' with outbox := { d'.outbox with echo := d'.outbox.echo.clear } } :=
    h.congr rfl rfl rfl
  have hclassified : Filled d (d'.classified b) := hclear.note _ rfl
  unfold Desk.hear
  split
  · exact hclassified
  · exact hclassified.react _ r

/-- A frame that holds the slot keeps it, and its count. -/
theorem of_some (h : Filled d d') {frame : Frame} (hp : d.outbox.pending = some frame) :
    d'.outbox.pending = some frame ∧ d'.outbox.sent = d.outbox.sent ∧ d'.accepted = d.accepted := by
  cases h with
  | kept hp' hs ha => exact ⟨hp'.trans hp, hs, ha⟩
  | queued free =>
    rw [hp] at free
    cases free

/-- A frame that comes into the free slot is the one accepted since, and is all still to be written. -/
theorem of_none (h : Filled d d') (free : d.outbox.pending = none) {frame : Frame}
    (hp : d'.outbox.pending = some frame) :
    d'.outbox.sent = 0 ∧ d'.outbox.unsent = frame ∧ d'.accepted = d.accepted ++ [frame] := by
  cases h with
  | kept hp' =>
    rw [hp', free] at hp
    cases hp
  | queued _ hp' hs ha =>
    obtain rfl := Option.some.inj (hp.symm.trans hp')
    refine ⟨hs, ?_, ha⟩
    rw [Outbox.unsent_of_some hp, hs]
    rfl

/-- A frame accepted since holds the slot and is all still to be written. -/
theorem of_mem (h : Filled d d') {frame : Frame}
    (new : frame ∈ d'.accepted.drop d.accepted.length) :
    d'.outbox.pending = some frame ∧ d'.outbox.sent = 0 := by
  cases h with
  | kept _ _ ha =>
    rw [ha, List.drop_length] at new
    cases new
  | queued _ hp hs ha =>
    rw [ha, List.drop_left] at new
    obtain rfl := List.mem_singleton.1 new
    exact ⟨hp, hs⟩

end Filled

end Desk

namespace Connection

variable [Line τ]

/-- The byte of a tick leaves the slot alone, or fills it if it is free. -/
theorem reception_filled (found : Readiness) (c : Connection τ σ) :
    Desk.Filled c.toDesk (c.reception found).2.toDesk :=
  reception_desk (P := Desk.Filled c.toDesk) found (.refl _) fun b =>
    ((Desk.Filled.refl c.toDesk).note (.read b) rfl).hear b c.reactions

/-- A drain accepts no frame, but for one that the reaction to a release queues; of that one nothing
is written. -/
theorem new_of_drain {c : Connection τ σ} (unfinished : c.outbox.Unfinished) {frame : Frame}
    (new : frame ∈ c.drain.2.accepted.drop c.accepted.length) :
    c.drain.2.outbox.pending = some frame ∧ c.drain.2.outbox.sent = 0 := by
  have hdraining := draining unfinished
  generalize c.drain.1 = result, c.drain.2 = c' at hdraining new ⊢
  cases hdraining with
  | @last f n pending took _ rest =>
    have hfilled := (Desk.Filled.refl (c.toDesk.released f)).react .drained c.reactions
    have hcount : (c.toDesk.released f).accepted = c.accepted := by
      rw [Desk.released, Desk.accepted_note]
      exact List.append_nil _
    exact hfilled.of_mem (hcount ▸ new)
  | idle | failed | partly =>
    have hnone : frame ∈ c.accepted.drop c.accepted.length := new
    rw [List.drop_length] at hnone
    cases hnone

/-! ## The calls of a tick -/

/-- Whether a tick probes the line: the byte was heard without a failure and called for a frame, while
none was outstanding when the tick began. -/
def probes (found : Readiness) (c : Connection τ σ) : Bool :=
  (c.reception found).1.isOk && !c.outbox.isPending && (c.reception found).2.outbox.isPending

/-- Whether the line, when it is probed, says that it can be written. -/
def frees (line : τ) : Bool :=
  match (Line.probe line).1 with
  | .ok free => free
  | .error _ => false

/-- Whether a tick writes: the byte was heard without a failure, and the wait found the line writable
if a frame was outstanding, or the probe does. -/
def writes (found : Readiness) (c : Connection τ σ) : Bool :=
  (c.reception found).1.isOk &&
    if c.outbox.isPending then found.isWritable (Line.handle c.line)
    else c.probes found && frees (c.reception found).2.line

/-- The connection when a tick comes to its write: the byte is heard, and the line probed if need be. -/
def poised (found : Readiness) (c : Connection τ σ) : Connection τ σ :=
  let heard := (c.reception found).2
  if c.probes found then { heard with line := (Line.probe heard.line).2 } else heard

/-- The connection over its line under watch. -/
def watched (c : Connection τ σ) : Connection (Line.Watched τ) σ := c.viewed (Line.Watched.mk · [])

/-- The calls that a tick makes on the line, in order, as a watch on the line tells. -/
def called (found : Readiness) (c : Connection τ σ) : List Line.Call :=
  (c.watched.tick found).2.line.calls.reverse

/-! ## When each call is made -/

section
variable {found : Readiness} {c : Connection τ σ}

theorem probes_iff : c.probes found = true ↔ (c.reception found).1 = .ok () ∧
    c.outbox.pending = none ∧ (c.reception found).2.outbox.pending ≠ none := by
  rcases hr : c.reception found with ⟨fault | _, after⟩
  · simp [probes, hr, Except.isOk, Except.toBool]
  · simp [probes, hr, Except.isOk, Except.toBool, Outbox.isPending, Option.isSome_iff_ne_none]

theorem frees_iff {line : τ} : frees line = true ↔ (Line.probe line).1 = .ok true := by
  unfold frees
  rcases (Line.probe line).1 with e | free <;> simp

theorem writes_iff : c.writes found = true ↔ (c.reception found).1 = .ok () ∧
    (c.outbox.pending ≠ none ∧ found.isWritable (Line.handle c.line) = true ∨
      c.probes found = true ∧ (Line.probe (c.reception found).2.line).1 = .ok true) := by
  rcases hr : c.reception found with ⟨fault | _, after⟩
  · simp [writes, hr, Except.isOk, Except.toBool]
  · cases hp : c.outbox.pending with
    | none =>
      simp [writes, hr, hp, Except.isOk, Except.toBool, Outbox.isPending, frees_iff]
    | some frame =>
      have hprobes : c.probes found = false := by simp [probes, Outbox.isPending, hp]
      simp [writes, hr, hp, hprobes, Except.isOk, Except.toBool, Outbox.isPending]

/-- After a failure nothing more is asked of the line. -/
theorem idle_of_unheard {fault : Fault} (h : (c.reception found).1 = .error fault) :
    c.probes found = false ∧ c.writes found = false := by
  simp [probes, writes, h, Except.isOk, Except.toBool]

@[simp] theorem toDesk_poised : (c.poised found).toDesk = (c.reception found).2.toDesk := by
  unfold poised
  dsimp only
  split <;> rfl

theorem reactions_poised (found : Readiness) (c : Connection τ σ) :
    (c.poised found).reactions = c.reactions := by
  have hreception := c.reactions_reception found
  unfold poised
  dsimp only
  split <;> exact hreception

/-- No reaction to the byte touches the frame that was outstanding. -/
theorem reception_of_pending (found : Readiness) (h : c.outbox.pending ≠ none) :
    (c.reception found).2.outbox.pending = c.outbox.pending ∧
      (c.reception found).2.outbox.sent = c.outbox.sent := by
  obtain ⟨frame, hp⟩ := Option.ne_none_iff_exists'.1 h
  obtain ⟨hpending, hsent, -⟩ := (c.reception_filled found).of_some hp
  exact ⟨hpending.trans hp.symm, hsent⟩

theorem unsent_reception (found : Readiness) (h : c.outbox.pending ≠ none) :
    (c.reception found).2.outbox.unsent = c.outbox.unsent := by
  obtain ⟨hpending, hsent⟩ := reception_of_pending found h
  exact Outbox.unsent_congr hpending hsent

/-- There is a frame to write where a tick writes. -/
theorem pending_of_writes (h : c.writes found = true) :
    (c.reception found).2.outbox.pending ≠ none := by
  rcases (writes_iff.1 h).2 with ⟨pending, -⟩ | ⟨probes, -⟩
  · rw [(reception_of_pending found pending).1]
    exact pending
  · exact (probes_iff.1 probes).2.2

/-- What a tick does: the result, and the connection after it. It ends with the byte, with a probe
that fails, without a write, or with one. -/
inductive Ticking (found : Readiness) (c : Connection τ σ) :
    Except Fault Unit → Connection τ σ → Prop where
  | unheard {fault : Fault} (failed : (c.reception found).1 = .error fault) :
      Ticking found c (.error fault) (c.reception found).2
  | unprobed {e : IoFault} (probes : c.probes found = true)
      (failed : (Line.probe (c.reception found).2.line).1 = .error e) :
      Ticking found c (.error (.writeFailed e.message)) (c.poised found)
  | quiet (heard : (c.reception found).1 = .ok ()) (idle : c.writes found = false)
      (probed : c.probes found = true → (Line.probe (c.reception found).2.line).1 = .ok false) :
      Ticking found c (.ok ()) (c.poised found)
  | wrote (writes : c.writes found = true) :
      Ticking found c ((c.poised found).drain.1.map fun _ => ()) (c.poised found).drain.2

/-- A transmission that is up to `writable` alone. -/
theorem ticking_drainIf (writable : Bool) (heard : (c.reception found).1 = .ok ())
    (h : c.writes found = writable)
    (probed : c.probes found = true → (Line.probe (c.reception found).2.line).1 = .ok writable) :
    Ticking found c ((c.poised found).drainIf writable).1 ((c.poised found).drainIf writable).2 := by
  cases writable with
  | true => exact .wrote h
  | false => exact .quiet heard h probed

theorem ticking (found : Readiness) (c : Connection τ σ) :
    Ticking found c (c.tick found).1 (c.tick found).2 := by
  rw [tick_eq]
  rcases hr : c.reception found with ⟨fault | _, after⟩
  · have hunheard : Ticking found c (.error fault) (c.reception found).2 := .unheard (by rw [hr])
    rwa [hr] at hunheard
  have heard : (c.reception found).1 = .ok () := by rw [hr]
  cases hp : c.outbox.isPending with
  | true =>
    -- the wait knew of the frame, and the byte has not changed that
    have hprobes : c.probes found = false := by simp [probes, hp]
    have hpoised : c.poised found = after := by simp [poised, hprobes, hr]
    have hwrites : c.writes found = found.isWritable (Line.handle c.line) := by
      simp [writes, hr, hp, Except.isOk, Except.toBool]
    obtain ⟨hpending, -⟩ := reception_of_pending found (Option.isSome_iff_ne_none.1 hp)
    have hafter : after.outbox.isPending = true := by
      rw [Outbox.isPending, ← hp, Outbox.isPending, ← hpending, hr]
    have hticking := ticking_drainIf _ heard hwrites fun h => absurd h (by simp [hprobes])
    rw [hpoised] at hticking
    simpa only [transmit, hafter, Bool.not_true, Bool.false_eq_true, if_false, if_true] using hticking
  | false =>
    cases hq : after.outbox.isPending with
    | false =>
      have hprobes : c.probes found = false := by simp [probes, hq, hr]
      have hpoised : c.poised found = after := by simp [poised, hprobes, hr]
      have hwrites : c.writes found = false := by simp [writes, hprobes, hp]
      have hticking := Ticking.quiet heard hwrites fun h => absurd h (by simp [hprobes])
      rw [hpoised] at hticking
      simpa only [transmit, hq, Bool.not_false, if_true] using hticking
    | true =>
      have hprobes : c.probes found = true := by
        simp [probes, hr, hp, hq, Except.isOk, Except.toBool]
      have hpoised : c.poised found = { after with line := (Line.probe after.line).2 } := by
        simp [poised, hprobes, hr]
      rcases hprobe : Line.probe after.line with ⟨e | free, line⟩ <;> rw [hprobe] at hpoised
      · have hticking := Ticking.unprobed (e := e) hprobes (by rw [hr, hprobe])
        rw [hpoised] at hticking
        simpa only [transmit, hq, hprobe, Bool.not_true, Bool.false_eq_true, if_false] using hticking
      · have hwrites : c.writes found = free := by
          simp [writes, hprobes, frees, hr, hp, hprobe, Except.isOk, Except.toBool]
        have hticking := ticking_drainIf free heard hwrites fun _ => by rw [hr, hprobe]
        rw [hpoised] at hticking
        simpa only [transmit, hq, hprobe, Bool.not_true, Bool.false_eq_true, if_false] using hticking

/-- A probe that fails leaves the frame unwritten. -/
theorem idle_of_unprobed {e : IoFault} (probes : c.probes found = true)
    (failed : (Line.probe (c.reception found).2.line).1 = .error e) : c.writes found = false := by
  by_contra hwrites
  rcases (writes_iff.1 (by simpa using hwrites)).2 with ⟨pending, -⟩ | ⟨-, free⟩
  · exact pending (probes_iff.1 probes).2.1
  · rw [free] at failed
    cases failed

theorem tick_of_writes (h : c.writes found = true) :
    c.tick found = ((c.poised found).drain.1.map fun _ => (), (c.poised found).drain.2) := by
  obtain ⟨heard, -⟩ := writes_iff.1 h
  have hticking := c.ticking found
  rw [← Prod.mk.eta (p := c.tick found)]
  generalize (c.tick found).1 = result, (c.tick found).2 = c' at hticking ⊢
  cases hticking with
  | unheard failed =>
    rw [heard] at failed
    cases failed
  | unprobed probes failed =>
    rw [idle_of_unprobed probes failed] at h
    cases h
  | quiet heard idle =>
    rw [h] at idle
    cases idle
  | wrote writes => rfl

theorem tick_of_unprobed {e : IoFault} (probes : c.probes found = true)
    (failed : (Line.probe (c.reception found).2.line).1 = .error e) :
    c.tick found = (.error (.writeFailed e.message), c.poised found) := by
  obtain ⟨hheard, -, -⟩ := probes_iff.1 probes
  have hticking := c.ticking found
  rw [← Prod.mk.eta (p := c.tick found)]
  generalize (c.tick found).1 = result, (c.tick found).2 = c' at hticking ⊢
  cases hticking with
  | unheard unheard =>
    rw [hheard] at unheard
    cases unheard
  | unprobed _ failed' =>
    rw [failed] at failed'
    cases failed'
    rfl
  | quiet _ _ probed =>
    rw [probed probes] at failed
    cases failed
  | wrote writes =>
    rw [idle_of_unprobed probes failed] at writes
    cases writes

theorem tick_of_not_writes (h : c.writes found = false) : (c.tick found).2 = c.poised found := by
  have hticking := c.ticking found
  generalize (c.tick found).1 = result, (c.tick found).2 = c' at hticking ⊢
  cases hticking with
  | unheard failed =>
    simp [poised, (idle_of_unheard failed).1]
  | unprobed | quiet => rfl
  | wrote writes =>
    rw [h] at writes
    cases writes

end

/-! ## Over lines that do the same -/

section
variable {υ : Type} [Line υ] {view : τ → υ} (same : Line.View view) (found : Readiness)
  (c : Connection τ σ)

include same

theorem probes_viewed : (c.viewed view).probes found = c.probes found := by
  simp only [probes, reception_viewed same]
  rfl

theorem frees_viewed (line : τ) : frees (view line) = frees line := by
  rw [frees, same.probe, frees]
  rfl

theorem writes_viewed : (c.viewed view).writes found = c.writes found := by
  have hhandle : Line.handle (c.viewed view).line = Line.handle c.line := same.handle c.line
  have hfrees := frees_viewed same (c.reception found).2.line
  simp only [writes, probes_viewed same, reception_viewed same, hhandle]
  rw [← hfrees]
  rfl

theorem poised_viewed : (c.viewed view).poised found = (c.poised found).viewed view := by
  have hprobe := congrArg Prod.snd (same.probe (c.reception found).2.line)
  simp only [poised, probes_viewed same, reception_viewed same, Prod.map_snd]
  split
  · simp only [viewed, hprobe, Prod.map_snd]
  · rfl

end

/-! ## Under watch -/

section
variable (w : Connection (Line.Watched τ) σ)

theorem calls_reception (found : Readiness) :
    (w.reception found).2.line.calls =
      (if found.isReadable (Line.handle w.line) then [.readByte] else []) ++ w.line.calls := by
  unfold reception receive
  split
  · rcases hr : Line.readByte w.line.line with ⟨e | _ | b, line⟩ <;>
      simp only [Line.readByte, hr]
    · rfl
    · rfl
    · rw [feed_eq]
      rfl
  · rfl

theorem calls_poised (found : Readiness) :
    (w.poised found).line.calls =
      (if w.probes found then [.probe] else []) ++ (w.reception found).2.line.calls := by
  unfold poised
  dsimp only
  split <;> rfl

theorem calls_drain {w : Connection (Line.Watched τ) σ} (pending : w.outbox.pending ≠ none) :
    w.drain.2.line.calls = .write w.outbox.unsent :: w.line.calls := by
  have hpending : w.outbox.isPending = true := Option.isSome_iff_ne_none.2 pending
  rw [line_drain, Outbox.calls_drain, if_pos hpending]

/-- The calls of a tick under watch, newest first. -/
theorem calls_tick (found : Readiness) :
    (w.tick found).2.line.calls =
      (if w.writes found then [.write (w.reception found).2.outbox.unsent] else []) ++
        ((if w.probes found then [.probe] else []) ++
          ((if found.isReadable (Line.handle w.line) then [.readByte] else []) ++ w.line.calls)) := by
  rw [← calls_reception, ← calls_poised]
  cases hwrites : w.writes found with
  | true =>
    have hpending := pending_of_writes hwrites
    rw [← toDesk_poised] at hpending ⊢
    rw [tick_of_writes hwrites, calls_drain hpending]
    rfl
  | false =>
    rw [tick_of_not_writes hwrites]
    rfl

end

/-- The calls of a tick, each made if it has to be. -/
theorem called_eq (found : Readiness) (c : Connection τ σ) :
    c.called found =
      (if found.isReadable (Line.handle c.line) then [.readByte] else []) ++
        ((if c.probes found then [.probe] else []) ++
          if c.writes found then [.write (c.reception found).2.outbox.unsent] else []) := by
  have hprobes : c.probes found = c.watched.probes found :=
    probes_viewed Line.Watched.view found c.watched
  have hwrites : c.writes found = c.watched.writes found :=
    writes_viewed Line.Watched.view found c.watched
  have hunsent : (c.reception found).2.outbox = (c.watched.reception found).2.outbox :=
    congrArg (·.2.outbox) (reception_viewed Line.Watched.view c.watched found)
  have hnone : c.watched.line.calls = [] := rfl
  have hhandle : Line.handle c.watched.line = Line.handle c.line := rfl
  rw [called, calls_tick, hprobes, hwrites, hunsent, hnone, hhandle]
  simp only [List.append_nil, List.reverse_append, apply_ite List.reverse, List.reverse_singleton,
    List.reverse_nil, List.append_assoc]

/-! ## What the calls tell -/

section
variable {found : Readiness} {c : Connection τ σ}

/-- Without a byte no frame comes up. -/
theorem readable_of_probes (h : c.probes found = true) :
    found.isReadable (Line.handle c.line) = true := by
  by_contra hreadable
  obtain ⟨-, free, pending⟩ := probes_iff.1 h
  rw [reception, if_neg hreadable] at pending
  exact pending free

theorem readByte_mem_called : .readByte ∈ c.called found ↔
    found.isReadable (Line.handle c.line) = true := by
  rw [called_eq]
  cases found.isReadable (Line.handle c.line) <;> cases c.probes found <;>
    cases c.writes found <;> simp

theorem probe_mem_called : .probe ∈ c.called found ↔ c.probes found = true := by
  rw [called_eq]
  cases found.isReadable (Line.handle c.line) <;> cases c.probes found <;>
    cases c.writes found <;> simp

theorem write_mem_called {offered : List UInt8} : .write offered ∈ c.called found ↔
    offered = (c.reception found).2.outbox.unsent ∧ c.writes found = true := by
  rw [called_eq]
  cases found.isReadable (Line.handle c.line) <;> cases c.probes found <;>
    cases c.writes found <;> simp

theorem called_of_error {fault : Fault} (h : (c.reception found).1 = .error fault) :
    c.called found = [.readByte] ∧ c.tick found = (.error fault, (c.reception found).2) := by
  obtain ⟨hprobes, hwrites⟩ := idle_of_unheard h
  -- a failure came of a byte, so one was read
  have hreadable : found.isReadable (Line.handle c.line) = true := by
    by_contra hreadable
    rw [reception, if_neg hreadable] at h
    cases h
  refine ⟨by simp [called_eq, hprobes, hwrites, hreadable], ?_⟩
  rw [tick_eq]
  rcases hr : c.reception found with ⟨e | _, after⟩ <;> rw [hr] at h <;> cases h
  rfl

/-- The calls come in one of six sequences. -/
theorem called_cases (found : Readiness) (c : Connection τ σ) :
    let offer := (c.reception found).2.outbox.unsent
    c.called found ∈ [[], [.readByte], [.write offer], [.readByte, .write offer],
      [.readByte, .probe], [.readByte, .probe, .write offer]] := by
  intro offer
  rw [called_eq]
  cases hprobes : c.probes found with
  | true =>
    rw [readable_of_probes hprobes]
    cases c.writes found <;> simp [offer]
  | false =>
    cases found.isReadable (Line.handle c.line) <;> cases c.writes found <;> simp [offer]

/-- A poll that is answered at once takes all three calls. -/
example :
    let reactions : Reactions Unit := { interfacePoll := .send .plain [0xC3] }
    let t : Terminal := { inbound := [0x5A] }
    (Connection.fresh t () reactions).called (Readiness.none.markReadable 3) =
      [.readByte, .probe, .write [0xC3]] := by
  decide

/-- A frame accepted after the byte was heard is the reaction's to a release; nothing of it is
written. -/
theorem new_of_tick (unfinished : (c.reception found).2.outbox.Unfinished) {frame : Frame}
    (new : frame ∈ (c.tick found).2.accepted.drop (c.reception found).2.accepted.length) :
    (c.tick found).2.outbox.pending = some frame ∧ (c.tick found).2.outbox.sent = 0 := by
  rw [← toDesk_poised] at unfinished new
  cases hwrites : c.writes found with
  | true =>
    rw [tick_of_writes hwrites] at new ⊢
    exact new_of_drain unfinished new
  | false =>
    rw [tick_of_not_writes hwrites, List.drop_length] at new
    cases new

/-- If probes always say no, what is written was outstanding when the tick began. -/
theorem pending_of_deferred (deferred : ∀ line : τ, (Line.probe line).1 = .ok false)
    (h : c.writes found = true) : c.outbox.pending ≠ none := by
  rcases (writes_iff.1 h).2 with ⟨pending, -⟩ | ⟨-, free⟩
  · exact pending
  · rw [deferred] at free
    cases free

/-- If probes always say no, nothing is written in a tick of a frame accepted in it. -/
theorem new_of_deferred (deferred : ∀ line : τ, (Line.probe line).1 = .ok false)
    (unfinished : (c.reception found).2.outbox.Unfinished) {frame : Frame}
    (new : frame ∈ (c.tick found).2.accepted.drop c.accepted.length) :
    (c.tick found).2.outbox.pending = some frame ∧ (c.tick found).2.outbox.sent = 0 := by
  have hfilled := c.reception_filled found
  cases hp : c.outbox.pending with
  | some before =>
    -- the byte brought no frame in, so this one came with the release
    rw [← (hfilled.of_some hp).2.2] at new
    exact new_of_tick unfinished new
  | none =>
    have hwrites : c.writes found = false := by
      by_contra hwrites
      exact pending_of_deferred deferred (by simpa using hwrites) hp
    rw [tick_of_not_writes hwrites, toDesk_poised] at new ⊢
    exact hfilled.of_mem new

end

/-- Watching a tick changes nothing in it. -/
theorem viewed_watched (found : Readiness) (c : Connection τ σ) :
    (c.watched.tick found).2.viewed Line.Watched.line = (c.tick found).2 :=
  (congrArg Prod.snd (tick_viewed Line.Watched.view c.watched found)).symm

/-- The manners of a tick on a finding: which calls it makes on its line, in which order, and what it
offers in a write. -/
structure Mannered (found : Readiness) (c : Connection τ σ) : Prop where
  /-- The watch that tells of the calls changes nothing. -/
  watched : (c.watched.tick found).2.viewed Line.Watched.line = (c.tick found).2
  order : c.called found ∈ [[], [.readByte], [.write (c.reception found).2.outbox.unsent],
    [.readByte, .write (c.reception found).2.outbox.unsent], [.readByte, .probe],
    [.readByte, .probe, .write (c.reception found).2.outbox.unsent]]
  reads : .readByte ∈ c.called found ↔ found.isReadable (Line.handle c.line) = true
  probes : .probe ∈ c.called found ↔ (c.reception found).1 = .ok () ∧
    c.outbox.pending = none ∧ (c.reception found).2.outbox.pending ≠ none
  writes : ∀ offered, .write offered ∈ c.called found ↔
    offered = (c.reception found).2.outbox.unsent ∧ (c.reception found).1 = .ok () ∧
      (c.outbox.pending ≠ none ∧ found.isWritable (Line.handle c.line) = true ∨
        .probe ∈ c.called found ∧ (Line.probe (c.reception found).2.line).1 = .ok true)
  /-- No reaction to the byte touches the frame that was outstanding. -/
  same : c.outbox.pending ≠ none → (c.reception found).2.outbox.pending = c.outbox.pending ∧
    (c.reception found).2.outbox.unsent = c.outbox.unsent
  /-- What is written after a probe is all of the frame that was queued for the byte. -/
  whole : .probe ∈ c.called found →
    (c.reception found).2.outbox.pending = some (c.reception found).2.outbox.unsent ∧
      (c.reception found).2.accepted = c.accepted ++ [(c.reception found).2.outbox.unsent]
  /-- The byte fails by a failed read, by having no meaning, or by a failed reaction to it. -/
  fails : ∀ fault, (c.reception found).1 = .error fault ↔ Unheard found c fault
  /-- Such a failure ends the tick. -/
  ended : ∀ fault, (c.reception found).1 = .error fault →
    c.called found = [.readByte] ∧ c.tick found = (.error fault, (c.reception found).2)
  /-- What the reaction to a release queues is not written in the same tick. -/
  later : ∀ frame ∈ (c.tick found).2.accepted.drop (c.reception found).2.accepted.length,
    (c.tick found).2.outbox.pending = some frame ∧ (c.tick found).2.outbox.sent = 0
  /-- Over a line that cannot be probed, nothing is written that was queued in the same tick. -/
  deferred : (∀ line : τ, (Line.probe line).1 = .ok false) →
    (∀ offered, .write offered ∈ c.called found →
      c.outbox.pending ≠ none ∧ offered = c.outbox.unsent) ∧
    ∀ frame ∈ (c.tick found).2.accepted.drop c.accepted.length,
      (c.tick found).2.outbox.pending = some frame ∧ (c.tick found).2.outbox.sent = 0

/-- The manners of a tick, after any operations on a fresh connection over any line, whatever the
reactions do. It makes one of six sequences of calls, as a watch on the line tells: it reads exactly
if the line was found readable; it probes exactly if no frame was outstanding before and the byte
called for one without a failure; and it writes exactly if a frame was outstanding, no failure came of
the byte and the wait found the line writable, which offers what is unsent of that frame, or if the
probe says so, which offers all of the frame that the byte called for. The byte fails by a failed read,
by having no meaning or by a failed reaction to it, and in no other way, which ends the tick at once. A frame that the reaction to a release queues is
not written in the tick; nor, if probes always say no, is any frame queued in it. -/
theorem performAll_mannered (line : τ) (host : σ) (reactions : Reactions σ)
    (ops : List (Operation σ)) (found : Readiness) :
    Mannered found ((Connection.fresh line host reactions).performAll ops) := by
  have hsound := performAll_keeps (P := fun c : Connection τ σ => c.outbox.Sound)
    (fun _ op h => perform_sound op h) ops (Connection.fresh line host reactions) Outbox.Sound.empty
  generalize (Connection.fresh line host reactions).performAll ops = c at hsound ⊢
  have hunfinished : (c.reception found).2.outbox.Unfinished :=
    (Desk.kept_sound.reception (fun _ _ hd => hd.echo _) found hsound).unfinished
  refine {
    watched := c.viewed_watched found
    order := c.called_cases found
    reads := readByte_mem_called
    probes := probe_mem_called.trans probes_iff
    writes := fun offered => ?_
    same := fun hpending => ⟨(reception_of_pending found hpending).1, unsent_reception found hpending⟩
    whole := fun hprobe => ?_
    fails := fun fault => reception_error_iff
    ended := fun fault => called_of_error
    later := fun frame => new_of_tick hunfinished
    deferred := fun hdeferred => ⟨fun offered hwrite => ?_, fun frame => ?_⟩ }
  · rw [write_mem_called, writes_iff, probe_mem_called]
  · obtain ⟨-, free, hpending⟩ := probes_iff.1 (probe_mem_called.1 hprobe)
    obtain ⟨frame, hframe⟩ := Option.ne_none_iff_exists'.1 hpending
    obtain ⟨-, hunsent, haccepted⟩ := (c.reception_filled found).of_none free hframe
    rw [hunsent]
    exact ⟨hframe, haccepted⟩
  · obtain ⟨hoffered, hwrites⟩ := write_mem_called.1 hwrite
    have hpending := pending_of_deferred hdeferred hwrites
    exact ⟨hpending, hoffered.trans (unsent_reception found hpending)⟩
  · exact new_of_deferred hdeferred hunfinished

end Connection

end Powerline
