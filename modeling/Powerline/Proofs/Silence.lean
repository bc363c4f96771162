/-
What a wait that finds nothing leaves out. Every event that is answered of a handle watched for
reading makes a finding, but for one: that the handle is not open. An answer that says no more than
that is taken for a timeout, and the loop waits again; a hang-up or an error is found by the
tick's read, which ends the loop.
-/
import Powerline.Proofs.Calls
import Powerline.Proofs.Interest
import Powerline.Proofs.Registration

namespace Powerline

/-! ## Empty findings -/

theorem Readiness.isEmpty_iff (r : Readiness) :
    r.isEmpty = true ↔ ∀ h, r.isReadable h = false ∧ r.isWritable h = false := by
  simp only [isEmpty, isReadable, isWritable, Bool.and_eq_true, List.isEmpty_iff,
    List.contains_eq_mem, decide_eq_false_iff_not, List.eq_nil_iff_forall_not_mem, forall_and]

theorem Readiness.eq_none_of_isEmpty {r : Readiness} (h : r.isEmpty = true) : r = .none := by
  obtain ⟨readable, writable⟩ := r
  simp only [isEmpty, Bool.and_eq_true, List.isEmpty_iff] at h
  rw [h.1, h.2]
  rfl

namespace Poll

/-! ## Sets of events -/

theorem meets_or (a b c : UInt16) : meets a (b ||| c) = (meets a b || meets a c) := by
  have hdistrib : a &&& (b ||| c) = a &&& b ||| a &&& c := by
    refine UInt16.toBitVec_inj.1 ?_
    simp only [UInt16.toBitVec_and, UInt16.toBitVec_or]
    ext i hi
    simp [Bool.and_or_distrib_left]
  rw [Bool.eq_iff_iff]
  simp only [meets, hdistrib, bne_iff_ne, ne_eq, UInt16.or_eq_zero_iff, Bool.or_eq_true]
  tauto

/-- What meets a set of events meets all that contain it. -/
theorem meets_of_subset {a b c : UInt16} (h : meets a b = true) (subset : b ||| c = c) :
    meets a c = true := by
  rw [← subset, meets_or, h, Bool.true_or]

theorem not_meets_of_subset {a b c : UInt16} (h : meets a c = false) (subset : b ||| c = c) :
    meets a b = false := by
  rw [← subset, meets_or, Bool.or_eq_false_iff] at h
  exact h.1

theorem meets_all (a : UInt16) : meets a (invalidEvent ||| ~~~invalidEvent) = (a != 0) := by
  rw [meets, UInt16.or_not_self, UInt16.and_neg_one]

/-! ## What a call may answer -/

/-- Of a handle are answered the events that were asked for and, asked for or not, that it is in error,
hung up or not open. -/
def Respects (w : Interest) (events : List UInt16) : Prop :=
  ∀ h ∈ w.handles, meets (revents (entries w) events h)
    (~~~(w.asked h ||| errorEvent ||| hangUpEvent ||| invalidEvent)) = false

-- by the list, not by all handles there are
instance (w : Interest) (events : List UInt16) : Decidable (Respects w events) :=
  List.decidableBAll _ w.handles

/-- Of one handle: neither to be read nor to be written is to have no event, but that it is not open. -/
theorem unready_iff {w : Interest} {h : Handle} {events : UInt16}
    (respects : meets events
      (~~~(w.asked h ||| errorEvent ||| hangUpEvent ||| invalidEvent)) = false) :
    meets events readable = false ∧ meets events writeEvent = false ↔
      meets events (~~~invalidEvent) = false := by
  constructor
  · rintro ⟨hread, hwrite⟩
    have hother : meets events (~~~(readable ||| writeEvent ||| invalidEvent)) = false := by
      refine not_meets_of_subset respects ?_
      unfold Interest.asked
      split_ifs <;> decide
    have hall : ~~~invalidEvent =
        readable ||| writeEvent ||| ~~~(readable ||| writeEvent ||| invalidEvent) := by decide
    rw [hall, meets_or, meets_or, hread, hwrite, hother]
    rfl
  · intro hnone
    exact ⟨not_meets_of_subset hnone (by decide), not_meets_of_subset hnone (by decide)⟩

/-- What a finding makes of an answer, if every handle is to be watched for reading. -/
structure Heeds (w : Interest) (events : List UInt16) (r : Readiness) : Prop where
  /-- Nothing is found exactly if of no handle more is answered than that it is not open. -/
  empty : r.isEmpty = true ↔
    ∀ h ∈ w.read, meets (revents (entries w) events h) (~~~invalidEvent) = false
  /-- A handle in error or hung up is found readable. -/
  failing : ∀ h ∈ w.read, meets (revents (entries w) events h) (errorEvent ||| hangUpEvent) = true →
    r.isReadable h = true
  /-- That an empty finding means an empty answer, and that whatever is wrong with a handle makes it
  readable, holds exactly if a handle that is not open is readable by another event. -/
  sound : ((r.isEmpty = true ↔ ∀ h ∈ w.read, revents (entries w) events h = 0) ∧
      ∀ h ∈ w.read, meets (revents (entries w) events h)
        (errorEvent ||| hangUpEvent ||| invalidEvent) = true → r.isReadable h = true) ↔
    ∀ h ∈ w.read, meets (revents (entries w) events h) invalidEvent = true →
      meets (revents (entries w) events h) (readEvent ||| hangUpEvent ||| errorEvent) = true

section
variable {w : Interest} {events : List UInt16}

theorem isReadable_of_read {h : Handle} (read : h ∈ w.read) :
    (found (entries w) events).isReadable h = meets (revents (entries w) events h) readable := by
  rw [isReadable_found, decide_eq_true read, Bool.true_and]

theorem isWritable_of_read {h : Handle} (read : h ∈ w.read) :
    (found (entries w) events).isWritable h = meets (revents (entries w) events h) writeEvent := by
  have hmem : h ∈ w.handles := List.mem_append_left _ read
  rw [isWritable_found, decide_eq_true hmem, Bool.true_and]

theorem isEmpty_found_iff (watched : ∀ h ∈ w.write, h ∈ w.read) (respects : Respects w events) :
    (found (entries w) events).isEmpty = true ↔
      ∀ h ∈ w.read, meets (revents (entries w) events h) (~~~invalidEvent) = false := by
  rw [Readiness.isEmpty_iff]
  constructor
  · intro hnone h hread
    obtain ⟨hr, hw⟩ := hnone h
    rw [isReadable_of_read hread] at hr
    rw [isWritable_of_read hread] at hw
    exact (unready_iff (respects h (List.mem_append_left _ hread))).1 ⟨hr, hw⟩
  · intro hnone h
    by_cases hread : h ∈ w.read
    · rw [isReadable_of_read hread, isWritable_of_read hread]
      exact (unready_iff (respects h (List.mem_append_left _ hread))).2 (hnone h hread)
    · have hmem : h ∉ w.handles := fun hmem =>
        hread ((List.mem_append.1 hmem).elim id (watched h))
      rw [isReadable_found, isWritable_found, decide_eq_false hread, decide_eq_false hmem]
      exact ⟨rfl, rfl⟩

/-- Without the event that a handle is not open, to have none of the others is to be empty. -/
theorem eq_zero_iff {a : UInt16} (valid : meets a invalidEvent = false) :
    meets a (~~~invalidEvent) = false ↔ a = 0 := by
  have hall := meets_all a
  rw [meets_or, valid, Bool.false_or] at hall
  rw [hall, bne_eq_false_iff_eq]

theorem heeds_found (watched : ∀ h ∈ w.write, h ∈ w.read) (respects : Respects w events) :
    Heeds w events (found (entries w) events) where
  empty := isEmpty_found_iff watched respects
  failing h hread hfailing := by
    rw [isReadable_of_read hread]
    exact meets_of_subset hfailing (by decide)
  sound := by
    rw [isEmpty_found_iff watched respects]
    constructor
    · rintro ⟨-, hwrong⟩ h hread hinvalid
      have hreadable := hwrong h hread (meets_of_subset hinvalid (by decide))
      rwa [isReadable_of_read hread] at hreadable
    · intro hother
      refine ⟨forall₂_congr fun h hread => ?_, fun h hread hwrong => ?_⟩
      · -- a handle that is not open has another event, so neither side holds of it
        cases hinvalid : meets (revents (entries w) events h) invalidEvent with
        | false => exact eq_zero_iff hinvalid
        | true =>
          have hmore := meets_of_subset (hother h hread hinvalid)
            (show _ ||| ~~~invalidEvent = ~~~invalidEvent by decide)
          refine iff_of_false (by rw [hmore]; decide) fun hzero => ?_
          rw [hzero] at hinvalid
          cases hinvalid
      · rw [isReadable_of_read hread]
        rw [meets_or, Bool.or_eq_true] at hwrong
        rcases hwrong with hfailing | hinvalid
        · exact meets_of_subset hfailing (by decide)
        · exact hother h hread hinvalid

end

end Poll

/-! ## The tick after the wait -/

namespace Connection

variable {τ σ : Type} [Line τ] {c : Connection τ σ} {events : List UInt16}

/-- A connection always wants to read its line. -/
theorem read_interest (c : Connection τ σ) : (c.interest {}).read = [Line.handle c.line] := by
  unfold interest
  split <;> rfl

/-- It wants to write it while a frame is outstanding. -/
theorem write_interest (c : Connection τ σ) :
    (c.interest {}).write = if c.outbox.isPending then [Line.handle c.line] else [] := by
  unfold interest
  split <;> rfl

theorem read_of_write (c : Connection τ σ) :
    ∀ h ∈ (c.interest {}).write, h ∈ (c.interest {}).read := by
  intro h hwrite
  rw [write_interest] at hwrite
  rw [read_interest]
  split at hwrite
  · exact hwrite
  · cases hwrite

/-- What a call answers of the line that a connection waits for. -/
def answered (events : List UInt16) (c : Connection τ σ) : UInt16 :=
  Poll.revents (Poll.entries (c.interest {})) events (Line.handle c.line)

theorem mem_read_interest (c : Connection τ σ) : Line.handle c.line ∈ (c.interest {}).read := by
  rw [read_interest]
  exact List.mem_singleton_self _

/-- What is found if a connection's wait is answered so. -/
def noticed (events : List UInt16) (c : Connection τ σ) : Readiness :=
  Poll.found (Poll.entries (c.interest {})) events

theorem isReadable_noticed (c : Connection τ σ) :
    (c.noticed events).isReadable (Line.handle c.line) = Poll.meets (c.answered events) Poll.readable :=
  Poll.isReadable_of_read c.mem_read_interest

theorem isWritable_noticed (c : Connection τ σ) :
    (c.noticed events).isWritable (Line.handle c.line) =
      Poll.meets (c.answered events) Poll.writeEvent :=
  Poll.isWritable_of_read c.mem_read_interest

/-- Where nothing was found, nothing is done. -/
theorem called_none (c : Connection τ σ) : c.called .none = [] := by
  have hreadable : Readiness.isReadable (Line.handle c.line) .none = false := rfl
  have hprobes : c.probes .none = false := by
    by_contra hprobes
    rw [readable_of_probes (eq_true_of_ne_false hprobes)] at hreadable
    cases hreadable
  have hwrites : c.writes .none = false := by
    by_contra hwrites
    rcases (writes_iff.1 (eq_true_of_ne_false hwrites)).2 with ⟨-, hwritable⟩ | ⟨hprobed, -⟩
    · cases hwritable
    · rw [hprobes] at hprobed
      cases hprobed
  rw [called_eq, hreadable, hprobes, hwrites]
  rfl

theorem tick_none (c : Connection τ σ) : c.tick .none = (.ok (), c) := by
  have hreadable : Readiness.isReadable (Line.handle c.line) .none = false := rfl
  have hwritable : Readiness.isWritable (Line.handle c.line) .none = false := rfl
  rw [tick_eq, reception, hreadable, hwritable]
  cases hp : c.outbox.isPending <;> simp [transmit, drainIf, hp]

/-- A line that is answered no more than not to be open is not found ready. -/
theorem noticed_eq_none_iff (respects : Poll.Respects (c.interest {}) events) :
    c.noticed events = .none ↔ Poll.meets (c.answered events) (~~~Poll.invalidEvent) = false := by
  have hempty := Poll.isEmpty_found_iff c.read_of_write respects
  rw [read_interest, List.forall_mem_singleton] at hempty
  rw [answered, ← hempty]
  constructor
  · intro hnone
    rw [← noticed, hnone]
    rfl
  · exact Readiness.eq_none_of_isEmpty

theorem called_of_more (respects : Poll.Respects (c.interest {}) events)
    (more : Poll.meets (c.answered events) (~~~Poll.invalidEvent) = true) :
    c.called (c.noticed events) ≠ [] := by
  have hrespects := respects _ (List.mem_append_left _ c.mem_read_interest)
  cases hread : Poll.meets (c.answered events) Poll.readable with
  | true =>
    rw [← isReadable_noticed] at hread
    exact List.ne_nil_of_mem (readByte_mem_called.2 hread)
  | false =>
    have hwrite : Poll.meets (c.answered events) Poll.writeEvent = true := by
      by_contra hunwritten
      have hnone := (Poll.unready_iff hrespects).1 ⟨hread, eq_false_of_ne_true hunwritten⟩
      rw [← answered, more] at hnone
      cases hnone
    have hpending : c.outbox.pending ≠ none := by
      intro hnone
      -- writing was not asked for, so it is not answered
      have hasked : (c.interest {}).asked (Line.handle c.line) = Poll.readEvent := by
        simp [Interest.asked, read_interest, write_interest, Outbox.isPending, hnone]
      rw [hasked] at hrespects
      rw [answered, Poll.not_meets_of_subset hrespects (by decide)] at hwrite
      cases hwrite
    have hreception : c.reception (c.noticed events) = (.ok (), c) := by
      rw [reception, isReadable_noticed, hread]
      rfl
    rw [← isWritable_noticed] at hwrite
    have hwrites : c.writes (c.noticed events) = true :=
      writes_iff.2 ⟨by rw [hreception], .inl ⟨hpending, hwrite⟩⟩
    exact List.ne_nil_of_mem (write_mem_called.2 ⟨rfl, hwrites⟩)

/-- A tick calls on its line if more is answered than that it is not open: it reads, or it writes what
is outstanding, since for that alone it asked. Otherwise it does nothing. -/
theorem called_noticed_iff (respects : Poll.Respects (c.interest {}) events) :
    c.called (c.noticed events) ≠ [] ↔
      Poll.meets (c.answered events) (~~~Poll.invalidEvent) = true := by
  refine ⟨fun hcalls => ?_, called_of_more respects⟩
  by_contra hnone
  rw [(noticed_eq_none_iff respects).2 (eq_false_of_ne_true hnone), called_none] at hcalls
  exact hcalls rfl

theorem tick_of_idle (respects : Poll.Respects (c.interest {}) events)
    (idle : c.called (c.noticed events) = []) : c.tick (c.noticed events) = (.ok (), c) := by
  have hnone : Poll.meets (c.answered events) (~~~Poll.invalidEvent) = false := by
    by_contra hmore
    exact called_of_more respects (eq_true_of_ne_false hmore) idle
  rw [(noticed_eq_none_iff respects).2 hnone]
  exact tick_none c

end Connection

namespace Loop

variable {τ : Type} [Line τ] {l : Loop (Poll.World τ) τ} {events : List UInt16}

theorem waited_of_answer (answer : Poll.answer l.world.steps = .ready events) :
    l.waited.1 = .ok (l.connection.noticed events) := by
  have hwait := Poll.wait_eq_result l.upcoming.wanted (some l.upcoming.cap) l.world l.connection.line
  rw [answer] at hwait
  exact hwait

/-- As long as the line keeps its handle, the tick is on the line that the wait was for. -/
theorem interest_woken (same : Line.handle l.woken.line = Line.handle l.connection.line) :
    l.woken.interest {} = l.connection.interest {} := by
  simp only [Connection.interest, same]
  rfl

theorem noticed_woken (same : Line.handle l.woken.line = Line.handle l.connection.line) :
    l.woken.noticed events = l.connection.noticed events := by
  rw [Connection.noticed, interest_woken same]
  rfl

theorem answered_woken (same : Line.handle l.woken.line = Line.handle l.connection.line) :
    l.woken.answered events = l.connection.answered events := by
  rw [Connection.answered, interest_woken same, same]
  rfl

/-- A line that is in error or hung up is read, and a loop whose line then has no byte to give is
over. -/
theorem turn_of_failing (early : l.now < l.deadline)
    (answer : Poll.answer l.world.steps = .ready events)
    (same : Line.handle l.woken.line = Line.handle l.connection.line)
    (failing : Poll.meets (l.connection.answered events) (Poll.errorEvent ||| Poll.hangUpEvent) = true)
    (nothing : ∀ b, (Line.readByte l.woken.line).1 ≠ .ok (some b)) :
    ∃ reason, l.turn.1 = some (.failed (.readFailed reason)) := by
  have hreadable : (l.connection.noticed events).isReadable (Line.handle l.woken.line) = true := by
    rw [same, Connection.isReadable_noticed]
    exact Poll.meets_of_subset failing (by decide)
  obtain ⟨reason, hreception⟩ := Connection.reception_of_unread hreadable nothing
  refine ⟨reason, ?_⟩
  simp only [turn_of_early early, waited_of_answer answer, Connection.tick_eq, hreception]

/-- What waits make of their answers, as long as every handle is to be watched for reading, and what
the runs, whose waits are such, make of them. Nothing is found exactly if no more is answered than
that handles are not open. A handle that is in error or hung up is found readable, and all that is
wrong is found, so that nothing found means nothing answered, exactly if no handle is answered
to be not open and not readable besides. In a run the tick calls on the line, unless no more is
answered than that it is not open, and ends the run if the line is in error or hung up and has no
byte to read; in the other case it goes on as if the wait had run out. -/
theorem run_heeds (settings : SwitchSettings) (c : Connection τ Switch) (world : Poll.World τ) :
    (∀ (w : Interest) (cap : Option Duration) (world : Poll.World τ) (line : τ)
        (events : List UInt16), (∀ h ∈ w.write, h ∈ w.read) →
        Poll.answer world.steps = .ready events → Poll.Respects w events →
        ∃ r, (Poll.wait w cap world line).1 = .ok r ∧ Poll.Heeds w events r) ∧
      let run := Loop.run settings c world
      ∀ (k : Nat) (events : List UInt16),
        (run k).1 = .waiting → (run k).2.now < (run k).2.deadline →
        Poll.answer (run k).2.world.steps = .ready events →
        Poll.Respects ((run k).2.connection.interest {}) events →
        Line.handle (run k).2.woken.line = Line.handle (run k).2.connection.line →
        let answered := (run k).2.connection.answered events
        ∃ r, (run k).2.waited.1 = .ok r ∧
          ((run k).2.woken.called r ≠ [] ↔ Poll.meets answered (~~~Poll.invalidEvent) = true) ∧
          ((run k).2.woken.called r = [] → (run k).2.woken.tick r = (.ok (), (run k).2.woken)) ∧
          (Poll.meets answered (Poll.errorEvent ||| Poll.hangUpEvent) = true →
            (∀ b, (Line.readByte (run k).2.woken.line).1 ≠ .ok (some b)) →
            ∃ reason, (run (k + 1)).1 = .ended (.failed (.readFailed reason))) := by
  refine ⟨fun w cap world line events watched answer respects => ?_, ?_⟩
  · refine ⟨_, ?_, Poll.heeds_found watched respects⟩
    rw [Poll.wait_eq_result, answer]
    rfl
  · intro run k events hwaiting early answer respects same answered
    refine ⟨_, waited_of_answer answer, ?_⟩
    rw [← interest_woken same] at respects
    rw [← noticed_woken same]
    refine ⟨?_, Connection.tick_of_idle respects, fun failing nothing => ?_⟩
    · rw [Connection.called_noticed_iff respects, answered_woken same]
    · obtain ⟨reason, hturn⟩ := turn_of_failing early answer same failing nothing
      have hsucc : run (k + 1) = _ := run_succ settings c world k
      rw [hsucc, if_pos hwaiting, hturn]
      exact ⟨reason, rfl⟩

/-- An answered error is heeded: the second poll says that the line is in error, and the run ends with
the tick that finds no byte to read. -/
theorem run_heeds_error :
    let switch : Switch :=
      { address := [0x04, 0x6E], command := [0x06, 0x62], maxRetries := 3, setClock := false,
        monitored := .A }
    let c := Connection.fresh ({} : ScriptedLine) switch Switch.reactions
    let world : Poll.World ScriptedLine :=
      { steps := [{ answer := .ready [0] }, { answer := .ready [8] }] }
    let run := Loop.run {} c world
    let both : Interest := { read := [42], write := [42] }
    let failing : Poll.World ScriptedLine := { steps := [{ answer := .ready [12] }] }
    (∃ r, (Poll.wait both none failing ({} : ScriptedLine)).1 = .ok r ∧ Poll.Heeds both [12] r) ∧
      (∃ r, (run 1).2.woken.called r ≠ []) ∧
      ∃ reason, (run 2).1 = .ended (.failed (.readFailed reason)) := by
  intro switch c world run both failing
  have heeds := run_heeds {} c world
  have hread : (Line.readByte (run 1).2.woken.line).1 = .ok none := by decide
  have nothing : ∀ b, (Line.readByte (run 1).2.woken.line).1 ≠ .ok (some b) := by
    rw [hread]
    exact nofun
  obtain ⟨r, -, hcalled, -, hends⟩ :=
    heeds.2 1 [8] (by decide) (by decide) (by decide) (by decide) (by decide)
  exact ⟨heeds.1 both none failing {} [12] (fun h hwrite => hwrite) rfl (by decide),
    ⟨r, hcalled.2 (by decide)⟩, hends (by decide) nothing⟩

/-- A line that is not open is not heeded: each poll answers so at once and nothing is found, the frame
is queued for the line, which is never read, and only the deadline ends the run. -/
theorem run_heeds_invalid :
    let switch : Switch :=
      { address := [0x04, 0x6E], command := [0x06, 0x62], maxRetries := 3, setClock := false,
        monitored := .A }
    let wanted : Interest := { read := [42] }
    let line : ScriptedLine := { reads := [.fails "Bad file descriptor"] }
    let world : Poll.World ScriptedLine :=
      { steps := [{ answer := .ready [32] }, { answer := .ready [32] },
          { elapsed := .seconds 30, answer := .ready [32] }] }
    let run := Loop.run {} (Connection.fresh line switch Switch.reactions) world 4
    Poll.Respects wanted [32] ∧ Poll.revents (Poll.entries wanted) [32] 42 = Poll.invalidEvent ∧
      (Poll.wait wanted none world line).1 = .ok .none ∧
      run.1 = .ended (.failed .timeout) ∧ run.2.world.calls.length = 3 ∧
      run.2.connection.outbox.pending = some [0x04, 0x6E] ∧
      run.2.connection.line.reads = [.fails "Bad file descriptor"] := by
  decide

end Loop

end Powerline
