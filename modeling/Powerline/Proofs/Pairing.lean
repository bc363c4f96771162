/-
Every inbound byte is paired with what it answers. A machine that sees only the frames the outbox
took and the bytes that came in tells which byte is an echo, and of what sum; the connection fires
its reactions, and refuses unknown bytes, exactly as that machine says, whatever the reactions do
and whatever fails.
-/
import Powerline.Proofs.Journal
import Powerline.Proofs.Moves

namespace Powerline

variable {τ σ α : Type}

/-! ## The machine -/

/-- What the pairing goes by: a frame that the outbox took, or an inbound byte. -/
inductive Stimulus where
  | taken (mode : Mode) (frame : Frame)
  | byte (b : UInt8)
  deriving DecidableEq, Repr

/-- What comes of an inbound byte: a reaction of the host, or a failure without one. -/
inductive Response where
  | reaction (occasion : Occasion)
  | failure (fault : Fault)
  deriving DecidableEq, Repr

def Stimulus.byte? : Stimulus → Option UInt8
  | taken _ _ => none
  | byte b => some b

namespace Pairing

/-- The sum that is due after a stimulus: a verified frame's, and none after anything else. -/
def next (_ : Option UInt8) : Stimulus → Option UInt8
  | .taken .verified frame => some (UInt8.ofNat (frame.map UInt8.toNat).sum)
  | .taken .plain _ | .byte _ => none

/-- What comes of a byte while a sum is due, or none is. -/
def answer : Option UInt8 → UInt8 → Response
  | some s, b => .reaction (if b = s then .echoMatched else .echoDiffered)
  | none, b =>
    if b = 0x55 then .reaction .interfaceReady
    else if b = 0x5A then .reaction .interfacePoll
    else if b = 0xA5 then .reaction .timeRequest
    else .failure (.unknownOpcode b)

/-- A stimulus with what comes of it. -/
def exchange (r : Option UInt8) (s : Stimulus) : List (Stimulus ⊕ Response) :=
  .inl s :: match s with
    | .taken _ _ => []
    | .byte b => [.inr (answer r b)]

/-- The stimuli from a state on, each followed at once by what comes of it. -/
def dialogue : Option UInt8 → List Stimulus → List (Stimulus ⊕ Response)
  | _, [] => []
  | r, s :: rest => exchange r s ++ dialogue (next r s) rest

/-- The sum that is due after the stimuli so far; at first none is. -/
def due (past : List Stimulus) : Option UInt8 := past.foldl next none

theorem due_concat (past : List Stimulus) (s : Stimulus) :
    due (past ++ [s]) = next (due past) s := by
  simp [due]

theorem dialogue_concat (r : Option UInt8) (past : List Stimulus) (s : Stimulus) :
    dialogue r (past ++ [s]) = dialogue r past ++ exchange (past.foldl next r) s := by
  induction past generalizing r with
  | nil => simp [dialogue]
  | cons first rest ih => simp [dialogue, ih]

theorem filterMap_getLeft?_exchange (r : Option UInt8) (s : Stimulus) :
    (exchange r s).filterMap Sum.getLeft? = [s] := by
  cases s <;> rfl

-- the byte of a wrong echo after a verified frame, and an opcode after it
example :
    dialogue none [.taken .verified [0x04, 0x6E], .byte 0x55, .byte 0x55] =
      [.inl (.taken .verified [0x04, 0x6E]), .inl (.byte 0x55), .inr (.reaction .echoDiffered),
        .inl (.byte 0x55), .inr (.reaction .interfaceReady)] := by
  decide

end Pairing

/-! ## What the outbox knows of it -/

/-- The sum that the outbox holds due, if any. -/
def Echo.due (e : Echo) : Option UInt8 := if e.armed then some e.expected else none

theorem Echo.armed_eq_isSome_due (e : Echo) : e.armed = e.due.isSome := by
  unfold due
  cases e.armed <;> rfl

theorem Echo.expected_of_due {e : Echo} {s : UInt8} (h : e.due = some s) : e.expected = s := by
  unfold due at h
  split at h
  · exact Option.some.inj h
  · cases h

/-- The sum modulo 256 can be taken once, at the end. -/
theorem Frame.checksum_eq_ofNat_sum (frame : Frame) :
    frame.checksum = UInt8.ofNat (frame.map UInt8.toNat).sum := by
  induction frame with
  | nil => rfl
  | cons b rest ih =>
    rw [Frame.checksum_cons, ih, List.map_cons, List.sum_cons, UInt8.ofNat_add, UInt8.ofNat_toNat]

theorem Mode.due_prepare (mode : Mode) (frame : Frame) (e : Echo) (r : Option UInt8) :
    (mode.prepare frame e).due = Pairing.next r (.taken mode frame) := by
  cases mode with
  | verified =>
    show some frame.checksum = _
    rw [Frame.checksum_eq_ofNat_sum]; rfl
  | plain => rfl

/-- A byte is classified as the machine answers it. -/
theorem Pairing.answer_due (b : UInt8) (e : Echo) :
    answer e.due b =
      match (e.classify b).1 with
      | .ok signal => .reaction signal.occasion
      | .error fault => .failure fault := by
  cases armed : e.armed with
  | true =>
    rw [Echo.classify_of_armed armed, Echo.due, if_pos armed]
    by_cases hb : b = e.expected
    · simp [answer, hb, Signal.occasion]
    · simp [answer, hb, Signal.occasion]
  | false =>
    rw [Echo.classify_of_not_armed armed, Echo.due, armed]
    simp only [Bool.false_eq_true, if_false, answer, Opcode.ofByte]
    split_ifs <;> rfl

/-! ## What the journal tells of it -/

/-- The part of an event in the dialogue: a frame taken, a byte heard, a failure to understand it,
or a reaction to it. A release and the reaction to it have none. -/
def Event.remarks : Event → List (Stimulus ⊕ Response)
  | accepted mode frame => [.inl (.taken mode frame)]
  | heard b (.ok _) => [.inl (.byte b)]
  | heard b (.error fault) => [.inl (.byte b), .inr (.failure fault)]
  | reacted occasion => if occasion = .drained then [] else [.inr (.reaction occasion)]
  | refused _ _ | read _ | finished _ _ | released _ => []

theorem Signal.remarks_reacted (s : Signal) :
    (Event.reacted s.occasion).remarks = [.inr (.reaction s.occasion)] := by
  rcases s with _ | _ | ⟨_ | _ | _⟩ <;> rfl

namespace Desk

/-- The frames taken and the bytes heard, with the reactions and failures that came of them, in the
order in which they happened. -/
def dialogue (d : Desk σ) : List (Stimulus ⊕ Response) := d.journal.flatMap Event.remarks

/-- The frames taken and the bytes heard, in order. -/
def stimuli (d : Desk σ) : List Stimulus := d.dialogue.filterMap Sum.getLeft?

theorem dialogue_note (event : Event) (d : Desk σ) :
    (d.note event).dialogue = d.dialogue ++ event.remarks := by
  simp [dialogue]

theorem stimuli_note (event : Event) (d : Desk σ) :
    (d.note event).stimuli = d.stimuli ++ event.remarks.filterMap Sum.getLeft? := by
  simp [stimuli, dialogue_note]

theorem stimuli_note_of_silent {event : Event} (h : event.remarks = []) (d : Desk σ) :
    (d.note event).stimuli = d.stimuli := by
  simp [stimuli_note, h]

/-- The dialogue is the machine's, and so is the sum held due; the bytes in it are those heard. -/
structure Paired (heard : List UInt8) (d : Desk σ) : Prop where
  due : d.outbox.echo.due = Pairing.due d.stimuli
  dialogue : d.dialogue = Pairing.dialogue none d.stimuli
  heard : d.stimuli.filterMap Stimulus.byte? = heard
  unfinished : d.outbox.Unfinished

namespace Paired

variable {heard : List UInt8} {d d' : Desk σ}

/-- One more stimulus, with what the machine says comes of it. -/
theorem exchange (h : d.Paired heard) (s : Stimulus)
    (hd : d'.dialogue = d.dialogue ++ Pairing.exchange d.outbox.echo.due s)
    (hdue : d'.outbox.echo.due = Pairing.next d.outbox.echo.due s)
    (hunfinished : d'.outbox.Unfinished) : d'.Paired (heard ++ s.byte?.toList) := by
  have hs : d'.stimuli = d.stimuli ++ [s] := by
    rw [stimuli, hd, List.filterMap_append, Pairing.filterMap_getLeft?_exchange]; rfl
  constructor
  · rw [hs, Pairing.due_concat, hdue, h.due]
  · rw [hs, Pairing.dialogue_concat, hd, h.dialogue, h.due]; rfl
  · rw [hs, List.filterMap_append, h.heard]
    cases s <;> rfl
  · exact hunfinished

theorem note (h : d.Paired heard) {event : Event} (silent : event.remarks = []) :
    (d.note event).Paired heard := by
  have hs := stimuli_note_of_silent silent d
  constructor
  · rw [hs]
    exact h.due
  · rw [hs, dialogue_note, silent, List.append_nil]
    exact h.dialogue
  · rw [hs]
    exact h.heard
  · exact h.unfinished

theorem submit (h : d.Paired heard) (mode : Mode) (frame : Frame) :
    (d.submit mode frame).2.Paired heard := by
  rcases d.submit_cases mode frame with ⟨-, hframe, hs⟩ | ⟨fault, hs⟩ <;> rw [hs]
  · have hqueue := h.exchange (.taken mode frame) (dialogue_note _ _) (mode.due_prepare frame _ _)
      (d.unfinished_queue mode hframe)
    rwa [Stimulus.byte?, Option.toList_none, List.append_nil] at hqueue
  · exact h.note rfl

theorem host (h : d.Paired heard) (host : σ) : { d with host }.Paired heard :=
  ⟨h.due, h.dialogue, h.heard, h.unfinished⟩

/-- A reaction keeps the pairing, whatever it does; the entry that it began is the desk's. -/
theorem react {occasion : Occasion} (r : Reactions σ)
    (h : (d.note (.reacted occasion)).Paired heard) : (d.react occasion r).2.Paired heard := by
  refine note ?_ rfl
  exact (r.toOccasion occasion).run_keeps (fun _ mode frame h => h.submit mode frame)
    (fun _ s h => h.host s) _ h

/-- The byte has its answer, and nothing is due any more, before the reaction begins. -/
theorem hear (h : d.Paired heard) (b : UInt8) (r : Reactions σ) :
    (d.hear b r).2.Paired (heard ++ [b]) := by
  have hanswer := Pairing.answer_due b d.outbox.echo
  unfold Desk.hear
  cases hc : (d.outbox.echo.classify b).1 with
  | error fault =>
    rw [hc] at hanswer
    refine h.exchange (.byte b) ?_ rfl h.unfinished
    rw [Pairing.exchange, hanswer, classified, hc]
    exact dialogue_note _ _
  | ok signal =>
    rw [hc] at hanswer
    refine react r (h.exchange (.byte b) ?_ rfl h.unfinished)
    rw [Pairing.exchange, hanswer, dialogue_note, classified, hc, dialogue_note,
      signal.remarks_reacted, List.append_assoc]
    rfl

theorem advanced (h : d.Paired heard) {frame : Frame} {n : Nat}
    (hp : d.outbox.pending = some frame) (hn : d.outbox.sent + n < frame.length) :
    (d.advanced n).Paired heard :=
  ⟨h.due, h.dialogue, h.heard, unfinished_advanced hp hn⟩

/-- The reaction to a release is none of the dialogue's. -/
theorem released (h : d.Paired heard) (frame : Frame) (r : Reactions σ) :
    ((d.released frame).react .drained r).2.Paired heard := by
  have hfree : { d with outbox := { d.outbox with pending := none, sent := 0 } }.Paired heard :=
    ⟨h.due, h.dialogue, h.heard, fun f hf => by cases hf⟩
  have hreleased : (d.released frame).Paired heard := hfree.note rfl
  exact react r (hreleased.note rfl)

end Paired

end Desk

/-! ## Along a run -/

namespace Connection

variable [Line τ]

/-- The byte that an operation brings in: the one fed, or the one that a tick reads. -/
def inbound (c : Connection τ σ) : Operation σ → Option UInt8
  | .feed b => some b
  | .tick found => c.incoming found
  | _ => none

/-- The byte that an operation reads off the line. -/
def off (c : Connection τ σ) : Operation σ → Option UInt8
  | .tick found => c.incoming found
  | _ => none

/-- What an operation gives, all successes alike. -/
def result (c : Connection τ σ) : Operation σ → Except Fault Unit
  | .submit mode frame => (c.submit mode frame).1
  | .feed b => (c.feed b).1
  | .drain => c.drain.1.map fun _ => ()
  | .tick found => (c.tick found).1
  | .setReactions _ | .setHost _ => .ok ()

/-- What each operation of a run gives of what `f` asks for, asked before the operation. -/
def gather {β : Type} (f : Connection τ σ → Operation σ → Option β) :
    Connection τ σ → List (Operation σ) → List β
  | _, [] => []
  | c, op :: rest => (f c op).toList ++ gather f (c.perform op) rest

/-- The dialogue at the desk is the machine's; the counter of bytes read counts these. -/
structure Paired (heard read : List UInt8) (c : Connection τ σ) : Prop where
  desk : c.toDesk.Paired heard
  received : c.received = UInt64.ofNat read.length

namespace Paired

variable {heard read : List UInt8} {c : Connection τ σ}

omit [Line τ] in
theorem feed (h : c.Paired heard read) (b : UInt8) : (c.feed b).2.Paired (heard ++ [b]) read := by
  rw [feed_eq]
  exact ⟨h.desk.hear b c.reactions, h.received⟩

theorem drain (h : c.Paired heard read) : c.drain.2.Paired heard read := by
  have hdraining := draining h.desk.unfinished
  generalize c.drain.1 = result, c.drain.2 = c' at hdraining ⊢
  cases hdraining with
  | idle free => exact h
  | failed pending nothing => exact ⟨h.desk, h.received⟩
  | partly pending took pos more => exact ⟨h.desk.advanced pending more, h.received⟩
  | last pending took unfinished rest => exact ⟨h.desk.released _ c.reactions, h.received⟩

theorem transmit (h : c.Paired heard read) (waited writable : Bool) :
    (c.transmit waited writable).2.Paired heard read :=
  ends_self.1 (transmit_ends (fun _ h => h) (fun _ h => h) (fun _ h => ⟨h.desk, h.received⟩)
    (fun _ h => ends_self.2 h.drain) waited writable h)

theorem reading (h : c.Paired heard read) (b : UInt8) :
    (c.reading b).Paired heard (read ++ [b]) := by
  refine ⟨h.desk.note rfl, ?_⟩
  show c.received + 1 = _
  rw [h.received, List.length_append, UInt64.ofNat_add]; rfl

/-- A tick hears the byte it reads, once. -/
theorem tick (h : c.Paired heard read) (found : Readiness) :
    (c.tick found).2.Paired (heard ++ (c.incoming found).toList)
      (read ++ (c.incoming found).toList) := by
  cases hb : c.incoming found with
  | none =>
    simp only [Option.toList_none, List.append_nil]
    rcases tick_of_silent hb with ht | ⟨reason, ht⟩ <;> rw [ht]
    · exact h.transmit _ _
    · exact ⟨h.desk, h.received⟩
  | some b =>
    have hfed := (h.reading b).feed b
    rw [tick_of_incoming hb]
    rcases hf : (c.reading b).feed b with ⟨fault | _, c'⟩ <;> rw [hf] at hfed
    · exact hfed
    · exact hfed.transmit _ _

theorem perform (h : c.Paired heard read) (op : Operation σ) :
    (c.perform op).Paired (heard ++ (c.inbound op).toList) (read ++ (c.off op).toList) := by
  have hnothing : ∀ {c' : Connection τ σ}, c'.Paired heard read →
      c'.Paired (heard ++ []) (read ++ []) := by
    intro c' h
    rwa [List.append_nil, List.append_nil]
  cases op with
  | submit mode frame => exact hnothing ⟨h.desk.submit mode frame, h.received⟩
  | feed b => exact (List.append_nil read).symm ▸ h.feed b
  | drain => exact hnothing h.drain
  | tick found => exact h.tick found
  | setReactions r => exact hnothing ⟨h.desk, h.received⟩
  | setHost s => exact hnothing ⟨h.desk.host s, h.received⟩

theorem performAll (h : c.Paired heard read) (ops : List (Operation σ)) :
    (c.performAll ops).Paired (heard ++ c.gather inbound ops) (read ++ c.gather off ops) := by
  induction ops generalizing c heard read with
  | nil =>
    rw [gather, gather, List.append_nil, List.append_nil]
    exact h
  | cons op rest ih =>
    rw [gather, gather, ← List.append_assoc, ← List.append_assoc]
    exact ih (h.perform op)

/-- A byte that the machine has a failure for fails the operation that brings it in. -/
theorem result_of_failure (h : c.Paired heard read) {op : Operation σ} {b : UInt8} {fault : Fault}
    (hb : c.inbound op = some b) (hf : Pairing.answer (Pairing.due c.stimuli) b = .failure fault) :
    c.result op = .error fault := by
  have hclassify : (c.outbox.echo.classify b).1 = .error fault := by
    rw [← h.desk.due, Pairing.answer_due] at hf
    cases hc : (c.outbox.echo.classify b).1 with
    | ok signal => rw [hc] at hf; cases hf
    | error e => rw [hc] at hf; cases hf; rfl
  have hfeed : ∀ c' : Connection τ σ, c'.outbox = c.outbox → (c'.feed b).1 = .error fault := by
    intro c' hc'
    rw [feed_eq, Desk.hear, hc', hclassify]
  cases op with
  | feed b' => cases hb; exact hfeed c rfl
  | tick found =>
    have hread := hfeed (c.reading b) rfl
    show (c.tick found).1 = _
    rw [tick_of_incoming hb]
    rcases hr : (c.reading b).feed b with ⟨e | _, c'⟩ <;> rw [hr] at hread
    · exact hread
    · cases hread
  | submit | drain | setReactions | setHost => cases hb

end Paired

/-- Echo pairing: after any operations on a fresh connection over any line, successful or not, the
bytes heard are those that the operations brought in, in order; the reactions fired and the bytes
refused are those of the machine that goes by the frames taken and the bytes heard; an operation
whose byte the machine refuses fails so; an echo is due exactly if the machine holds a sum, which is
the sum expected; a submission counts exactly if it succeeds, and otherwise leaves the outbox as it
is; and the counter counts the bytes that ticks read, as far as it can count. What is entered as a
reaction is the connection's reaction to that occasion, run there, with its end entered as it was: the
operations move the desk in no other way. -/
theorem performAll_paired (line : τ) (host : σ) (reactions : Reactions σ)
    (ops : List (Operation σ)) :
    let start := Connection.fresh line host reactions
    let c := start.performAll ops
    let due := Pairing.due c.stimuli
    c.stimuli.filterMap Stimulus.byte? = start.gather inbound ops ∧
      c.dialogue = Pairing.dialogue none c.stimuli ∧
      (∀ op b fault, c.inbound op = some b → Pairing.answer due b = .failure fault →
        c.result op = .error fault) ∧
      (c.outbox.echo.armed = true ↔ due ≠ none) ∧
      (∀ s, due = some s → c.outbox.echo.expected = s) ∧
      (∀ (d : Desk σ) mode frame, match d.submit mode frame with
        | (.ok (), d') => d'.stimuli = d.stimuli ++ [.taken mode frame]
        | (.error _, d') => d'.stimuli = d.stimuli ∧ d'.outbox = d.outbox) ∧
      ((start.gather off ops).length < 2 ^ 64 →
        c.received.toNat = (start.gather off ops).length) ∧
      ∀ op, (∀ state, op ≠ .setHost state) →
        Desk.Moves c.reactions c.toDesk (c.perform op).toDesk := by
  intro start c due
  have hfresh : start.Paired [] [] := ⟨⟨rfl, rfl, rfl, fun _ h => by cases h⟩, rfl⟩
  have h : c.Paired (start.gather inbound ops) (start.gather off ops) := hfresh.performAll ops
  refine ⟨h.desk.heard, h.desk.dialogue, fun op b fault => h.result_of_failure, ?_, ?_, ?_, ?_,
    fun op => perform_moves h.desk.unfinished⟩
  · rw [Echo.armed_eq_isSome_due, h.desk.due, Option.isSome_iff_ne_none]
  · intro s hs
    exact Echo.expected_of_due (h.desk.due.trans hs)
  · intro d mode frame
    rcases d.submit_cases mode frame with ⟨-, -, hs⟩ | ⟨fault, hs⟩ <;> rw [hs]
    · exact Desk.stimuli_note _ _
    · exact ⟨Desk.stimuli_note_of_silent rfl d, rfl⟩
  · intro hlt
    rw [h.received, UInt64.toNat_ofNat_of_lt' hlt]

end Connection

end Powerline
