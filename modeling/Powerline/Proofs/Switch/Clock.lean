/-
Which reports of readiness belong to clock frames. While a clock frame is in flight the switch takes
the next report for that frame's and stays where it is. It remembers only that one is in flight, not
how many, so a clock frame queued while another is has no report of its own taken for it, and that
report may move the switch on.
-/
import Powerline.Proofs.Switch.Turn
import Powerline.Script.Line
import Powerline.Script.Waits
import Mathlib.Data.Nat.Count

namespace Powerline

variable {τ ω : Type}

/-! ## What the journal counts -/

namespace Event

/-- Whether an event is the beginning of the reaction to an occasion. -/
def begins (occasion : Occasion) : Event → Bool
  | reacted o => o = occasion
  | _ => false

/-- Whether an event is the end of the reaction to an occasion. -/
def ends (occasion : Occasion) : Event → Bool
  | finished o _ => o = occasion
  | _ => false

/-- Whether an event is that a verified frame was taken. -/
def takesVerified : Event → Bool
  | accepted .verified _ => true
  | _ => false

/-- How many requests for the time were answered with a verified frame, of events told newest first. -/
def clocksOf : List Event → Nat
  | [] => 0
  | event :: before =>
    clocksOf before + if event.ends .timeRequest && before.head?.any takesVerified then 1 else 0

end Event

namespace Desk

variable {σ : Type}

/-- How many clock frames were queued in answer to requests for the time; one sent again counts once. -/
def clocks (d : Desk σ) : Nat := Event.clocksOf d.history

/-- How many reports of readiness were reacted to. -/
def readies (d : Desk σ) : Nat := d.history.countP (Event.begins .interfaceReady)

/-- What a byte is at a desk, if it is an opcode. -/
def opcode (b : UInt8) (d : Desk σ) : Option Opcode :=
  match (d.outbox.echo.classify b).1 with
  | .ok (.opcode op) => some op
  | _ => none

/-- Whether a byte is a request for the time that is answered with the clock. -/
def getsClock (b : UInt8) (d : Desk Switch) : Bool :=
  decide (d.opcode b = some .timeRequest) && !d.outbox.isPending && d.host.setClock

theorem opcode_of_armed {d : Desk σ} (h : d.outbox.echo.armed = true) (b : UInt8) :
    d.opcode b = none := by
  rw [opcode, Echo.classify_of_armed h]
  split_ifs <;> rfl

theorem opcode_byte {d : Desk σ} (h : d.outbox.echo.armed = false) (op : Opcode) :
    d.opcode op.byte = some op := by
  rw [opcode, Echo.classify_of_not_armed h, Opcode.ofByte_byte]
  rfl

theorem readies_attending (b : UInt8) (occasion : Occasion) (d : Desk σ) :
    (d.attending b occasion).readies = d.readies + if occasion = .interfaceReady then 1 else 0 := by
  simp [attending, classified, note, readies, List.countP_cons, Event.begins]

end Desk

/-! ## The tally of a switch -/

/-- How many reports have moved a switch on that is at a stage. -/
def Stage.steps : Stage → Nat
  | .start | .sentAddress => 0
  | .sentCommand => 1
  | .done => 2

/-- Clock frames queued, reports heard, whether a clock frame is in flight, and how many reports have
moved the switch on. -/
structure Tally where
  clocks : Nat
  readies : Nat
  busy : Bool
  steps : Nat

def Desk.tally (d : Desk Switch) : Tally := ⟨d.clocks, d.readies, d.host.isBusy, d.host.stage.steps⟩

/-- What an opcode does to a tally, or a byte that is none; `sets` tells whether it gets the clock. -/
structure Tally.Step (op : Option Opcode) (sets : Bool) (t t' : Tally) : Prop where
  clocks : t'.clocks = t.clocks + if sets then 1 else 0
  readies : t'.readies = t.readies + if op = some .interfaceReady then 1 else 0
  busy : t'.busy = if op = some .interfaceReady then false else if sets then true else t.busy
  steps : t'.steps ≤ t.steps + if op = some .interfaceReady ∧ t.busy = false then 1 else 0

/-- A byte that is no report of readiness and does not get the clock leaves the tally alone. -/
theorem Tally.Step.rest {op : Option Opcode} (t : Tally) (h : op ≠ some .interfaceReady) :
    Step op false t t := by
  constructor <;> simp [h]

/-- A report taken for a clock frame ends what is in flight, and a clock frame begins it unless one is in
flight already; a report that is not taken so may move the switch on. -/
theorem Tally.Step.balance {op : Option Opcode} {sets : Bool} {t t' : Tally} (h : Step op sets t t')
    (exclusive : sets = true → op ≠ some .interfaceReady) :
    (if (decide (op = some .interfaceReady) && t.busy) = true then 1 else 0) + t'.busy.toNat +
        (if (sets && t.busy) = true then 1 else 0) + t.clocks = t.busy.toNat + t'.clocks ∧
      (if (decide (op = some .interfaceReady) && t.busy) = true then 1 else 0) + t'.steps +
        t.readies ≤ t.steps + t'.readies := by
  obtain ⟨hclocks, hreadies, hbusy, hsteps⟩ := h
  rw [hclocks, hreadies, hbusy]
  by_cases hready : op = some .interfaceReady
  · have hsets : sets = false := by
      cases sets with
      | false => rfl
      | true => exact absurd hready (exclusive rfl)
    cases ht : t.busy <;> simp [hready, hsets, ht] at hsteps ⊢ <;> omega
  · cases sets <;> cases ht : t.busy <;> simp [hready, ht] at hsteps ⊢ <;> omega

namespace Switch

variable {d d' : Desk Switch} {b : UInt8}

theorem Hearing.tally (hh : Hearing b d (.ok ()) d') :
    Tally.Step (d.opcode b) (d.getsClock b) d.tally d'.tally := by
  -- an echo is no opcode
  have hecho : d.outbox.echo.armed = true → Tally.Step (d.opcode b) (d.getsClock b) d.tally d.tally := by
    intro armed
    rw [Desk.getsClock, d.opcode_of_armed armed]
    exact .rest _ (by simp)
  -- a report of readiness is counted, and ends what is in flight
  have hready : d.outbox.echo.armed = false → b = 0x55 → d'.clocks = d.clocks →
      d'.readies = (d.attending b .interfaceReady).readies → d'.host.isBusy = false →
      d'.host.stage.steps ≤ d.host.stage.steps + (if d.host.isBusy = false then 1 else 0) →
      Tally.Step (d.opcode b) (d.getsClock b) d.tally d'.tally := by
    rintro idle rfl hclocks hreadies hbusy hsteps
    rw [Desk.getsClock, show d.opcode 0x55 = _ from d.opcode_byte idle .interfaceReady]
    constructor
    · exact hclocks
    · exact hreadies.trans (d.readies_attending _ _)
    · exact hbusy
    · simp only [true_and]
      exact hsteps
  cases hh with
  | release armed matched free => exact hecho armed
  | resend armed differed last left free => exact hecho armed
  | disowned armed differed last => exact hecho armed
  | clockOver idle hb busy => exact hready idle hb rfl rfl rfl (Nat.le_add_right _ _)
  | command idle hb calm stage free =>
    refine hready idle hb rfl rfl calm ?_
    rw [stage, isBusy, calm]
    exact le_rfl
  | switched idle hb calm stage =>
    refine hready idle hb rfl rfl calm ?_
    rw [stage, isBusy, calm]
    exact le_rfl
  | unasked idle hb calm stage => exact hready idle hb rfl rfl calm (Nat.le_add_right _ _)
  | poll idle hb =>
    subst hb
    rw [Desk.getsClock, show d.opcode 0x5A = _ from d.opcode_byte idle .interfacePoll]
    exact .rest _ (by simp)
  | timeIgnored idle hb taken =>
    subst hb
    rw [Desk.getsClock, show d.opcode 0xA5 = _ from d.opcode_byte idle .timeRequest, taken]
    exact .rest _ (by simp)
  | clock idle hb set free =>
    subst hb
    rw [Desk.getsClock, show d.opcode 0xA5 = _ from d.opcode_byte idle .timeRequest,
      Outbox.isPending_of_none free, set]
    exact ⟨rfl, rfl, rfl, Nat.le_add_right _ _⟩
  | timeAnswer idle hb unset free =>
    subst hb
    rw [Desk.getsClock, show d.opcode 0xA5 = _ from d.opcode_byte idle .timeRequest, unset,
      Bool.and_false]
    exact .rest _ (by simp)

theorem Transmitting.tally (ht : Transmitting d d') : d'.tally = d.tally := by
  cases ht with
  | nothing => rfl
  | partly pending more => rfl
  | last pending => rfl

theorem Addressing.tally (ha : Addressing d d') : d'.tally = d.tally := by
  cases ha with
  | nothing => rfl
  | address start calm free idle =>
    rw [Desk.tally, Desk.tally, start]
    rfl

end Switch

/-! ## Turns -/

section
variable [Line τ] [Surroundings ω τ]

/-- What the byte of the next turn is, if it has one and that is an opcode. -/
def Loop.hears (l : Loop ω τ) : Option Opcode := l.incoming.bind fun b => l.connection.toDesk.opcode b

/-- Whether the next turn answers a request for the time with the clock. -/
def Loop.setsClock (l : Loop ω τ) : Bool :=
  l.incoming.any fun b => l.connection.toDesk.getsClock b

/-- Whether the next turn hears a report of readiness while a clock frame is in flight. -/
def Loop.swallows (l : Loop ω τ) : Bool :=
  decide (l.hears = some .interfaceReady) && l.connection.host.isBusy

/-- Whether the next turn queues a clock frame while another is in flight. -/
def Loop.overlaps (l : Loop ω τ) : Bool := l.setsClock && l.connection.host.isBusy

theorem Loop.hears_of_setsClock {l : Loop ω τ} (h : l.setsClock = true) :
    l.hears = some .timeRequest := by
  obtain ⟨b, hb, hget⟩ := Option.any_eq_true _ _ |>.1 h
  simp only [Desk.getsClock, Bool.and_eq_true, decide_eq_true_eq] at hget
  rw [hears, hb]
  exact hget.1.1

/-- What a turn that does not fail does to the tally is what its byte does. -/
theorem Loop.turn_tally {l : Loop ω τ} (h : Switch.OnDesk Desk.InStep l.connection)
    (ok : ∀ fault, l.turn.1 ≠ some (.failed fault)) :
    Tally.Step l.hears l.setsClock l.connection.toDesk.tally l.turn.2.connection.toDesk.tally := by
  obtain ⟨found, c₁, c₂, wait, hr, hheard, sent, address⟩ := turn_of_not_failed h ok
  have hwoken : l.woken.toDesk.InStep := h.2.time _
  have hstep : c₁.toDesk.InStep := hheard.inStep hwoken
  have htransmitting := Switch.transmitting hr hstep.unfinished sent
  have haddressing := Switch.addressing (htransmitting.inStep hstep) address
  rw [haddressing.tally, htransmitting.tally, hears, setsClock]
  cases hb : l.incoming with
  | none =>
    rw [hb] at hheard
    rw [show c₁.toDesk = l.woken.toDesk from hheard]
    exact .rest _ (by simp)
  | some b =>
    rw [hb] at hheard
    exact hheard.tally

end

/-! ## Along a run -/

/-- The counts at every point of a run before its first failure. Reports taken for clock frames, the
clock frame in flight if there is one, and the clock frames queued while another was in flight make
up the clock frames queued; reports taken for clock frames and those that moved the switch on are
reports. -/
theorem Loop.run_tally [Line τ] [Surroundings ω τ] {settings : SwitchSettings} {switch : Switch}
    (h : Switch.ofSettings settings = .ok switch) (line : τ) (world : ω) :
    let run := Loop.run settings (.fresh line switch Switch.reactions) world
    ∀ n, (∀ fault, (run n).1 ≠ .ended (.failed fault)) →
      let t := (run n).2.connection.toDesk.tally
      Nat.count (fun k => (run k).1 = .waiting ∧ (run k).2.swallows) n + t.busy.toNat +
          Nat.count (fun k => (run k).1 = .waiting ∧ (run k).2.overlaps) n = t.clocks ∧
        Nat.count (fun k => (run k).1 = .waiting ∧ (run k).2.swallows) n + t.steps ≤ t.readies := by
  intro run n
  have hsucc : ∀ n, run (n + 1) = if (run n).1 = .waiting then
      (.ofVerdict? (run n).2.turn.1, (run n).2.turn.2) else run n := run_succ settings _ world
  induction n with
  | zero =>
    intro _
    have hzero : (run 0).2.connection = _ := connection_run_zero settings _ world
    obtain ⟨_, _, -, -, rfl⟩ := Switch.eq_of_ofSettings h
    rw [hzero]
    exact ⟨rfl, le_rfl⟩
  | succ n ih =>
    intro ok
    rw [Nat.count_succ, Nat.count_succ]
    rw [hsucc] at ok ⊢
    by_cases hwaiting : (run n).1 = .waiting
    · rw [if_pos hwaiting] at ok ⊢
      simp only [hwaiting, true_and]
      obtain ⟨hbalance, hmoved⟩ := ih (by simp [hwaiting])
      have hdesk : Switch.OnDesk Desk.InStep (run n).2.connection :=
        (run_before_turn h line world n hwaiting).1
      have hturn : ∀ fault, (run n).2.turn.1 ≠ some (.failed fault) := by
        intro fault hf
        apply ok fault
        rw [hf]
        rfl
      have hexclusive : (run n).2.setsClock = true → (run n).2.hears ≠ some .interfaceReady := by
        intro hsets
        rw [hears_of_setsClock hsets]
        simp
      obtain ⟨hbalance', hmoved'⟩ := (turn_tally hdesk hturn).balance hexclusive
      have hswallows : (decide ((run n).2.hears = some .interfaceReady) &&
          (run n).2.connection.toDesk.tally.busy) = (run n).2.swallows := rfl
      have hoverlaps : ((run n).2.setsClock && (run n).2.connection.toDesk.tally.busy) =
          (run n).2.overlaps := rfl
      rw [hswallows, hoverlaps] at hbalance'
      rw [hswallows] at hmoved'
      constructor
      · omega
      · omega
    · rw [if_neg hwaiting] at ok ⊢
      simpa only [hwaiting, false_and, if_false, Nat.add_zero] using ih ok

/-- The turn that makes the switch done leaves no clock frame in flight. -/
theorem Loop.isBusy_of_done [Line τ] [Surroundings ω τ] {l : Loop ω τ}
    (h : Switch.OnDesk Desk.InStep l.connection) (going : l.connection.host.stage ≠ .done)
    (done : l.turn.1 = some .done) : l.turn.2.connection.host.isBusy = false := by
  have htally := turn_tally h (by simp [done])
  have hstage : l.turn.2.connection.host.stage = .done := l.turn_tells.1 done
  have hbefore : l.connection.host.stage.steps < 2 := by
    cases hs : l.connection.host.stage with
    | start | sentAddress | sentCommand => decide
    | done => exact absurd hs going
  have hready : l.hears = some .interfaceReady := by
    by_contra hready
    have hsteps := htally.steps
    rw [if_neg (by simp [hready])] at hsteps
    change l.turn.2.connection.host.stage.steps ≤ l.connection.host.stage.steps at hsteps
    rw [hstage] at hsteps
    exact absurd hsteps (Nat.not_le.2 hbefore)
  exact htally.busy.trans (if_pos hready)

/-- The balance of clock frames: at every point of a run before its first failure, the reports taken for
clock frames and the clock frame in flight are the clock frames queued, but for those queued while
another was in flight. So the two sides agree exactly if no turn has queued one then. A switch that
is done has heard two reports more than clock frames were queued, again but for those. -/
theorem Loop.run_clocks_iff [Line τ] [Surroundings ω τ] {settings : SwitchSettings}
    {switch : Switch} (h : Switch.ofSettings settings = .ok switch) (line : τ) (world : ω) :
    let run := Loop.run settings (.fresh line switch Switch.reactions) world
    let swallowed := Nat.count fun k => (run k).1 = .waiting ∧ (run k).2.swallows
    let overlapping := Nat.count fun k => (run k).1 = .waiting ∧ (run k).2.overlaps
    ∀ n, (∀ fault, (run n).1 ≠ .ended (.failed fault)) →
      let d := (run n).2.connection.toDesk
      let inFlight := if d.host.isBusy then 1 else 0
      swallowed n + inFlight + overlapping n = d.clocks ∧
      (swallowed n + inFlight = d.clocks ↔
        ∀ k < n, (run k).1 = .waiting → (run k).2.overlaps = false) ∧
      ((run n).1 = .ended .done → d.clocks + 2 ≤ d.readies + overlapping n) := by
  intro run swallowed overlapping n ok d inFlight
  obtain ⟨hbalance, hmoved⟩ := run_tally h line world n ok
  have hflight : d.host.isBusy.toNat = inFlight := by
    cases hb : d.host.isBusy <;> simp [inFlight, hb]
  change swallowed n + d.host.isBusy.toNat + overlapping n = d.clocks at hbalance
  change swallowed n + d.host.stage.steps ≤ d.readies at hmoved
  rw [hflight] at hbalance
  refine ⟨hbalance, ?_, ?_⟩
  · have hnone : overlapping n = 0 ↔ ∀ k < n, (run k).1 = .waiting → (run k).2.overlaps = false := by
      rw [Nat.count_iff_forall_not]
      simp
    rw [← hnone]
    omega
  · intro hdone
    -- the report that makes the switch done leaves no clock frame in flight
    obtain ⟨k, -, hwaiting, hturn, -, hlast⟩ := exists_last_turn settings _ world hdone
    obtain ⟨hdesk, hgoing⟩ := run_before_turn h line world k hwaiting
    have hcalm : inFlight = 0 := by
      have hbusy := isBusy_of_done hdesk hgoing hturn
      rw [← hlast] at hbusy
      exact if_neg (Bool.eq_false_iff.1 hbusy)
    have hstage : d.host.stage = .done := stage_of_run_done h line world n hdone
    rw [hstage, Stage.steps] at hmoved
    omega

/-- The waits of an exchange in which the time is asked for twice before the interface is ready after the
first clock frame. -/
def ScriptedWaits.twoRequests : ScriptedWaits ScriptedLine where
  waits :=
    let readable := { finding := .ok { readable := [42] } }
    [{ finding := .ok {} }, { finding := .ok { writable := [42] } }, readable, readable, readable,
      readable, readable, readable, readable]

/-- There two clock frames are queued and one report is taken for them; the other moves the switch on. -/
theorem Loop.run_clocks_twoRequests :
    let settings : SwitchSettings := { setClock := true }
    let switch : Switch :=
      { address := [0x04, 0x6E], command := [0x06, 0x62], maxRetries := 3, setClock := true,
        monitored := .A }
    let line : ScriptedLine :=
      { reads := [.byte 0x72, .byte 0xA5, .byte 0x0B, .byte 0xA5, .byte 0x0B, .byte 0x55,
          .byte 0x55] }
    let run := Loop.run settings (.fresh line switch Switch.reactions) ScriptedWaits.twoRequests
    let d := (run 9).2.connection.toDesk
    Switch.ofSettings settings = .ok switch ∧ (run 9).1 = .waiting ∧ d.clocks = 2 ∧
      Nat.count (fun k => (run k).1 = .waiting ∧ (run k).2.swallows) 9 = 1 ∧
      d.host.isBusy = false ∧ d.host.stage = .sentCommand := by
  decide

theorem Loop.run_clocks_iff_twoRequests :
    let settings : SwitchSettings := { setClock := true }
    let switch : Switch :=
      { address := [0x04, 0x6E], command := [0x06, 0x62], maxRetries := 3, setClock := true,
        monitored := .A }
    let line : ScriptedLine :=
      { reads := [.byte 0x72, .byte 0xA5, .byte 0x0B, .byte 0xA5, .byte 0x0B, .byte 0x55,
          .byte 0x55] }
    let run := Loop.run settings (.fresh line switch Switch.reactions) ScriptedWaits.twoRequests
    let swallowed := Nat.count fun k => (run k).1 = .waiting ∧ (run k).2.swallows
    let overlapping := Nat.count fun k => (run k).1 = .waiting ∧ (run k).2.overlaps
    let inFlight := fun n => if (run n).2.connection.host.isBusy then 1 else 0
    Switch.ofSettings settings = .ok switch ∧
      -- before the second request the two sides agree
      (run 5).1 = .waiting ∧ swallowed 5 + inFlight 5 = (run 5).2.connection.toDesk.clocks ∧
      -- after it they are one apart
      (run 9).1 = .waiting ∧ overlapping 9 = 1 ∧
      swallowed 9 + inFlight 9 + 1 = (run 9).2.connection.toDesk.clocks := by
  intro settings switch line run swallowed overlapping inFlight
  have hwaiting : ∀ n, (run n).1 = .waiting → ∀ fault, (run n).1 ≠ .ended (.failed fault) := by
    intro n hn fault hf
    rw [hn] at hf
    cases hf
  have five : (run 5).1 = .waiting := by decide
  have nine : (run 9).1 = .waiting := by decide
  have hcalm : ∀ k < 5, (run k).1 = .waiting → (run k).2.overlaps = false := by decide
  have hone : overlapping 9 = 1 := by decide
  have haccepted : Switch.ofSettings settings = .ok switch := by decide
  obtain ⟨-, hagree, -⟩ :=
    Loop.run_clocks_iff haccepted line ScriptedWaits.twoRequests 5 (hwaiting 5 five)
  obtain ⟨hbalance, -, -⟩ :=
    Loop.run_clocks_iff haccepted line ScriptedWaits.twoRequests 9 (hwaiting 9 nine)
  refine ⟨haccepted, five, hagree.2 hcalm, nine, hone, ?_⟩
  rw [← hone]
  exact hbalance

end Powerline
