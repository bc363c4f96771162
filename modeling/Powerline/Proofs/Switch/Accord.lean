/-
The switch, its outbox and the journal agree. The frame that a switch remembers is the one whose echo
the journal says is awaited and whose sum the outbox expects; nothing else of the switch's own making
is outstanding; and whenever a byte makes the switch react, or a frame is submitted, no echo is due.
-/
import Powerline.Proofs.Owed
import Powerline.Proofs.Switch.Session
import Powerline.Proofs.Switch.Turn

namespace Powerline

variable {τ ω σ : Type}

/-! ## What the host does, and when -/

/-- Whether an entry tells of something the host does: the reaction to a byte begun, or a frame
submitted. -/
def Event.isDeed : Event → Bool
  | .accepted _ _ | .refused _ _ => true
  | .reacted occasion => occasion ≠ .drained
  | .read _ | .heard _ _ | .finished _ _ | .released _ => false

namespace Desk

/-- No echo was awaited at anything the host did. -/
def Undisturbed (d : Desk σ) : Prop :=
  ∀ after event before, d.history = after ++ event :: before → event.isDeed = true →
    Taking.owedOf before = none

namespace Undisturbed

variable {d : Desk σ}

theorem fresh (host : σ) : Undisturbed { host } := by
  intro after event before h
  cases after <;> cases h

/-- One entry more; if it tells of a deed, no echo is awaited. -/
theorem note (h : d.Undisturbed) {event : Event} (idle : event.isDeed = true → d.owed = none) :
    (d.note event).Undisturbed := by
  intro after event' before heq hdeed
  cases after with
  | nil =>
    obtain ⟨rfl, rfl⟩ : event = event' ∧ d.history = before := by
      simpa [Desk.note] using heq
    exact idle hdeed
  | cons first rest => exact h rest event' before (List.cons.inj heq).2 hdeed

theorem withHost (h : d.Undisturbed) (host : σ) : (d.withHost host).Undisturbed := h

theorem queue (h : d.Undisturbed) (idle : d.owed = none) (mode : Mode) (frame : Frame) :
    (d.queue mode frame).Undisturbed :=
  h.note fun _ => idle

theorem refused (h : d.Undisturbed) (idle : d.owed = none) (mode : Mode) (frame : Frame) :
    (d.note (.refused mode frame)).Undisturbed :=
  h.note fun _ => idle

theorem finished (h : d.Undisturbed) (occasion : Occasion) (result : Except Fault Unit) :
    (d.note (.finished occasion result)).Undisturbed :=
  h.note nofun

theorem classified (h : d.Undisturbed) (b : UInt8) : (d.classified b).Undisturbed :=
  h.note nofun

/-- The byte is heard before the reaction to it begins, and no echo is awaited any more. -/
theorem attending (h : d.Undisturbed) (b : UInt8) (occasion : Occasion) :
    (d.attending b occasion).Undisturbed :=
  (h.classified b).note fun _ => rfl

end Undisturbed

end Desk

/-! ## What a switch waits for -/

namespace Switch.Due

variable {s : Switch} {frame : Frame}

/-- A clock frame has seven bytes and begins with the answer byte. -/
theorem kind (h : s.Due frame) : frame = s.address ∨ frame = s.command ∨
    (∃ t, frame = Frame.clock t s.monitored) ∧ frame.length = 7 ∧
      frame.head? = some Frame.timeAnswer := by
  rcases h with ⟨-, t, rfl⟩ | ⟨-, -, haddress⟩ | ⟨-, -, hcommand⟩
  · exact .inr (.inr ⟨⟨t, rfl⟩, Frame.length_clock t s.monitored, rfl⟩)
  · exact .inl haddress
  · exact .inr (.inl hcommand)

/-- Before the address frame is sent, it can only be the clock. -/
theorem clock_of_start (h : s.Due frame) (start : s.stage = .start) :
    (∃ t, frame = Frame.clock t s.monitored) ∧ s.isBusy = true := by
  rcases h with ⟨busy, hclock⟩ | ⟨-, stage, -⟩ | ⟨-, stage, -⟩
  · exact ⟨hclock, busy⟩
  · rw [start] at stage
    cases stage
  · rw [start] at stage
    cases stage

end Switch.Due

namespace Desk

/-! ## The switch and the journal -/

/-- The switch is in step with its outbox, and remembers the frame that the journal says is owed an
echo. -/
structure Accord (d : Desk Switch) : Prop extends d.InStep where
  owed : d.owed = d.host.lastFrame
  undisturbed : d.Undisturbed

/-- Whatever a byte does at the desk of a switch, it does with no echo due. -/
theorem Undisturbed.hear {d d' : Desk Switch} {b : UInt8} {r : Except Fault Unit}
    (h : d.Undisturbed) (hh : Switch.Hearing b d r d') : d'.Undisturbed := by
  cases hh with
  | release armed matched free =>
    exact (((h.attending b _).withHost _).queue rfl _ _).finished _ _
  | releaseRefused armed matched taken =>
    exact (((h.attending b _).withHost _).refused rfl _ _).finished _ _
  | resend armed differed last left free =>
    exact (((h.attending b _).withHost _).queue rfl _ _).finished _ _
  | resendRefused armed differed last left taken =>
    exact (((h.attending b _).withHost _).refused rfl _ _).finished _ _
  | command idle hb calm stage free | clock idle hb set free =>
    exact (((h.attending b _).queue rfl _ _).withHost _).finished _ _
  | timeAnswer idle hb unset free => exact ((h.attending b _).queue rfl _ _).finished _ _
  | commandRefused idle hb calm stage taken => exact ((h.attending b _).refused rfl _ _).finished _ _
  | clockOver idle hb busy | switched idle hb calm stage =>
    exact ((h.attending b _).withHost _).finished _ _
  | giveUp | disowned | unasked | poll | timeIgnored => exact (h.attending b _).finished _ _
  | unknown idle h55 h5A hA5 => exact h.classified b

namespace Accord

variable {d d' : Desk Switch}

theorem fresh {settings : SwitchSettings} {s : Switch} (h : Switch.ofSettings settings = .ok s) :
    Accord { host := s } := by
  have hstep := InStep.fresh h
  obtain ⟨address, command, -, -, rfl⟩ := Switch.eq_of_ofSettings h
  exact ⟨hstep, rfl, .fresh _⟩

theorem owed_eq_none (h : d.Accord) (idle : d.outbox.echo.armed = false) : d.owed = none :=
  h.owed.trans (h.toInStep.lastFrame_eq_none idle)

/-- An entry that tells of no frame and no byte, and of nothing the host does. -/
theorem note (h : d.Accord) {event : Event} (hdeed : event.isDeed = false)
    (howed : Taking.owedOf (event :: d.history) = Taking.owedOf d.history) :
    (d.note event).Accord := by
  constructor
  · exact h.toInStep.note event
  · exact howed.trans h.owed
  · apply h.undisturbed.note
    intro hcontra
    rw [hdeed] at hcontra
    cases hcontra

/-- A byte that meets no failure leaves the journal telling what the switch remembers. -/
theorem owed_hear (h : d.Accord) {b : UInt8} (hh : Switch.Hearing b d (.ok ()) d') :
    d'.owed = d'.host.lastFrame := by
  cases hh with
  | release armed matched free => rfl
  | resend armed differed last left free => exact last.symm
  | command idle hb calm stage free | clock idle hb set free => rfl
  | disowned armed differed last => exact last.symm
  -- no frame was remembered, and none is
  | clockOver idle | switched idle | unasked idle | poll idle | timeIgnored idle | timeAnswer idle =>
    exact (h.toInStep.lastFrame_eq_none idle).symm

theorem hear (h : d.Accord) {b : UInt8} {r : Except Fault Unit} (hh : Switch.Hearing b d r d') :
    Ends Accord Undisturbed (r, d') := by
  rcases r with fault | _
  · exact h.undisturbed.hear hh
  · exact ⟨h.toInStep.hear hh, h.owed_hear hh, h.undisturbed.hear hh⟩

/-- The frame whose echo is awaited, of a switch that settings ask for. -/
theorem awaits (h : d.Accord) {settings : SwitchSettings} {switch : Switch}
    (made : Switch.ofSettings settings = .ok switch) (planned : d.host.plan = switch.plan) {f : Frame}
    (last : d.host.lastFrame = some f) :
    d.outbox.echo.expected = UInt8.ofNat (f.map UInt8.toNat).sum ∧
      (f = switch.address ∨ f = switch.command ∨
        (∃ t, f = Frame.clock t settings.house) ∧ f.length = 7 ∧ f.head? = some 0x9B) ∧
      (∀ g, d.outbox.pending = some g → g = f) ∧
      (d.host.stage = .start → (∃ t, f = Frame.clock t settings.house) ∧ d.host.isBusy = true) := by
  have hdue := h.due f last
  obtain ⟨address, command, -, -, rfl⟩ := Switch.eq_of_ofSettings made
  have hhouse : d.host.monitored = settings.house := congrArg Plan.monitored planned
  have haddress : d.host.address = address := congrArg Plan.address planned
  have hcommand : d.host.command = command := congrArg Plan.command planned
  refine ⟨?_, ?_, fun g hg => h.awaited f g last hg, fun start => ?_⟩
  · rw [h.expected f last, Frame.checksum_eq_ofNat_sum]
  · have hkind := hdue.kind
    rwa [haddress, hcommand, hhouse] at hkind
  · rw [← hhouse]
    exact hdue.clock_of_start start

/-- The address frame is queued while nothing is awaited. -/
theorem address (h : d.Accord) (calm : d.host.clockInFlight = false)
    (idle : d.outbox.echo.armed = false) :
    ((d.queue .verified d.host.address).withHost d.host.addressSent).Accord where
  toInStep := h.toInStep.address calm
  owed := rfl
  undisturbed := (h.undisturbed.queue (h.owed_eq_none idle) _ _).withHost _

end Accord

end Desk

theorem Switch.kept_accord : Kept Desk.Accord Desk.Undisturbed where
  unfinished _ h := h.unfinished
  sendable _ h := h.toInStep.sendable
  fails _ h := h.undisturbed
  time _ t h := ⟨h.toInStep.time t, h.owed, h.undisturbed⟩
  hear d b _ _ h hh := by
    have hread : (d.note (.read b)).Accord := h.note rfl rfl
    exact hread.hear hh
  advanced _ _ _ h hp hn := ⟨h.toInStep.advanced hp hn, h.owed, h.undisturbed⟩
  drained d frame h hp := by
    have hreleased : (d.released frame).Accord :=
      ⟨h.toInStep.released frame, h.owed, h.undisturbed.note nofun⟩
    exact (hreleased.note rfl rfl).note rfl rfl
  address _ h _ calm _ idle := h.address calm idle

/-! ## The reaction to a byte -/

/-- A byte with a meaning is fed by running the reaction to it at the desk that attends to it. -/
theorem Connection.feed_of_signal {b : UInt8} {c : Connection τ σ} {signal : Signal}
    (h : (c.outbox.echo.classify b).1 = .ok signal) :
    let ran := (c.reactions.toOccasion signal.occasion).run (c.toDesk.attending b signal.occasion)
    c.feed b = (ran.1, { c with toDesk := ran.2.note (.finished signal.occasion ran.1) }) := by
  intro ran
  have hhear : c.toDesk.hear b c.reactions =
      (ran.1, ran.2.note (.finished signal.occasion ran.1)) := by
    unfold Desk.hear
    rw [h]
    rfl
  rw [feed_eq, hhear]

/-! ## Along a run -/

namespace Loop

variable [Line τ] [Surroundings ω τ]

/-- The first half of the next turn's tick, if it feeds a byte with a meaning, is the reaction to it, run
at the desk that attends to the byte. -/
theorem reception_of_signal {l : Loop ω τ} {found : Readiness} {b : UInt8} {signal : Signal}
    (waited : l.waited.1 = .ok found) (incoming : l.incoming = some b)
    (meaning : (l.connection.outbox.echo.classify b).1 = .ok signal) :
    let entered := (l.woken.reading b).toDesk.attending b signal.occasion
    let ran := (l.connection.reactions.toOccasion signal.occasion).run entered
    l.woken.reception found = (ran.1,
      { l.woken.reading b with toDesk := ran.2.note (.finished signal.occasion ran.1) }) := by
  intro entered ran
  have early : l.now < l.deadline := by
    by_contra late
    rw [incoming_of_late (Nat.le_of_not_lt late)] at incoming
    cases incoming
  rw [incoming_of_waited early waited] at incoming
  rw [Connection.reception_of_incoming incoming]
  exact Connection.feed_of_signal (c := l.woken.reading b) meaning

/-- The switch, its outbox and the journal keep in step, over any line and in any surroundings. At every
point of a run before its first failure an echo is due exactly if the switch remembers a frame; that is
then the frame that the journal says is awaited, its sum is what the outbox expects, it is the address
frame, the function frame or a clock frame, of seven bytes and beginning with the answer byte, and
nothing else is outstanding; at the start it is a clock frame, with that exchange under way. While no
echo is due, only a single byte is outstanding, the release or the bare answer. The retries stay within
the settings' budget, and a clock is under way only if the settings ask for it. The reaction to each
byte, whether it fails or not, runs at a desk where no echo is due; and through the whole run, the
failure included, the journal has no echo awaited wherever such a reaction begins or a frame is
submitted, taken or refused. -/
theorem run_accord {settings : SwitchSettings} {switch : Switch}
    (h : Switch.ofSettings settings = .ok switch) (line : τ) (world : ω) (n : Nat) :
    let run := Loop.run settings (.fresh line switch Switch.reactions) world
    let l := (run n).2
    let d := l.connection.toDesk
    ((∀ fault, (run n).1 ≠ .ended (.failed fault)) →
      (d.outbox.echo.armed = true ↔ ∃ f, d.host.lastFrame = some f) ∧
      d.owed = d.host.lastFrame ∧
      (∀ f, d.host.lastFrame = some f →
        d.outbox.echo.expected = UInt8.ofNat (f.map UInt8.toNat).sum ∧
        (f = switch.address ∨ f = switch.command ∨
          (∃ t, f = Frame.clock t settings.house) ∧ f.length = 7 ∧ f.head? = some 0x9B) ∧
        (∀ g, d.outbox.pending = some g → g = f) ∧
        (d.host.stage = .start →
          (∃ t, f = Frame.clock t settings.house) ∧ d.host.isBusy = true)) ∧
      (d.outbox.echo.armed = false → ∀ g, d.outbox.pending = some g → g = [0x00] ∨ g = [0x9B]) ∧
      d.host.retries ≤ settings.maxRetries.toNat ∧
      (d.host.isBusy = true → settings.setClock = true)) ∧
    (∀ found b signal, (run n).1 = .waiting → l.waited.1 = .ok found → l.incoming = some b →
      (d.outbox.echo.classify b).1 = .ok signal →
      let entered := (l.woken.reading b).toDesk.attending b signal.occasion
      let ran := (Switch.reactions.toOccasion signal.occasion).run entered
      entered.outbox.echo.armed = false ∧ l.woken.reception found = (ran.1,
        { l.woken.reading b with toDesk := ran.2.note (.finished signal.occasion ran.1) })) ∧
    ∀ before event after, d.journal = before ++ event :: after → event.isDeed = true →
      Taking.owedOf before.reverse = none := by
  intro run l d
  refine ⟨fun ok => ?_, ?_, ?_⟩
  · obtain ⟨-, haccord⟩ := Switch.kept_accord.run_of_not_failed settings line switch world
      (Desk.Accord.fresh h) n ok
    obtain ⟨-, hsession⟩ := (Switch.kept_inSession switch.plan).run_of_not_failed settings line switch
      world (Desk.InSession.fresh h) n ok
    change d.Accord at haccord
    change d.InSession switch.plan at hsession
    have hplan : d.host.plan = switch.plan := hsession.planned
    refine ⟨?_, haccord.owed, fun f last => haccord.awaits h hplan last, ?_, ?_, ?_⟩
    · rw [haccord.armed, Option.isSome_iff_exists]
    · intro idle g hg
      exact haccord.plain g (haccord.toInStep.lastFrame_eq_none idle) hg
    · have hmax : switch.plan.maxRetries = settings.maxRetries.toNat := by
        obtain ⟨_, _, -, -, rfl⟩ := Switch.eq_of_ofSettings h
        rfl
      rw [← hmax, ← hplan]
      exact haccord.retries
    · intro busy
      have hset : switch.plan.setClock = settings.setClock := by
        obtain ⟨_, _, -, -, rfl⟩ := Switch.eq_of_ofSettings h
        rfl
      rw [← hset, ← hplan]
      exact haccord.clock busy
  · intro found b signal hwaiting waited incoming meaning
    obtain ⟨⟨hreactions, -⟩, -⟩ := run_before_turn h line world n hwaiting
    have hreception := reception_of_signal waited incoming meaning
    rw [show l.connection.reactions = Switch.reactions from hreactions] at hreception
    exact ⟨rfl, hreception⟩
  · have hundisturbed : d.Undisturbed :=
      (Switch.kept_accord.run settings line switch world n (Desk.Accord.fresh h)).fails
        fun _ hd => hd.undisturbed
    intro before event after hjournal hdeed
    refine hundisturbed after.reverse event before.reverse ?_ hdeed
    have hreverse := congrArg List.reverse hjournal
    simpa [Desk.journal] using hreverse

/-- The waits of an exchange whose interface first asks for the time. -/
def ScriptedWaits.timeFirst : ScriptedWaits ScriptedLine where
  waits := [{ finding := .ok { readable := [42] } }, { finding := .ok { readable := [42] } }]

/-- An interface that first asks for the time, on a line that cannot be written yet: the clock frame is
outstanding before the address frame is sent, and its echo, should it come so early, calls for its
release at a desk where no echo is due any more. -/
theorem run_accord_timeFirst :
    let settings : SwitchSettings := { setClock := true }
    let switch : Switch :=
      { address := [0x04, 0x6E], command := [0x06, 0x62], maxRetries := 3, setClock := true,
        monitored := .A }
    let clock : Frame := [0x9B, 0x00, 0x00, 0x00, 0x00, 0x10, 0x60]
    let line : ScriptedLine := { reads := [.byte 0xA5, .byte 0x0B], free := false }
    let run := Loop.run settings (.fresh line switch Switch.reactions) ScriptedWaits.timeFirst
    let l := (run 1).2
    let d := l.connection.toDesk
    Switch.ofSettings settings = .ok switch ∧ (run 1).1 = .waiting ∧ d.host.stage = .start ∧
      d.host.lastFrame = some clock ∧ d.outbox.pending = some clock ∧ l.incoming = some 0x0B ∧
      d.owed = d.host.lastFrame ∧ (∃ t, clock = Frame.clock t settings.house) ∧
      d.host.isBusy = true ∧
      (let entered := (l.woken.reading 0x0B).toDesk.attending 0x0B .echoMatched
       let ran := Switch.onEchoMatched.run entered
       entered.outbox.echo.armed = false ∧ l.woken.reception { readable := [42] } = (ran.1,
        { l.woken.reading 0x0B with toDesk := ran.2.note (.finished .echoMatched ran.1) })) ∧
      ∀ before event after, d.journal = before ++ event :: after → event.isDeed = true →
        Taking.owedOf before.reverse = none := by
  intro settings switch clock line run l d
  have hswitch : Switch.ofSettings settings = .ok switch := by decide
  have hwaiting : (run 1).1 = .waiting := by decide
  have hclock : d.host.lastFrame = some clock := by decide
  have hwaited : l.waited.1 = .ok { readable := [42] } := by decide
  have hincoming : l.incoming = some 0x0B := by decide
  obtain ⟨hstep, hreacts, hjournal⟩ :=
    run_accord hswitch line ScriptedWaits.timeFirst 1
  obtain ⟨-, howed, hframe, -⟩ := hstep fun fault hfailed => by
    rw [show _ = _ from hwaiting] at hfailed
    cases hfailed
  obtain ⟨-, -, -, hstart⟩ := hframe clock hclock
  obtain ⟨hkind, hbusy⟩ := hstart (by decide)
  exact ⟨hswitch, hwaiting, by decide, hclock, by decide, hincoming, howed, hkind, hbusy,
    hreacts { readable := [42] } 0x0B .echoMatched hwaiting hwaited hincoming (by decide), hjournal⟩

end Loop

end Powerline
