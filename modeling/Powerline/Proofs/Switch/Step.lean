/-
The switch and its outbox keep in step. While an echo is due the switch knows whose it is, and
nothing but that frame is outstanding; while none is due only a single byte can be. Nothing that
goes on without a failure breaks this.
-/
import Powerline.Proofs.Exchange
import Powerline.Proofs.Switch.Plan

namespace Powerline

/-- What a switch can be waiting for the echo of: a clock frame while one is on its way, and
otherwise the frame of its stage. -/
def Switch.Due (s : Switch) (frame : Frame) : Prop :=
  (s.clockInFlight = true ∧ ∃ t, frame = Frame.clock t s.monitored) ∨
    (s.clockInFlight = false ∧ s.stage = .sentAddress ∧ frame = s.address) ∨
    (s.clockInFlight = false ∧ s.stage = .sentCommand ∧ frame = s.command)

theorem Switch.Due.ne_nil {s : Switch} {frame : Frame} (hw : s.plan.WellFormed)
    (h : s.Due frame) : frame ≠ [] := by
  rcases h with ⟨-, t, rfl⟩ | ⟨-, -, rfl⟩ | ⟨-, -, rfl⟩
  · exact List.cons_ne_nil _ _
  · exact hw.address_ne_nil
  · exact hw.command_ne_nil

namespace Desk

/-- The switch and its outbox are in step. -/
structure InStep (d : Desk Switch) : Prop where
  plan : d.host.plan.WellFormed
  unfinished : d.outbox.Unfinished
  armed : d.outbox.echo.armed = d.host.lastFrame.isSome
  expected : ∀ f, d.host.lastFrame = some f → d.outbox.echo.expected = f.checksum
  due : ∀ f, d.host.lastFrame = some f → d.host.Due f
  awaited : ∀ f g, d.host.lastFrame = some f → d.outbox.pending = some g → g = f
  plain : ∀ g, d.host.lastFrame = none → d.outbox.pending = some g →
    g = [Frame.release] ∨ g = [Frame.timeAnswer]
  retries : d.host.retries ≤ d.host.maxRetries
  clock : d.host.clockInFlight = true → d.host.setClock = true

namespace InStep

variable {d : Desk Switch}

/-- With no frame remembered and no echo due, all that is to be seen to is that at most a single byte
is outstanding. -/
theorem ofIdle (hw : d.host.plan.WellFormed) (hlast : d.host.lastFrame = none)
    (idle : d.outbox.echo.armed = false) (unfinished : d.outbox.Unfinished)
    (plain : ∀ g, d.outbox.pending = some g → g = [Frame.release] ∨ g = [Frame.timeAnswer])
    (hretries : d.host.retries ≤ d.host.maxRetries)
    (hclock : d.host.clockInFlight = true → d.host.setClock = true) : d.InStep := by
  have hno : ∀ f, d.host.lastFrame ≠ some f := by
    intro f hf
    rw [hlast] at hf
    cases hf
  constructor
  · exact hw
  · exact unfinished
  · rw [idle, hlast]; rfl
  · exact fun f hf => absurd hf (hno f)
  · exact fun f hf => absurd hf (hno f)
  · exact fun f _ hf => absurd hf (hno f)
  · exact fun g _ => plain g
  · exact hretries
  · exact hclock

theorem fresh {settings : SwitchSettings} {s : Switch} (h : Switch.ofSettings settings = .ok s) :
    InStep { host := s } := by
  have hw := Switch.wellFormed_ofSettings h
  obtain ⟨address, command, -, -, rfl⟩ := Switch.eq_of_ofSettings h
  refine ofIdle hw rfl rfl ?_ ?_ (Nat.zero_le _) ?_
  · rintro f ⟨⟩
  · rintro g ⟨⟩
  · rintro ⟨⟩

theorem sendable (h : d.InStep) : d.host.Sendable :=
  ⟨h.plan.address_ne_nil, h.plan.command_ne_nil, fun f hf => (h.due f hf).ne_nil h.plan⟩

theorem note (h : d.InStep) (event : Event) : (d.note event).InStep :=
  ⟨h.plan, h.unfinished, h.armed, h.expected, h.due, h.awaited, h.plain, h.retries, h.clock⟩

theorem time (h : d.InStep) (t : Moment) :
    (d.withHost { d.host with localTime := t }).InStep :=
  ⟨h.plan, h.unfinished, h.armed, h.expected, h.due, h.awaited, h.plain, h.retries, h.clock⟩

theorem advanced (h : d.InStep) {n : Nat} {frame : Frame} (hp : d.outbox.pending = some frame)
    (hn : d.outbox.sent + n < frame.length) : (d.advanced n).InStep :=
  ⟨h.plan, unfinished_advanced hp hn, h.armed, h.expected, h.due, h.awaited, h.plain, h.retries,
    h.clock⟩

/-- The outbox is emptied; what echo is due is not for a release to change. -/
theorem released (h : d.InStep) (frame : Frame) : (d.released frame).InStep := by
  have hnone : ∀ g, (d.released frame).outbox.pending ≠ some g := fun g hg => by cases hg
  exact ⟨h.plan, fun g hg => absurd hg (hnone g), h.armed, h.expected, h.due,
    fun _ g _ hg => absurd hg (hnone g), fun g _ hg => absurd hg (hnone g), h.retries, h.clock⟩

/-- While an echo is due its frame is remembered. -/
theorem lastFrame_eq_some (h : d.InStep) (armed : d.outbox.echo.armed = true) :
    ∃ f, d.host.lastFrame = some f := by
  rw [h.armed] at armed
  exact Option.isSome_iff_exists.1 armed

/-- While no echo is due no frame is remembered. -/
theorem lastFrame_eq_none (h : d.InStep) (idle : d.outbox.echo.armed = false) :
    d.host.lastFrame = none := by
  rw [h.armed] at idle
  simpa using idle

/-- A frame queued with verification, which the switch remembers, brings both into step. -/
theorem queue_verified {frame : Frame} (host : Switch) (hw : host.plan.WellFormed)
    (hlast : host.lastFrame = some frame) (hdue : host.Due frame)
    (hretries : host.retries ≤ host.maxRetries)
    (hclock : host.clockInFlight = true → host.setClock = true) :
    ((d.queue .verified frame).withHost host).InStep := by
  have hlast' : ∀ f, host.lastFrame = some f → f = frame := fun f hf =>
    Option.some.inj (hf.symm.trans hlast)
  refine ⟨hw, d.unfinished_queue .verified (hdue.ne_nil hw), ?_, ?_, ?_, ?_, ?_, hretries, hclock⟩
  · rw [Desk.host_withHost, hlast]; rfl
  · intro f hf; rw [hlast' f hf]; rfl
  · intro f hf; rw [hlast' f hf]; exact hdue
  · intro f g hf hg; rw [hlast' f hf]; cases hg; rfl
  · intro g hnone; rw [Desk.host_withHost, hlast] at hnone; cases hnone

/-- So does a single byte queued while no frame is remembered. -/
theorem queue_plain {b : UInt8} (host : Switch) (hw : host.plan.WellFormed)
    (hlast : host.lastFrame = none) (hb : b = Frame.release ∨ b = Frame.timeAnswer)
    (hretries : host.retries ≤ host.maxRetries)
    (hclock : host.clockInFlight = true → host.setClock = true) :
    ((d.withHost host).queue .plain [b]).InStep := by
  refine ofIdle hw hlast rfl ?_ ?_ hretries hclock
  · rintro f ⟨⟩
    exact Nat.one_pos
  · rintro g ⟨⟩
    rcases hb with rfl | rfl
    · exact .inl rfl
    · exact .inr rfl

/-- A change of a switch that remembers no frame, before and after. -/
theorem withHost (h : d.InStep) (host : Switch) (hnone : d.host.lastFrame = none)
    (hw : host.plan.WellFormed) (hlast : host.lastFrame = none)
    (hretries : host.retries ≤ host.maxRetries)
    (hclock : host.clockInFlight = true → host.setClock = true) : (d.withHost host).InStep := by
  have idle : d.outbox.echo.armed = false := by
    rw [h.armed, hnone]; rfl
  exact ofIdle hw hlast idle h.unfinished (fun g => h.plain g hnone) hretries hclock

/-- With no echo due, attending to a byte breaks nothing. -/
theorem attending (h : d.InStep) (idle : d.outbox.echo.armed = false) (b : UInt8)
    (occasion : Occasion) : (d.attending b occasion).InStep := by
  have hnone := h.lastFrame_eq_none idle
  exact ofIdle h.plan hnone rfl h.unfinished (fun g => h.plain g hnone) h.retries h.clock

/-! ### What a switch does -/

/-- The loop's own submission. -/
theorem address (h : d.InStep) (calm : d.host.clockInFlight = false) :
    ((d.queue .verified d.host.address).withHost d.host.addressSent).InStep :=
  queue_verified _ h.plan rfl (.inr (.inl ⟨calm, rfl, rfl⟩)) (Nat.zero_le _) h.clock

/-- The function frame is begun. -/
theorem command (h : d.InStep) (calm : d.host.clockInFlight = false) :
    ((d.queue .verified d.host.command).withHost
      { d.host.queued d.host.command with stage := .sentCommand }).InStep :=
  queue_verified _ h.plan rfl (.inr (.inr ⟨calm, rfl, rfl⟩)) (Nat.zero_le _) h.clock

/-- A clock frame is begun. -/
theorem clockFrame (h : d.InStep) (set : d.host.setClock = true) :
    ((d.queue .verified (Frame.clock d.host.localTime d.host.monitored)).withHost
      { d.host.queued (Frame.clock d.host.localTime d.host.monitored) with
        clockInFlight := true }).InStep :=
  queue_verified _ h.plan rfl (.inl ⟨rfl, _, rfl⟩) (Nat.zero_le _) (fun _ => set)

/-- The frame remembered is tried once more. -/
theorem resend (h : d.InStep) {frame : Frame} (b : UInt8) (last : d.host.lastFrame = some frame)
    (left : d.host.retries < d.host.maxRetries) :
    (((d.attending b .echoDiffered).withHost
      { d.host with retries := d.host.retries + 1 }).queue .verified frame).InStep :=
  queue_verified (d := d.attending b .echoDiffered) { d.host with retries := d.host.retries + 1 }
    h.plan last (h.due _ last) left h.clock

/-- The right echo is answered, and its frame forgotten. -/
theorem release (h : d.InStep) (b : UInt8) :
    (((d.attending b .echoMatched).withHost { d.host with lastFrame := none }).queue .plain
      [Frame.release]).InStep :=
  queue_plain { d.host with lastFrame := none } h.plan rfl (.inl rfl) h.retries h.clock

/-- The bare answer to a request for the time. -/
theorem timeAnswer (h : d.InStep) (idle : d.outbox.echo.armed = false) :
    (d.queue .plain [Frame.timeAnswer]).InStep :=
  queue_plain (d := d) d.host h.plan (h.lastFrame_eq_none idle) (.inr rfl) h.retries h.clock

/-- The clock frame's exchange is over. -/
theorem clockOver (h : d.InStep) (idle : d.outbox.echo.armed = false) :
    (d.withHost { d.host with clockInFlight := false }).InStep :=
  have hnone := h.lastFrame_eq_none idle
  h.withHost { d.host with clockInFlight := false } hnone h.plan hnone h.retries
    fun busy => absurd busy Bool.false_ne_true

/-- The function frame's exchange is over. -/
theorem switched (h : d.InStep) (idle : d.outbox.echo.armed = false) :
    (d.withHost { d.host with stage := .done }).InStep :=
  have hnone := h.lastFrame_eq_none idle
  h.withHost { d.host with stage := .done } hnone h.plan hnone h.retries h.clock

/-- An inbound byte that meets no failure keeps the switch and its outbox in step. -/
theorem hear (h : d.InStep) {b : UInt8} {d' : Desk Switch} (hh : Switch.Hearing b d (.ok ()) d') :
    d'.InStep := by
  cases hh with
  | release armed matched free => exact (h.release b).note _
  | resend armed differed last left free => exact (h.resend b last left).note _
  | disowned armed differed last =>
    obtain ⟨f, hf⟩ := h.lastFrame_eq_some armed
    rw [last] at hf
    cases hf
  | clockOver idle hb busy => exact ((h.attending idle b .interfaceReady).clockOver rfl).note _
  | command idle hb calm stage free =>
    exact ((h.attending idle b .interfaceReady).command calm).note _
  | switched idle hb calm stage => exact ((h.attending idle b .interfaceReady).switched rfl).note _
  | unasked idle hb calm stage => exact (h.attending idle b _).note _
  | poll idle hb => exact (h.attending idle b _).note _
  | timeIgnored idle hb taken => exact (h.attending idle b _).note _
  | clock idle hb set free => exact ((h.attending idle b .timeRequest).clockFrame set).note _
  | timeAnswer idle hb unset free =>
    exact ((h.attending idle b .timeRequest).timeAnswer rfl).note _

end InStep

end Desk

theorem Switch.kept_inStep : Kept Desk.InStep fun _ => True where
  unfinished _ h := h.unfinished
  sendable _ h := h.sendable
  fails _ _ := trivial
  time _ t h := h.time t
  hear d b r d' h hh := by
    rcases r with fault | _
    · -- nothing is claimed of a switch that has failed
      trivial
    · exact (h.note (.read b)).hear hh
  advanced _ _ _ h hp hn := h.advanced hp hn
  drained _ frame h _ := ((h.released frame).note _).note _
  address _ h _ calm _ _ := h.address calm

end Powerline
