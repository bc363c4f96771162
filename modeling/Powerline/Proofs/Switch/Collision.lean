/-
When a switch is refused room for a frame. The echo is due from the moment a frame is queued, so a
byte that arrives before the frame is written is taken for its echo, and what it calls for finds
the outbox taken; so does the function frame if the report of readiness overtakes a single byte
that is still to be written. Nothing else ends an exchange with a refusal.
-/
import Powerline.Proofs.Switch.Step
import Powerline.Script.Line
import Powerline.Script.Waits

namespace Powerline

variable {τ ω : Type}

namespace Switch

/-- A byte that calls for a frame while another is outstanding: an echo, unless it is a wrong one
and the frame may not be sent again, or the report of readiness that the function frame waits for. -/
def Collides (b : UInt8) (d : Desk Switch) : Prop :=
  d.outbox.isPending = true ∧
    if d.outbox.echo.armed then b = d.outbox.echo.expected ∨ d.host.retries < d.host.maxRetries
    else b = 0x55 ∧ d.host.stage = .sentAddress ∧ d.host.clockInFlight = false

/-- While the switch is in step with its outbox, a refusal is a collision. -/
theorem hearing_alreadyPending_iff {b : UInt8} {d d' : Desk Switch} {r : Except Fault Unit}
    (h : d.InStep) (hh : Hearing b d r d') : r = .error .alreadyPending ↔ Collides b d := by
  have hfree : d.outbox.pending = none → ¬ Collides b d := by
    rintro free ⟨taken, -⟩
    rw [Outbox.isPending_of_none free] at taken
    cases taken
  cases hh with
  | release armed matched free => exact iff_of_false (by simp) (hfree free)
  | releaseRefused armed matched taken => simp [Collides, armed, taken, matched]
  | resend armed differed last left free => exact iff_of_false (by simp) (hfree free)
  | resendRefused armed differed last left taken => simp [Collides, armed, taken, left]
  | giveUp armed differed last spent hfault =>
    refine iff_of_false (by simp [hfault]) ?_
    simp [Collides, armed, differed, spent]
  | disowned armed differed last =>
    obtain ⟨f, hf⟩ := h.lastFrame_eq_some armed
    rw [last] at hf
    cases hf
  | clockOver idle hb busy => exact iff_of_false (by simp) (by simp [Collides, idle, busy])
  | command idle hb calm stage free => exact iff_of_false (by simp) (hfree free)
  | commandRefused idle hb calm stage taken => simp [Collides, idle, hb, calm, stage, taken]
  | switched idle hb calm stage => exact iff_of_false (by simp) (by simp [Collides, idle, stage])
  | unasked idle hb calm stage =>
    refine iff_of_false (by simp) ?_
    rcases stage with stage | stage <;> simp [Collides, idle, stage]
  | poll idle hb => exact iff_of_false (by simp) (by simp [Collides, idle, hb])
  | timeIgnored idle hb taken => exact iff_of_false (by simp) (by simp [Collides, idle, hb])
  | clock idle hb set free => exact iff_of_false (by simp) (hfree free)
  | timeAnswer idle hb unset free => exact iff_of_false (by simp) (hfree free)
  | unknown idle h55 h5A hA5 => exact iff_of_false (by simp) (by simp [Collides, idle, h55])

end Switch

/-! ## Turns -/

section
variable [Line τ]

theorem Exchange.resume_alreadyPending_iff (time : Moment) (found : Readiness) {x : Exchange τ}
    (h : Switch.OnDesk Desk.InStep x.connection) :
    (x.resume time found).1 = some (.failed .alreadyPending) ↔
      ∃ b, x.connection.incoming found = some b ∧ Switch.Collides b x.connection.toDesk := by
  obtain ⟨hr, hd⟩ := h
  set c : Connection τ Switch :=
    { x.connection with host := { x.connection.host with localTime := time } } with hc
  have hrc : c.reactions = Switch.reactions := hr
  have hstep : c.toDesk.InStep := hd.time time
  have hticked : (c.tick found).1 = .error .alreadyPending ↔
      ∃ b, c.incoming found = some b ∧ Switch.Collides b c.toDesk := by
    rw [Connection.tick_error_iff (by rw [hrc]; rfl) (by simp) (by simp)]
    refine exists_congr fun b => and_congr_right fun _ => ?_
    have hread := hstep.note (.read b)
    rw [hrc]
    show _ ↔ Switch.Collides b (c.toDesk.note (.read b))
    exact Switch.hearing_alreadyPending_iff hread (Switch.hear_hearing hread.sendable b)
  have htick := Switch.kept_inStep.connection.tick found (c := c) ⟨hr, hstep⟩
  refine Iff.trans ?_ hticked
  unfold Exchange.resume
  simp only [← hc]
  rcases ht : c.tick found with ⟨fault | _, c'⟩ <;> rw [ht] at htick
  · simp
  · obtain ⟨hok, -⟩ := Switch.kept_inStep.sendAddress htick
    rcases hs : Exchange.sendAddress c' with ⟨fault | _, c''⟩ <;> rw [hs] at hok
    · cases hok
    · simp [hs]

variable [Surroundings ω τ]

theorem Loop.turn_alreadyPending_iff {l : Loop ω τ} (h : Switch.OnDesk Desk.InStep l.connection) :
    l.turn.1 = some (.failed .alreadyPending) ↔
      ∃ b, l.incoming = some b ∧ Switch.Collides b l.connection.toDesk := by
  unfold Loop.turn Loop.incoming
  rcases Surroundings.clock τ l.world with ⟨now, world⟩
  simp only
  rcases l.toExchange.head now with _ | ⟨wanted, cap⟩
  · simp
  · simp only
    rcases Surroundings.wait wanted cap world l.connection.line with ⟨e | found, world, line⟩
    · simp
    · exact Exchange.resume_alreadyPending_iff _ found
        (x := { l.toExchange with connection := { l.connection with line } }) h

end

/-! ## Along a run -/

/-- Failure of a run with a refusal, at the exact condition: some turn that the loop came to, with
no verdict so far, fed a byte that collided with what was outstanding. -/
theorem Loop.run_alreadyPending_iff [Line τ] [Surroundings ω τ] {settings : SwitchSettings}
    {switch : Switch} (h : Switch.ofSettings settings = .ok switch) (line : τ) (world : ω) (n : Nat) :
    let run := Loop.run settings (.fresh line switch Switch.reactions) world
    (run n).1 = .ended (.failed .alreadyPending) ↔
      ∃ k < n, (run k).1 = .waiting ∧ ∃ b, (run k).2.incoming = some b ∧
        Switch.Collides b (run k).2.connection.toDesk := by
  intro run
  obtain ⟨l, hl, hrun⟩ := Loop.run_cases settings (.fresh line switch Switch.reactions) world
  change (∀ n, run n = _) ∨ ∀ n, run n = _ at hrun
  have hdesk : Switch.OnDesk Desk.InStep l.connection := by
    rw [hl]; exact ⟨rfl, Desk.InStep.fresh h⟩
  rcases hrun with hrun | hrun <;> simp only [hrun]
  · simp
  -- at the head of the loop the switch is in step, so the turn is refused if and only if it collides
  have hturn : ∀ k, (l.turns k).1 = none → ((l.turns k).2.turn.1 = some (.failed .alreadyPending) ↔
      ∃ b, (l.turns k).2.incoming = some b ∧
        Switch.Collides b (l.turns k).2.connection.toDesk) := by
    intro k hnone
    have hk := Switch.kept_inStep.turns k hdesk
    rw [hnone] at hk
    exact Loop.turn_alreadyPending_iff hk
  have hended : ∀ v : Option Verdict,
      Outcome.ofVerdict? v = .ended (.failed .alreadyPending) ↔
        v = some (.failed .alreadyPending) := by
    rintro (_ | v) <;> simp [Outcome.ofVerdict?]
  have hwaiting : ∀ v : Option Verdict, Outcome.ofVerdict? v = .waiting ↔ v = none := by
    rintro (_ | v) <;> simp [Outcome.ofVerdict?]
  rw [hended]
  constructor
  · intro hn
    obtain ⟨k, hk, hnone, hlast⟩ := Loop.turns_eq_some_iff.1 (Prod.ext hn rfl)
    exact ⟨k, hk, (hwaiting _).2 hnone, (hturn k hnone).1 (by rw [hlast])⟩
  · rintro ⟨k, hk, hnone, hcollides⟩
    have hnone' := (hwaiting _).1 hnone
    have hlast := (hturn k hnone').2 hcollides
    rw [Loop.turns_eq_some_iff.2 ⟨k, hk, hnone', Prod.ext hlast rfl⟩]

/-- The waits of an exchange that begins with the interface having data to hand over before the
address frame is written, and goes on as it should. -/
def ScriptedWaits.earlyPoll : ScriptedWaits ScriptedLine where
  waits :=
    let readable := { finding := .ok { readable := [42] } }
    [{ finding := .ok {} }, readable, { finding := .ok { writable := [42] } }, readable, readable,
      readable, readable]

/-- The announcement is taken for a wrong echo of the address frame, which is still to be written. -/
theorem Loop.run_alreadyPending_earlyPoll :
    let switch : Switch :=
      { address := [0x04, 0x6E], command := [0x06, 0x62], maxRetries := 3, setClock := false,
        monitored := .A }
    let line : ScriptedLine :=
      { reads := [.byte 0x5A, .byte 0x72, .byte 0x55, .byte 0x68, .byte 0x55] }
    Switch.ofSettings {} = .ok switch ∧
      (Loop.run {} (.fresh line switch Switch.reactions) ScriptedWaits.earlyPoll 7).1 =
        .ended (.failed .alreadyPending) := by
  decide

/-- The exact condition, at that exchange. -/
theorem Loop.run_alreadyPending_iff_earlyPoll :
    let switch : Switch :=
      { address := [0x04, 0x6E], command := [0x06, 0x62], maxRetries := 3, setClock := false,
        monitored := .A }
    let line : ScriptedLine :=
      { reads := [.byte 0x5A, .byte 0x72, .byte 0x55, .byte 0x68, .byte 0x55] }
    let run := Loop.run {} (.fresh line switch Switch.reactions) ScriptedWaits.earlyPoll
    Switch.ofSettings {} = .ok switch ∧ (run 1).2.incoming = some 0x5A ∧
      ((run 7).1 = .ended (.failed .alreadyPending) ↔
        ∃ k < 7, (run k).1 = .waiting ∧ ∃ b, (run k).2.incoming = some b ∧
          Switch.Collides b (run k).2.connection.toDesk) :=
  ⟨rfl, rfl, Loop.run_alreadyPending_iff rfl _ _ _⟩

end Powerline
