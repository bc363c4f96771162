/-
What a turn that does not fail does at the desk of a switch: the byte it feeds is heard, then the
next bytes of the outstanding frame are written, and then the loop may queue the address frame.
-/
import Powerline.Proofs.Switch.Step

namespace Powerline

variable {τ ω : Type}

namespace Switch

/-! ## The parts of a turn -/

/-- The byte of a turn, if it has one, is read and heard, and meets no failure. -/
def Heard (incoming : Option UInt8) (d d' : Desk Switch) : Prop :=
  match incoming with
  | none => d' = d
  | some b => Hearing b (d.note (.read b)) (.ok ()) d'

/-- What a transmission that does not fail does: nothing is written, some of the outstanding frame,
or its rest. -/
inductive Transmitting (d : Desk Switch) : Desk Switch → Prop where
  | nothing : Transmitting d d
  | partly {frame : Frame} {n : Nat} (pending : d.outbox.pending = some frame)
      (more : d.outbox.sent + n < frame.length) : Transmitting d (d.advanced n)
  | last {frame : Frame} (pending : d.outbox.pending = some frame) :
      Transmitting d
        (((d.released frame).note (.reacted .drained)).note (.finished .drained (.ok ())))

/-- What the loop does after a tick: it queues the address frame, or nothing. -/
inductive Addressing (d : Desk Switch) : Desk Switch → Prop where
  | nothing : Addressing d d
  | address (start : d.host.stage = .start) (calm : d.host.clockInFlight = false)
      (free : d.outbox.pending = none) (idle : d.outbox.echo.armed = false) :
      Addressing d ((d.queue .verified d.host.address).withHost d.host.addressSent)

theorem addressing {c c' : Connection τ Switch} (h : c.toDesk.InStep)
    (sent : Exchange.sendAddress c = (.ok (), c')) : Addressing c.toDesk c'.toDesk := by
  rcases Exchange.sendAddress_cases h.sendable.address with hs | ⟨start, calm, free, idle, hs⟩ <;>
    rw [hs] at sent <;> cases sent
  · exact .nothing
  · exact .address start calm free idle

section
variable {d d' : Desk Switch}

theorem Heard.inStep {incoming : Option UInt8} (h : d.InStep) (hh : Heard incoming d d') :
    d'.InStep := by
  cases incoming with
  | none => exact hh ▸ h
  | some b => exact (h.note (.read b)).hear hh

theorem Transmitting.inStep (h : d.InStep) (ht : Transmitting d d') : d'.InStep := by
  cases ht with
  | nothing => exact h
  | partly pending more => exact h.advanced pending more
  | last pending => exact ((h.released _).note _).note _

theorem Transmitting.host (ht : Transmitting d d') : d'.host = d.host := by
  cases ht <;> rfl

end

section
variable [Line τ]

theorem transmitting {c c' : Connection τ Switch} {waited writable : Bool}
    (hr : c.reactions = reactions) (h : c.outbox.Unfinished)
    (sent : c.transmit waited writable = (.ok (), c')) : Transmitting c.toDesk c'.toDesk := by
  have hends : Ends (fun c' => Transmitting c.toDesk c'.toDesk) (fun _ => True)
      (c.transmit waited writable) := by
    refine Connection.transmit_ends
      (P := fun c' => c'.reactions = reactions ∧ c'.toDesk = c.toDesk) (fun _ _ => trivial) ?_
      (fun _ h => h) ?_ waited writable ⟨hr, rfl⟩
    · rintro c' ⟨-, hd⟩
      rw [hd]
      exact .nothing
    · rintro c' ⟨hr', hd⟩
      have hdraining := Connection.draining (c := c') (by rw [hd]; exact h)
      rw [← hd]
      unfold Ends
      generalize c'.drain.1 = result, c'.drain.2 = c'' at hdraining
      cases hdraining with
      | idle free => exact .nothing
      | failed pending nothing => trivial
      | partly pending took pos more => exact .partly pending more
      | last pending took unfinished rest =>
        rw [hr']
        exact .last pending
  rw [sent] at hends
  exact hends

end

end Switch

/-! ## A turn -/

/-- A turn that does not fail: what its wait found, and the connection once the byte is heard and once
the next bytes are written. -/
theorem Loop.turn_of_not_failed [Line τ] [Surroundings ω τ] {l : Loop ω τ}
    (h : Switch.OnDesk Desk.InStep l.connection)
    (ok : ∀ fault, l.turn.1 ≠ some (.failed fault)) :
    ∃ found, ∃ c₁ c₂ : Connection τ Switch, l.waited.1 = .ok found ∧
      c₁.reactions = Switch.reactions ∧ Switch.Heard l.incoming l.woken.toDesk c₁.toDesk ∧
      c₁.transmit l.connection.outbox.isPending (found.isWritable (Line.handle l.waited.2.2)) =
        (.ok (), c₂) ∧
      Exchange.sendAddress c₂ = (.ok (), l.turn.2.connection) := by
  have hturning := l.turning
  generalize l.turn.1 = verdict, l.turn.2 = l' at hturning ok ⊢
  cases hturning with
  | late late => exact absurd rfl (ok _)
  | unready early wait => exact absurd rfl (ok _)
  | broken early wait tick => exact absurd rfl (ok _)
  | refused early wait tick address => exact absurd rfl (ok _)
  | @ticked found c c' early wait tick address =>
    have hstep : l.woken.toDesk.InStep := h.2.time _
    rw [Loop.incoming_of_waited early wait]
    cases hb : l.woken.incoming found with
    | none =>
      rcases Connection.tick_of_silent hb with ht | ⟨reason, ht⟩ <;> rw [ht] at tick
      · exact ⟨found, l.woken, c, wait, h.1, rfl, tick, address⟩
      · cases tick
    | some b =>
      have hread := hstep.note (.read b)
      have hhearing := Switch.hear_hearing hread.sendable b
      rw [Connection.tick_of_incoming hb, Connection.feed_eq] at tick
      rw [show (l.woken.reading b).reactions = Switch.reactions from h.1] at tick
      rcases hh : (l.woken.toDesk.note (.read b)).hear b Switch.reactions with ⟨fault | _, d⟩ <;>
        rw [hh] at hhearing <;> simp only [Connection.reading, hh] at tick
      · cases tick
      · exact ⟨found, { l.woken.reading b with toDesk := d, reactions := Switch.reactions }, c, wait,
          rfl, hhearing, tick, address⟩

/-! ## A turn, failing or not -/

/-- A transmission that fails leaves the desk as it is. -/
theorem Switch.transmit_failed [Line τ] {c c' : Connection τ Switch} {waited writable : Bool}
    {fault : Fault} (hr : c.reactions = reactions) (h : c.outbox.Unfinished)
    (sent : c.transmit waited writable = (.error fault, c')) :
    c'.toDesk = c.toDesk ∧ ∃ reason, fault = .writeFailed reason := by
  constructor
  · have hends : Ends (fun _ => True) (fun c' => c'.toDesk = c.toDesk)
        (c.transmit waited writable) := by
      refine Connection.transmit_ends
        (P := fun c' => c'.reactions = reactions ∧ c'.toDesk = c.toDesk) (fun _ h => h.2)
        (fun _ _ => trivial) (fun _ h => h) ?_ waited writable ⟨hr, rfl⟩
      rintro c' ⟨hr', hd⟩
      have hdraining := Connection.draining (c := c') (by rw [hd]; exact h)
      unfold Ends
      generalize c'.drain.1 = result, c'.drain.2 = c'' at hdraining
      cases hdraining with
      | idle free => trivial
      | failed pending nothing => exact hd
      | partly pending took pos more => trivial
      | last pending took unfinished rest =>
        -- there is no reaction to a release that could fail
        rw [hr']
        trivial
    rw [sent] at hends
    exact hends
  · rcases Connection.transmit_error (congrArg Prod.fst sent) with hwrite | ⟨before, left, hrun, -⟩
    · exact hwrite
    · rw [hr] at hrun
      cases hrun

/-- What a turn does at the desk of a switch, with its verdict and the desk after it. Either the
deadline, the surroundings or the line stop it, or the byte that it feeds meets a failure, or it
comes to its end. -/
inductive Switch.Course [Line τ] [Surroundings ω τ] (l : Loop ω τ) :
    Option Verdict → Desk Switch → Prop where
  | late (silent : l.incoming = none) :
      Course l (some (.failed .timeout)) l.connection.toDesk
  | unready {fault : IoFault} (silent : l.incoming = none) :
      Course l (some (.failed (.io fault))) l.connection.toDesk
  | unread {reason : String} (silent : l.incoming = none) :
      Course l (some (.failed (.readFailed reason))) l.woken.toDesk
  | refused {b : UInt8} {fault : Fault} {d : Desk Switch} (incoming : l.incoming = some b)
      (hearing : Hearing b (l.woken.toDesk.note (.read b)) (.error fault) d) :
      Course l (some (.failed fault)) d
  | unwritten {reason : String} {d : Desk Switch} (heard : Heard l.incoming l.woken.toDesk d) :
      Course l (some (.failed (.writeFailed reason))) d
  | whole {verdict : Option Verdict} {d₁ d₂ d₃ : Desk Switch}
      (ok : ∀ fault, verdict ≠ some (.failed fault)) (heard : Heard l.incoming l.woken.toDesk d₁)
      (transmitting : Transmitting d₁ d₂) (addressing : Addressing d₂ d₃) : Course l verdict d₃

/-- A turn that feeds a byte comes to an end with it if it meets a failure, and otherwise writes, unless
the line fails, and then the loop may queue the address frame. -/
theorem Switch.Course.hearing [Line τ] [Surroundings ω τ] {l : Loop ω τ} {verdict : Option Verdict}
    {d : Desk Switch} {b : UInt8} (h : Course l verdict d) (incoming : l.incoming = some b) :
    ∃ r d₁, Hearing b (l.woken.toDesk.note (.read b)) r d₁ ∧
      match r with
      | .error fault => verdict = some (.failed fault) ∧ d = d₁
      | .ok () => d = d₁ ∨ ∃ d₂, Transmitting d₁ d₂ ∧ Addressing d₂ d := by
  cases h with
  | late silent | unready silent | unread silent =>
    rw [silent] at incoming
    cases incoming
  | refused incoming' hearing =>
    obtain rfl := Option.some.inj (incoming.symm.trans incoming')
    exact ⟨_, d, hearing, rfl, rfl⟩
  | unwritten heard =>
    rw [incoming] at heard
    exact ⟨_, d, heard, .inl rfl⟩
  | whole ok heard transmitting addressing =>
    rw [incoming] at heard
    exact ⟨_, _, heard, .inr ⟨_, transmitting, addressing⟩⟩

theorem Loop.course [Line τ] [Surroundings ω τ] {l : Loop ω τ}
    (h : Switch.OnDesk Desk.InStep l.connection) :
    Switch.Course l l.turn.1 l.turn.2.connection.toDesk := by
  by_cases ok : ∀ fault, l.turn.1 ≠ some (.failed fault)
  · obtain ⟨found, c₁, c₂, wait, hr₁, heard, sent, address⟩ := Loop.turn_of_not_failed h ok
    have hstep₁ : c₁.toDesk.InStep := heard.inStep (h.2.time _)
    have transmitting := Switch.transmitting hr₁ hstep₁.unfinished sent
    exact .whole ok heard transmitting
      (Switch.addressing (transmitting.inStep hstep₁) address)
  push Not at ok
  obtain ⟨fault, hfault⟩ := ok
  have hstep : l.woken.toDesk.InStep := h.2.time _
  have hturning := l.turning
  generalize l.turn.1 = verdict, l.turn.2 = l' at hturning hfault ⊢
  cases hturning with
  | late late => exact .late (Loop.incoming_of_late late)
  | unready early wait => exact .unready (Loop.incoming_of_unready early wait)
  | @broken found fault' c early wait tick =>
    have hincoming := Loop.incoming_of_waited early wait
    cases hb : l.woken.incoming found with
    | none =>
      rcases Connection.tick_of_silent hb with ht | ⟨reason, ht⟩ <;> rw [ht] at tick
      · obtain ⟨hdesk, reason, rfl⟩ := Switch.transmit_failed (c := l.woken) h.1 hstep.unfinished tick
        refine .unwritten ?_
        rw [hincoming, hb]
        exact hdesk
      · cases tick
        exact .unread (hincoming.trans hb)
    | some b =>
      have hread := hstep.note (.read b)
      have hhearing := Switch.hear_hearing hread.sendable b
      rw [Connection.tick_of_incoming hb, Connection.feed_eq] at tick
      rw [show (l.woken.reading b).reactions = Switch.reactions from h.1] at tick
      rcases hh : (l.woken.toDesk.note (.read b)).hear b Switch.reactions with ⟨e | _, d⟩ <;>
        rw [hh] at hhearing <;> simp only [Connection.reading, hh] at tick
      · cases tick
        exact .refused (hincoming.trans hb) hhearing
      · obtain ⟨hdesk, reason, rfl⟩ := Switch.transmit_failed rfl (hread.hear hhearing).unfinished tick
        refine .unwritten ?_
        rw [hincoming, hb]
        show Switch.Hearing b (l.woken.toDesk.note (.read b)) (.ok ()) c.toDesk
        rw [hdesk]
        exact hhearing
  | @refused found fault' c c' early wait tick address =>
    have hkept := Switch.kept_inStep.connection.tick found (c := l.woken) ⟨h.1, hstep⟩
    rw [tick] at hkept
    obtain ⟨hok, -⟩ := Switch.kept_inStep.sendAddress hkept
    rw [address] at hok
    cases hok
  | @ticked found c c' early wait tick address =>
    split at hfault <;> cases hfault

/-! ## Along a run -/

namespace Loop

variable [Line τ] [Surroundings ω τ] {settings : SwitchSettings} {switch : Switch}

/-- Before every turn of a run the switch is in step with its outbox, and not done. -/
theorem run_before_turn (h : Switch.ofSettings settings = .ok switch) (line : τ) (world : ω) :
    let run := Loop.run settings (.fresh line switch Switch.reactions) world
    ∀ n, (run n).1 = .waiting →
      Switch.OnDesk Desk.InStep (run n).2.connection ∧ (run n).2.connection.host.stage ≠ .done := by
  intro run n hwaiting
  have hok : ∀ fault, (run n).1 ≠ .ended (.failed fault) := by
    intro fault
    rw [hwaiting]
    simp
  refine ⟨Switch.kept_inStep.run_of_not_failed settings line switch world (Desk.InStep.fresh h) n
    hok, ?_⟩
  obtain ⟨_, _, -, -, rfl⟩ := Switch.eq_of_ofSettings h
  exact (run_tells settings line _ world n (by simp)).2 (congrArg Outcome.verdict? hwaiting)

/-- A run that has ended so has left the switch done. -/
theorem stage_of_run_done (h : Switch.ofSettings settings = .ok switch) (line : τ) (world : ω)
    (n : Nat) :
    let run := Loop.run settings (.fresh line switch Switch.reactions) world
    (run n).1 = .ended .done → (run n).2.connection.host.stage = .done := by
  intro run hdone
  obtain ⟨_, _, -, -, rfl⟩ := Switch.eq_of_ofSettings h
  exact (run_tells settings line _ world n (by simp)).1 (congrArg Outcome.verdict? hdone)

end Loop

end Powerline
