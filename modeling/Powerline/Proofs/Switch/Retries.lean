/-
The budget of retries along a run. A turn that feeds a wrong echo sends the frame again if an attempt
is left and room for it, and ends the exchange if none is; no other turn ends it that way. So a run ends
with a failure of the host's exactly when one frame has failed once more than it may be sent again.
-/
import Powerline.Proofs.Switch.Budget

namespace Powerline

variable {τ ω : Type} [Line τ] [Surroundings ω τ]

namespace Loop

variable {p : Plan} {l : Loop ω τ}

/-! ## One turn -/

theorem woken_inBudget (h : Switch.OnDesk (Desk.InBudget p) l.connection) :
    (l.woken.toDesk).InBudget p :=
  h.2.congr (h.2.toInStep.time _) rfl rfl rfl rfl

theorem course_inBudget (h : Switch.OnDesk (Desk.InBudget p) l.connection) :
    Switch.Course l l.turn.1 l.turn.2.connection.toDesk :=
  Loop.course ⟨h.1, h.2.toInStep⟩

/-- A turn that fails, but for the host, leaves the budget unspent. -/
theorem turn_unspent (h : Switch.OnDesk (Desk.InBudget p) l.connection) {fault : Fault}
    (failed : l.turn.1 = some (.failed fault)) (other : ∀ reason, fault ≠ .callback reason) :
    Desk.Unspent p l.turn.2.connection.latest := by
  have hwoken := woken_inBudget h
  have hcourse := course_inBudget h
  rw [failed] at hcourse
  show Desk.Unspent p l.turn.2.connection.toDesk.latest
  generalize l.turn.2.connection.toDesk = d at hcourse ⊢
  cases hcourse with
  | late silent => exact h.2.unspent
  | unready silent => exact h.2.unspent
  | unread silent => exact hwoken.unspent
  | @refused b fault d incoming hearing =>
    exact ((hwoken.read b).hear_error hearing).2 other
  | unwritten heard =>
    rcases hb : l.incoming with _ | b <;> rw [hb] at heard
    · obtain rfl : d = l.woken.toDesk := heard
      exact hwoken.unspent
    · exact ((hwoken.read b).hear heard).unspent
  | whole ok heard transmitting addressing => exact absurd rfl (ok fault)

/-- A turn that the host fails comes after as many failed attempts as that takes. -/
theorem turn_callback (h : Switch.OnDesk (Desk.InBudget p) l.connection) {reason : String}
    (failed : l.turn.1 = some (.failed (.callback reason))) :
    ∃ frame wrong older, p.Verifies frame ∧
      l.turn.2.connection.latest = frame.failures wrong ++ older ∧
      wrong.length = p.maxRetries + 1 ∧ ∀ b ∈ wrong, b ≠ frame.checksum := by
  have hcourse := course_inBudget h
  rw [failed] at hcourse
  show ∃ frame wrong older, _ ∧ l.turn.2.connection.toDesk.latest = _ ∧ _
  generalize l.turn.2.connection.toDesk = d at hcourse ⊢
  cases hcourse with
  | @refused b fault d incoming hearing =>
    exact ((woken_inBudget h).read b).hear_callback hearing
  | whole ok heard transmitting addressing => exact absurd rfl (ok _)

/-- With no attempt left, a wrong echo ends the exchange. -/
theorem turn_wrong_spent (h : Switch.OnDesk (Desk.InBudget p) l.connection) {frame : Frame} {b : UInt8}
    (armed : l.connection.outbox.echo.armed = true)
    (last : l.connection.host.lastFrame = some frame) (incoming : l.incoming = some b)
    (differed : b ≠ frame.checksum) (spent : p.maxRetries ≤ l.connection.host.retries) :
    l.turn.1 = some (.failed (.callback
      ("checksum mismatch after " ++ toString p.maxRetries ++ " retries"))) := by
  have hread := (woken_inBudget h).read b
  obtain ⟨r, d₁, hearing, hends⟩ := (course_inBudget h).hearing incoming
  obtain rfl := hread.hear_wrong_spent armed last differed spent hearing
  exact hends.1

/-- With one left and room for the frame, it is sent again, and the same echo is due. -/
theorem turn_wrong_left (h : Switch.OnDesk (Desk.InBudget p) l.connection) {frame : Frame} {b : UInt8}
    {behind : List Attempt} (armed : l.connection.outbox.echo.armed = true)
    (last : l.connection.host.lastFrame = some frame)
    (latest : l.connection.latest = ⟨frame, []⟩ :: behind) (incoming : l.incoming = some b)
    (differed : b ≠ frame.checksum) (left : l.connection.host.retries < p.maxRetries)
    (free : l.connection.outbox.pending = none) :
    l.turn.2.connection.latest = ⟨frame, []⟩ :: ⟨frame, [b]⟩ :: behind ∧
      l.turn.2.connection.outbox.echo = ⟨true, frame.checksum⟩ := by
  have hread := (woken_inBudget h).read b
  have hlatest : (l.woken.toDesk.note (.read b)).latest = ⟨frame, []⟩ :: behind :=
    (Desk.latest_note rfl rfl _).trans latest
  obtain ⟨r, d₁, hearing, hends⟩ := (course_inBudget h).hearing incoming
  obtain ⟨rfl, hlatest₁, hecho₁⟩ :=
    hread.hear_wrong_left armed last hlatest differed left free hearing
  show l.turn.2.connection.toDesk.latest = _ ∧ l.turn.2.connection.toDesk.outbox.echo = _
  generalize l.turn.2.connection.toDesk = d at hends ⊢
  rcases hends with rfl | ⟨d₂, transmitting, addressing⟩
  · exact ⟨hlatest₁, hecho₁⟩
  · have hecho₂ : d₂.outbox.echo = ⟨true, frame.checksum⟩ := by
      rw [← hecho₁]
      cases transmitting <;> rfl
    cases addressing with
    | nothing => exact ⟨transmitting.latest.trans hlatest₁, hecho₂⟩
    | address start calm free idle =>
      -- the loop's own frame waits until no echo is due
      rw [hecho₂] at idle
      cases idle

/-- While an echo is due it is that of the newest attempt, after those that are counted against it; and
a wrong byte ends the exchange or leads to one more. -/
theorem turn_wrong (h : Switch.OnDesk (Desk.InBudget p) l.connection)
    (armed : l.connection.outbox.echo.armed = true) :
    ∃ before wrong frame, p.Verifies frame ∧
      l.connection.attempts = before ++ frame.failures wrong ++ [⟨frame, []⟩] ∧
      (∀ a ∈ before.getLast?, a.frame ≠ frame) ∧ (∀ b ∈ wrong, b ≠ frame.checksum) ∧
      l.connection.outbox.echo.expected = frame.checksum ∧
      ∀ b, l.incoming = some b → b ≠ frame.checksum →
        (p.maxRetries ≤ wrong.length → l.turn.1 = some (.failed (.callback
          ("checksum mismatch after " ++ toString p.maxRetries ++ " retries")))) ∧
        (wrong.length < p.maxRetries → l.connection.outbox.pending = none →
          l.turn.2.connection.attempts =
            before ++ frame.failures (wrong ++ [b]) ++ [⟨frame, []⟩] ∧
          l.turn.2.connection.outbox.echo = l.connection.outbox.echo) := by
  obtain ⟨frame, last⟩ := h.2.toInStep.lastFrame_eq_some armed
  obtain ⟨wrong, older, hlatest, hlen, hwrong, hrest⟩ := h.2.underway frame last
  have hverifies : p.Verifies frame := h.2.planned ▸ (h.2.due frame last).verifies
  have hexpected : l.connection.outbox.echo.expected = frame.checksum := h.2.expected frame last
  refine ⟨older.reverse, wrong.reverse, frame, hverifies, Desk.attempts_of_latest hlatest, ?_, ?_,
    hexpected, fun b incoming differed => ⟨fun spent => ?_, fun left free => ?_⟩⟩
  · intro a ha hframe
    rw [List.getLast?_reverse] at ha
    exact hverifies.length_ne_one h.2.wellFormed (hframe ▸ hrest a ha)
  · intro b hb
    exact hwrong b (List.mem_reverse.1 hb)
  · rw [List.length_reverse, hlen] at spent
    exact turn_wrong_spent h armed last incoming differed spent
  · rw [List.length_reverse, hlen] at left
    obtain ⟨hlatest', hecho⟩ := turn_wrong_left h armed last hlatest incoming differed left free
    refine ⟨?_, hecho.trans ?_⟩
    · have hagain : l.turn.2.connection.latest =
          ⟨frame, []⟩ :: (frame.failures (b :: wrong) ++ older) := hlatest'
      rw [Desk.attempts_of_latest hagain, List.reverse_cons]
    · rw [← hexpected, ← armed]

/-! ## Along a run -/

section

variable {settings : SwitchSettings} {switch : Switch} (h : Switch.ofSettings settings = .ok switch)
  (line : τ) (world : ω)

include h

/-- Until it fails, a run is in budget. -/
theorem run_inBudget {n : Nat}
    (ok : ∀ fault, (Loop.run settings (.fresh line switch Switch.reactions) world n).1 ≠
      .ended (.failed fault)) :
    Switch.OnDesk (Desk.InBudget switch.plan)
      (Loop.run settings (.fresh line switch Switch.reactions) world n).2.connection :=
  (Switch.kept_inBudget switch.plan).run_of_not_failed settings line switch world
    (Desk.InBudget.fresh h) n ok

theorem run_inBudget_of_waiting {k : Nat}
    (waiting : (Loop.run settings (.fresh line switch Switch.reactions) world k).1 = .waiting) :
    Switch.OnDesk (Desk.InBudget switch.plan)
      (Loop.run settings (.fresh line switch Switch.reactions) world k).2.connection := by
  refine run_inBudget h line world fun fault => ?_
  rw [waiting]
  nofun

/-- A run that the host has not failed has not spent its budget. -/
theorem run_unspent {n : Nat}
    (other : ∀ reason, (Loop.run settings (.fresh line switch Switch.reactions) world n).1 ≠
      .ended (.failed (.callback reason))) :
    Desk.Unspent switch.plan
      (Loop.run settings (.fresh line switch Switch.reactions) world n).2.connection.latest := by
  by_cases hfailed : ∃ fault, (Loop.run settings (.fresh line switch Switch.reactions) world n).1 =
      .ended (.failed fault)
  · obtain ⟨fault, hended⟩ := hfailed
    obtain ⟨k, -, hwaiting, hturn, -, hlast⟩ := exists_last_turn settings _ world hended
    rw [hlast]
    refine turn_unspent (run_inBudget_of_waiting h line world hwaiting) hturn fun reason hfault => ?_
    exact other reason (hfault ▸ hended)
  · push Not at hfailed
    exact (run_inBudget h line world hfailed).2.unspent

/-- The host fails a run exactly if one frame has failed once more than may be made up for. -/
theorem run_callback_iff (n : Nat) :
    let run := Loop.run settings (.fresh line switch Switch.reactions) world n
    (∃ reason, run.1 = .ended (.failed (.callback reason))) ↔
      ∃ frame wrong, switch.plan.Verifies frame ∧
        frame.failures wrong <:+: run.2.connection.attempts ∧
        wrong.length = switch.plan.maxRetries + 1 ∧ ∀ b ∈ wrong, b ≠ frame.checksum := by
  intro run
  constructor
  · rintro ⟨reason, hended⟩
    obtain ⟨k, -, hwaiting, hturn, -, hlast⟩ := exists_last_turn settings _ world hended
    obtain ⟨frame, wrong, older, hverifies, hlatest, hlen, hwrong⟩ :=
      turn_callback (run_inBudget_of_waiting h line world hwaiting) hturn
    refine ⟨frame, wrong.reverse, hverifies, ?_, List.length_reverse.trans hlen, ?_⟩
    · rw [show run.2 = _ from hlast, Desk.attempts, hlatest, List.reverse_append, Frame.failures,
        Frame.failures, List.map_reverse]
      exact (List.suffix_append _ _).isInfix
    · intro b hb
      exact hwrong b (List.mem_reverse.1 hb)
  · rintro ⟨frame, wrong, hverifies, hinner, hlen, hwrong⟩
    by_contra hno
    have hunspent := run_unspent h line world (not_exists.1 hno)
    have hle := hunspent.length_le (Switch.wellFormed_ofSettings h) hverifies hinner hwrong
    rw [hlen] at hle
    exact absurd hle (Nat.not_succ_le_self _)

theorem run_budgeted (n : Nat) :
    ((Loop.run settings (.fresh line switch Switch.reactions) world n).2.connection.toDesk).Budgeted
      switch.plan :=
  ((Switch.kept_inBudget switch.plan).run settings line switch world n
    (Desk.InBudget.fresh h)).fails fun _ hd => hd.toBudgeted

/-- The two frames of the plan are not taken more often than that in a whole run. -/
theorem run_count_le (n : Nat) :
    let d := (Loop.run settings (.fresh line switch Switch.reactions) world n).2.connection.toDesk
    d.accepted.count switch.address ≤ switch.plan.maxRetries + 1 ∧
      d.accepted.count switch.command ≤ switch.plan.maxRetries + 1 := by
  intro d
  have hfollows : d.Follows switch.plan :=
    ((Switch.kept_inSession switch.plan).run settings line switch world n
      (Desk.InSession.fresh h)).fails fun _ hd => hd.follows
  obtain ⟨whole, hwhole, hhead⟩ := hfollows.begun
  obtain ⟨ha, hc⟩ := Plan.count_le_of_mem_session (Switch.wellFormed_ofSettings h) hwhole
  have hsub := (hhead.map Sending.frame).sublist
  rw [Desk.map_frame_sendings] at hsub
  exact ⟨(hsub.count_le _).trans ha, (hsub.count_le _).trans hc⟩

end

/-- The budget of retries, after any number of turns of the loop, over any line and in any
surroundings. The loop ends with a failure of the host's exactly when one of the frames with an echo
has been attempted once more in a row than it may be retried, and each attempt got one wrong byte for
its echo; no such frame is ever attempted more often in a row, and neither the address frame nor the
function frame is so at all; and the count of retries never passes what is allowed. While an echo is
due it is that of the newest attempt, the attempts at its frame before that in a row have failed and
are all that is counted against it, and a wrong byte ends the exchange if they are as many as the
frame may be retried; if they are fewer, and the outbox is free, the same frame is attempted again
and the same echo is due. -/
theorem run_budget {settings : SwitchSettings} {switch : Switch}
    (h : Switch.ofSettings settings = .ok switch) (line : τ) (world : ω) :
    let run := Loop.run settings (.fresh line switch Switch.reactions) world
    let most := settings.maxRetries.toNat
    (∀ n, let d := (run n).2.connection.toDesk
      ((∃ reason, (run n).1 = .ended (.failed (.callback reason))) ↔
        ∃ frame wrong, switch.plan.Verifies frame ∧ frame.failures wrong <:+: d.attempts ∧
          wrong.length = most + 1 ∧ ∀ b ∈ wrong, b ≠ frame.checksum) ∧
      d.attempts.map Attempt.frame = d.accepted ∧
      (∀ frame k, switch.plan.Verifies frame → List.replicate k frame <:+: d.accepted →
        k ≤ most + 1) ∧
      d.accepted.count switch.address ≤ most + 1 ∧ d.accepted.count switch.command ≤ most + 1 ∧
      d.host.retries ≤ most) ∧
    ∀ k, (run k).1 = .waiting →
      let l := (run k).2
      let c := l.connection
      c.outbox.echo.armed = true →
        ∃ before wrong frame, switch.plan.Verifies frame ∧
          c.attempts = before ++ frame.failures wrong ++ [⟨frame, []⟩] ∧
          (∀ a ∈ before.getLast?, a.frame ≠ frame) ∧ (∀ b ∈ wrong, b ≠ frame.checksum) ∧
          c.outbox.echo.expected = frame.checksum ∧
          ∀ b, l.incoming = some b → b ≠ frame.checksum →
            (most ≤ wrong.length → l.turn.1 = some (.failed (.callback
              ("checksum mismatch after " ++ toString most ++ " retries")))) ∧
            (wrong.length < most → c.outbox.pending = none →
              l.turn.2.connection.attempts =
                before ++ frame.failures (wrong ++ [b]) ++ [⟨frame, []⟩] ∧
              l.turn.2.connection.outbox.echo = c.outbox.echo) := by
  intro run most
  have hmost : switch.plan.maxRetries = most := by
    obtain ⟨_, _, -, -, rfl⟩ := Switch.eq_of_ofSettings h
    rfl
  clear_value most
  subst hmost
  refine ⟨fun n => ?_, ?_⟩
  · have hbudgeted := run_budgeted h line world n
    obtain ⟨haddress, hcommand⟩ := run_count_le h line world n
    exact ⟨run_callback_iff h line world n, Desk.map_frame_attempts _, fun frame k hverifies hinner =>
      hbudgeted.length_le (Switch.wellFormed_ofSettings h) hverifies hinner, haddress, hcommand,
      hbudgeted.spent⟩
  · intro k hwaiting l c armed
    exact turn_wrong (run_inBudget_of_waiting h line world hwaiting) armed

end Loop

/-- With one retry allowed, an address frame that gets two wrong echoes ends the exchange. -/
theorem Loop.run_budget_exhausted :
    let settings : SwitchSettings := { maxRetries := 1 }
    let switch : Switch :=
      { address := [0x04, 0x6E], command := [0x06, 0x62], maxRetries := 1, setClock := false,
        monitored := .A }
    let line : ScriptedLine := { reads := [.byte 0x00, .byte 0x01] }
    let run := Loop.run settings (.fresh line switch Switch.reactions) ScriptedWaits.oneRetry
    let d := (run 4).2.connection.toDesk
    Switch.ofSettings settings = .ok switch ∧
      (run 4).1 = .ended (.failed (.callback "checksum mismatch after 1 retries")) ∧
      d.attempts = [⟨[0x04, 0x6E], [0x00]⟩, ⟨[0x04, 0x6E], [0x01]⟩] ∧
      ((∃ reason, (run 4).1 = .ended (.failed (.callback reason))) ↔
        ∃ frame wrong, switch.plan.Verifies frame ∧ frame.failures wrong <:+: d.attempts ∧
          wrong.length = 2 ∧ ∀ b ∈ wrong, b ≠ frame.checksum) ∧
      ∀ frame k, switch.plan.Verifies frame → List.replicate k frame <:+: d.accepted → k ≤ 2 := by
  intro settings switch line run d
  have hswitch : Switch.ofSettings settings = .ok switch := by decide
  obtain ⟨hended, -, hstreak, -⟩ := (Loop.run_budget hswitch line ScriptedWaits.oneRetry).1 4
  exact ⟨hswitch, by decide, by decide, hended, hstreak⟩

end Powerline
