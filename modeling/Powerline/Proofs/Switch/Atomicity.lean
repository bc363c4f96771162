/-
Whether a byte that fails leaves a switch as it was. The function frame and the clock are queued
before the switch takes note of them, so a refusal leaves no trace. The release and a frame to be sent
again are queued after it, so a refusal comes too late: the frame is forgotten whose release is still
to be made, or a sending is counted that was not made.
-/
import Powerline.Proofs.Failure
import Powerline.Proofs.Switch.Reactions
import Powerline.Script.Line

namespace Powerline

variable {τ σ : Type}

/-- A frame is refused while another is outstanding, and if it has no bytes. -/
theorem Desk.submit_error_iff {mode : Mode} {frame : Frame} {d : Desk σ} :
    (∃ fault, (d.submit mode frame).1 = .error fault) ↔ d.outbox.pending ≠ none ∨ frame = [] := by
  rcases hp : d.outbox.pending with _ | f
  · by_cases hframe : frame = []
    · simp [submit, Outbox.submit, Outbox.isPending_of_none hp, hframe]
    · simp [submit_free mode hp hframe, hframe]
  · simp [submit_taken mode frame hp]

theorem Desk.host_submit (mode : Mode) (frame : Frame) (d : Desk σ) :
    (d.submit mode frame).2.host = d.host := by
  rcases d.submit_cases mode frame with ⟨-, -, hs⟩ | ⟨fault, hs⟩ <;> rw [hs] <;> rfl

theorem Desk.not_fatal_of_submit {mode : Mode} {frame : Frame} {d : Desk σ} {fault : Fault}
    (h : (d.submit mode frame).1 = .error fault) : fault.isFatal = false := by
  rcases (Desk.submit_error h).1 with rfl | ⟨reason, rfl⟩ <;> rfl

/-- A byte with a meaning gives what the reaction to it does, and leaves the host as that does. -/
theorem Desk.hear_of_signal {b : UInt8} {d : Desk σ} {signal : Signal} (r : Reactions σ)
    (h : (d.outbox.echo.classify b).1 = .ok signal) :
    let run := (r.toOccasion signal.occasion).run (d.attending b signal.occasion)
    (d.hear b r).1 = run.1 ∧ (d.hear b r).2.host = run.2.host := by
  unfold Desk.hear
  rw [h]
  exact ⟨rfl, rfl⟩

namespace Switch

/-! ## Each reaction when it fails -/

section
variable {d : Desk Switch} {fault : Fault}

theorem onReady_failed (h : (onReady.run d).1 = .error fault) :
    fault.isFatal = false ∧ (onReady.run d).2.host = d.host := by
  rw [run_onReady] at h ⊢
  split at h
  · cases h
  · rename_i calm
    rw [if_neg calm]
    cases stage : d.host.stage with
    | sentAddress =>
      simp only [stage] at h ⊢
      have hhost := d.host_submit .verified d.host.command
      rcases hs : d.submit .verified d.host.command with ⟨e | _, d'⟩ <;> rw [hs] at h hhost <;> cases h
      exact ⟨Desk.not_fatal_of_submit (congrArg Prod.fst hs), hhost⟩
    | start | sentCommand | done =>
      simp only [stage] at h
      cases h

theorem onTimeRequest_failed (h : (onTimeRequest.run d).1 = .error fault) :
    fault.isFatal = false ∧ (onTimeRequest.run d).2.host = d.host := by
  rw [run_onTimeRequest] at h ⊢
  split at h
  · cases h
  · rename_i free
    rw [if_neg free]
    split at h
    · rename_i set
      rw [if_pos set]
      set frame := Frame.clock d.host.localTime d.host.monitored
      have hhost := d.host_submit .verified frame
      rcases hs : d.submit .verified frame with ⟨e | _, d'⟩ <;> rw [hs] at h hhost <;> cases h
      exact ⟨Desk.not_fatal_of_submit (congrArg Prod.fst hs), hhost⟩
    · rename_i unset
      rw [if_neg unset]
      exact ⟨Desk.not_fatal_of_submit h, d.host_submit _ _⟩

theorem onEchoMatched_error_iff :
    (∃ fault, (onEchoMatched.run d).1 = .error fault) ↔ d.outbox.pending ≠ none := by
  rw [run_onEchoMatched, Desk.submit_error_iff]
  simp

theorem onEchoMatched_failed (h : (onEchoMatched.run d).1 = .error fault) : fault.isFatal = false := by
  rw [run_onEchoMatched] at h
  exact Desk.not_fatal_of_submit h

/-- The frame is forgotten, whether its release is refused or not. -/
theorem onEchoMatched_host : (onEchoMatched.run d).2.host = { d.host with lastFrame := none } := by
  rw [run_onEchoMatched]
  exact Desk.host_submit _ _ _

/-- The switch has counted the sending that is refused, unless it was not to be made. -/
theorem onEchoDiffered_failed (h : (onEchoDiffered.run d).1 = .error fault) :
    fault.isFatal = false ∧ ∃ frame, d.host.lastFrame = some frame ∧
      (d.host.maxRetries ≤ d.host.retries ∧ (onEchoDiffered.run d).2.host = d.host ∨
        d.host.retries < d.host.maxRetries ∧ (d.outbox.pending ≠ none ∨ frame = []) ∧
          (onEchoDiffered.run d).2.host = { d.host with retries := d.host.retries + 1 }) := by
  rw [run_onEchoDiffered] at h ⊢
  cases last : d.host.lastFrame with
  | none =>
    simp only [last] at h
    cases h
  | some frame =>
    simp only [last] at h ⊢
    split at h
    · rename_i spent
      cases h
      exact ⟨rfl, frame, rfl, .inl ⟨spent, by rw [if_pos spent]⟩⟩
    · rename_i left
      rw [if_neg left]
      have hrefused := Desk.submit_error_iff.1 ⟨fault, h⟩
      exact ⟨Desk.not_fatal_of_submit h, frame, rfl,
        .inr ⟨Nat.lt_of_not_le left, hrefused, Desk.host_submit _ _ _⟩⟩

theorem onEchoDiffered_refused {frame : Frame} (last : d.host.lastFrame = some frame)
    (left : d.host.retries < d.host.maxRetries) (refused : d.outbox.pending ≠ none ∨ frame = []) :
    ∃ fault, (onEchoDiffered.run d).1 = .error fault := by
  rw [run_onEchoDiffered]
  simp only [last, if_neg (Nat.not_le.2 left)]
  exact Desk.submit_error_iff.2 refused

end

/-! ## One byte -/

/-- A byte whose reaction takes note of a frame that is then refused: the release of a frame that is
forgotten for it, or the frame sent once more. A frame without bytes, which no switch sends, would be
refused in any case. -/
inductive Torn (b : UInt8) (d : Desk Switch) : Prop where
  | release (armed : d.outbox.echo.armed = true) (matched : b = d.outbox.echo.expected)
      (remembered : d.host.lastFrame ≠ none) (taken : d.outbox.pending ≠ none)
  | resend {frame : Frame} (armed : d.outbox.echo.armed = true)
      (differed : b ≠ d.outbox.echo.expected) (last : d.host.lastFrame = some frame)
      (left : d.host.retries < d.host.maxRetries)
      (refused : d.outbox.pending ≠ none ∨ frame = [])

/-- What is left of the switch then: without the frame, or with a sending too many counted. -/
def torn (b : UInt8) (d : Desk Switch) : Switch :=
  if b = d.outbox.echo.expected then { d.host with lastFrame := none }
  else { d.host with retries := d.host.retries + 1 }

section
variable {b : UInt8} {d : Desk Switch} {fault : Fault}

theorem torn_ne (h : Torn b d) : torn b d ≠ d.host := by
  unfold torn
  cases h with
  | release armed matched remembered taken =>
    rw [if_pos matched]
    intro hsame
    exact remembered (congrArg Switch.lastFrame hsame).symm
  | resend armed differed last left refused =>
    rw [if_neg differed]
    intro hsame
    have hretries : d.host.retries + 1 = d.host.retries := congrArg Switch.retries hsame
    omega

theorem not_torn_of_not_armed (idle : d.outbox.echo.armed = false) : ¬ Torn b d := by
  intro h
  cases h with
  | release armed | resend armed =>
    rw [idle] at armed
    cases armed

theorem hear_of_matched (armed : d.outbox.echo.armed = true) (matched : b = d.outbox.echo.expected) :
    let run := onEchoMatched.run (d.attending b .echoMatched)
    (d.hear b reactions).1 = run.1 ∧ (d.hear b reactions).2.host = run.2.host := by
  have hmeaning : (d.outbox.echo.classify b).1 = .ok .echoMatched := by
    rw [Echo.classify_of_armed armed, if_pos matched]
  exact Desk.hear_of_signal reactions hmeaning

theorem hear_of_differed (armed : d.outbox.echo.armed = true) (differed : b ≠ d.outbox.echo.expected) :
    let run := onEchoDiffered.run (d.attending b .echoDiffered)
    (d.hear b reactions).1 = run.1 ∧ (d.hear b reactions).2.host = run.2.host := by
  have hmeaning : (d.outbox.echo.classify b).1 = .ok (.echoDiffered d.outbox.echo.expected b) := by
    rw [Echo.classify_of_armed armed, if_neg differed]
  exact Desk.hear_of_signal reactions hmeaning

/-- A right echo that fails has had its frame forgotten, if there was one. -/
theorem matched_failed (armed : d.outbox.echo.armed = true) (matched : b = d.outbox.echo.expected)
    (h : (d.hear b reactions).1 = .error fault) :
    fault.isFatal = false ∧ (d.hear b reactions).2.host = { d.host with lastFrame := none } ∧
      (Torn b d ↔ d.host.lastFrame ≠ none) := by
  obtain ⟨hresult, hhost⟩ := hear_of_matched armed matched
  rw [hresult] at h
  rw [hhost]
  refine ⟨onEchoMatched_failed h, onEchoMatched_host, ?_, ?_⟩
  · rintro (⟨-, -, remembered, -⟩ | ⟨-, differed, -⟩)
    · exact remembered
    · exact absurd matched differed
  · intro remembered
    have htaken := (onEchoMatched_error_iff (d := d.attending b .echoMatched)).1 ⟨fault, h⟩
    exact .release armed matched remembered htaken

/-- A wrong echo that fails has had a sending counted, unless the frame was not to be sent again. -/
theorem differed_failed (armed : d.outbox.echo.armed = true) (differed : b ≠ d.outbox.echo.expected)
    (h : (d.hear b reactions).1 = .error fault) :
    fault.isFatal = false ∧
      (Torn b d ∧ (d.hear b reactions).2.host = { d.host with retries := d.host.retries + 1 } ∨
        ¬ Torn b d ∧ (d.hear b reactions).2.host = d.host) := by
  obtain ⟨hresult, hhost⟩ := hear_of_differed armed differed
  rw [hresult] at h
  rw [hhost]
  obtain ⟨hfatal, frame, last, ⟨spent, hsame⟩ | ⟨left, refused, hcounted⟩⟩ := onEchoDiffered_failed h
  · refine ⟨hfatal, .inr ⟨?_, hsame⟩⟩
    rintro (⟨-, matched, -⟩ | ⟨-, -, -, left, -⟩)
    · exact differed matched
    · exact absurd left (Nat.not_lt.2 spent)
  · exact ⟨hfatal, .inl ⟨.resend armed differed last left refused, hcounted⟩⟩

/-- A byte that fails while no echo is due leaves the switch as it was. -/
theorem idle_failed (idle : d.outbox.echo.armed = false)
    (h : (d.hear b reactions).1 = .error fault) :
    fault.isFatal = false ∧ (d.hear b reactions).2.host = d.host := by
  cases hmeaning : (d.outbox.echo.classify b).1 with
  | error e =>
    rw [Desk.hear_of_error hmeaning] at h ⊢
    cases h
    exact ⟨by rw [(Echo.of_classify_error hmeaning).1]; rfl, rfl⟩
  | ok signal =>
    obtain ⟨hresult, hhost⟩ := Desk.hear_of_signal reactions hmeaning
    rw [hresult] at h
    rw [hhost]
    rw [Echo.classify_of_not_armed idle] at hmeaning
    rcases hop : Opcode.ofByte b with e | op <;> rw [hop] at hmeaning <;> cases hmeaning
    cases op with
    | interfaceReady => exact onReady_failed h
    | interfacePoll => cases h
    | timeRequest => exact onTimeRequest_failed h

/-- What a byte that fails leaves of the switch. -/
theorem hear_failed (h : (d.hear b reactions).1 = .error fault) :
    fault.isFatal = false ∧ (Torn b d ∧ (d.hear b reactions).2.host = torn b d ∨
      ¬ Torn b d ∧ (d.hear b reactions).2.host = d.host) := by
  cases armed : d.outbox.echo.armed with
  | false =>
    obtain ⟨hfatal, hsame⟩ := idle_failed armed h
    exact ⟨hfatal, .inr ⟨not_torn_of_not_armed armed, hsame⟩⟩
  | true =>
    by_cases matched : b = d.outbox.echo.expected
    · obtain ⟨hfatal, hforgotten, hiff⟩ := matched_failed armed matched h
      refine ⟨hfatal, ?_⟩
      rw [torn, if_pos matched, hiff]
      by_cases remembered : d.host.lastFrame = none
      · exact .inr ⟨not_not.2 remembered, hforgotten.trans (by rw [← remembered])⟩
      · exact .inl ⟨remembered, hforgotten⟩
    · rw [torn, if_neg matched]
      exact differed_failed armed matched h

/-- A byte that tears the switch fails, and leaves it torn. -/
theorem hear_torn (h : Torn b d) :
    (∃ fault, (d.hear b reactions).1 = .error fault) ∧ (d.hear b reactions).2.host = torn b d := by
  have hfails : ∃ fault, (d.hear b reactions).1 = .error fault := by
    cases h with
    | release armed matched remembered taken =>
      rw [(hear_of_matched armed matched).1]
      exact onEchoMatched_error_iff.2 taken
    | resend armed differed last left refused =>
      rw [(hear_of_differed armed differed).1]
      exact onEchoDiffered_refused last left refused
  obtain ⟨fault, hfault⟩ := hfails
  refine ⟨⟨fault, hfault⟩, ?_⟩
  rcases (hear_failed hfault).2 with ⟨-, hleft⟩ | ⟨hwhole, -⟩
  · exact hleft
  · exact absurd h hwhole

end

end Switch

/-! ## A byte fed to a connection -/

namespace Connection

/-- When a byte that fails leaves the switch as it was, whatever the switch and its outbox are. A
failure is never fatal; and the byte fails and has changed the switch exactly if an echo is due and
either it is the right one, its frame is remembered and another frame is outstanding, or it is a
wrong one and the frame that is to be sent again is refused. Then the switch is the same but for the
frame, which is forgotten, or for the sending, which is counted. -/
theorem feed_torn_iff {c : Connection τ Switch} (h : c.reactions = Switch.reactions) (b : UInt8) :
    let after := (c.feed b).2
    (∀ fault, (c.feed b).1 = .error fault → fault.isFatal = false ∧
      (¬ Switch.Torn b c.toDesk → after.host = c.host)) ∧
    ((∃ fault, (c.feed b).1 = .error fault) ∧ after.host ≠ c.host ↔ Switch.Torn b c.toDesk) ∧
    (Switch.Torn b c.toDesk → after.host =
      if b = c.outbox.echo.expected then { c.host with lastFrame := none }
      else { c.host with retries := c.host.retries + 1 }) := by
  intro after
  have hafter : after = { c with toDesk := (c.toDesk.hear b Switch.reactions).2 } := by
    rw [← h]
    exact congrArg Prod.snd (feed_eq b c)
  have hresult : (c.feed b).1 = (c.toDesk.hear b Switch.reactions).1 := by
    rw [← h]
    exact congrArg Prod.fst (feed_eq b c)
  rw [hresult, hafter]
  refine ⟨fun fault hfault => ?_, ⟨?_, fun htorn => ?_⟩, fun htorn => (Switch.hear_torn htorn).2⟩
  · obtain ⟨hfatal, hleft⟩ := Switch.hear_failed hfault
    refine ⟨hfatal, fun hwhole => ?_⟩
    rcases hleft with ⟨htorn, -⟩ | ⟨-, hsame⟩
    · exact absurd htorn hwhole
    · exact hsame
  · rintro ⟨⟨fault, hfault⟩, hchanged⟩
    rcases (Switch.hear_failed hfault).2 with ⟨htorn, -⟩ | ⟨-, hsame⟩
    · exact htorn
    · exact absurd hsame hchanged
  · obtain ⟨hfails, hleft⟩ := Switch.hear_torn htorn
    refine ⟨hfails, ?_⟩
    show (c.toDesk.hear b Switch.reactions).2.host ≠ _
    rw [hleft]
    exact Switch.torn_ne htorn

/-- The echo of the address frame comes while the frame is still outstanding, and its release is
refused: the frame is forgotten. When the host has seen it out and queued it again itself, a wrong
echo calls for nothing. A wrong echo in its place is counted as sent again, though it was not. -/
theorem feed_torn_earlyEcho :
    let switch : Switch :=
      { address := [0x04, 0x6E], command := [0x06, 0x62], maxRetries := 3, setClock := false,
        monitored := .A }
    let c := (Connection.fresh ({} : ScriptedLine) switch Switch.reactions).performAll
      [.submit .verified [0x04, 0x6E], .setHost switch.addressSent]
    let echoed := c.feed 0x72
    let again := echoed.2.performAll [.drain, .submit .verified [0x04, 0x6E], .drain, .feed 0x00]
    Switch.ofSettings {} = .ok switch ∧ c.host.lastFrame = some [0x04, 0x6E] ∧
      echoed.1 = .error .alreadyPending ∧ echoed.2.host.lastFrame = none ∧
      again.outbox.pending = none ∧ again.host.lastFrame = none ∧
      c.host.retries = 0 ∧ (c.feed 0x00).1 = .error .alreadyPending ∧
      (c.feed 0x00).2.host.retries = 1 := by
  decide

/-- Where the echo fails, it is a byte that tears the switch. -/
theorem feed_torn_iff_earlyEcho :
    let switch : Switch :=
      { address := [0x04, 0x6E], command := [0x06, 0x62], maxRetries := 3, setClock := false,
        monitored := .A }
    let c := (Connection.fresh ({} : ScriptedLine) switch Switch.reactions).performAll
      [.submit .verified [0x04, 0x6E], .setHost switch.addressSent]
    c.reactions = Switch.reactions ∧ Switch.Torn 0x72 c.toDesk ∧
      ((∃ fault, (c.feed 0x72).1 = .error fault) ∧ (c.feed 0x72).2.host ≠ c.host) ∧
      (c.feed 0x72).2.host = { c.host with lastFrame := none } := by
  intro switch c
  have htorn : Switch.Torn 0x72 c.toDesk := .release rfl rfl (by decide) (by decide)
  obtain ⟨-, hiff, hleft⟩ := feed_torn_iff (c := c) rfl 0x72
  exact ⟨rfl, htorn, hiff.2 htorn, hleft htorn⟩

end Connection

end Powerline
