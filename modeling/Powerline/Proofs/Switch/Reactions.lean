/-
What the reactions that drive a switch do, each on any desk, and from them what one inbound byte
does: nothing, one move of the switch, one frame queued, or a failure that queues nothing.
-/
import Powerline.Proofs.Connection
import Powerline.Exchange

namespace Powerline

namespace Switch

/-! ## One lemma for each reaction -/

theorem run_onReady (d : Desk Switch) :
    onReady.run d =
      if d.host.clockInFlight then (.ok (), d.withHost { d.host with clockInFlight := false })
      else match d.host.stage with
        | .sentAddress =>
          match d.submit .verified d.host.command with
          | (.ok (), d') =>
            (.ok (), d'.withHost { d.host.queued d.host.command with stage := .sentCommand })
          | (.error fault, d') => (.error fault, d')
        | .sentCommand => (.ok (), d.withHost { d.host with stage := .done })
        | .start | .done => (.ok (), d) := by
  simp only [onReady, bind, pure, Reaction.get, Reaction.bind, Reaction.run]
  split
  · rfl
  · cases hstage : d.host.stage with
    | sentAddress =>
      show ((Reaction.send .verified d.host.command).bind _).run d = _
      rw [Reaction.run_bind, Reaction.run_send]
      rcases d.submit .verified d.host.command with ⟨_ | _, _⟩ <;> rfl
    | sentCommand => rfl
    | start => rfl
    | done => rfl

theorem run_onTimeRequest (d : Desk Switch) :
    onTimeRequest.run d =
      if d.outbox.isPending then (.ok (), d)
      else if d.host.setClock then
        match d.submit .verified (Frame.clock d.host.localTime d.host.monitored) with
        | (.ok (), d') =>
          (.ok (), d'.withHost
            { d.host.queued (Frame.clock d.host.localTime d.host.monitored) with
              clockInFlight := true })
        | (.error fault, d') => (.error fault, d')
      else d.submit .plain [Frame.timeAnswer] := by
  simp only [onTimeRequest, Reaction.run]
  split
  · rfl
  · simp only [bind, Reaction.get, Reaction.bind, Reaction.run]
    split
    · show ((Reaction.send .verified _).bind _).run d = _
      rw [Reaction.run_bind, Reaction.run_send]
      rcases d.submit .verified _ with ⟨_ | _, _⟩ <;> rfl
    · exact Reaction.run_send _ _ d

theorem run_onEchoMatched (d : Desk Switch) :
    onEchoMatched.run d =
      (d.withHost { d.host with lastFrame := none }).submit .plain [Frame.release] :=
  Reaction.run_send _ _ _

theorem run_onEchoDiffered (d : Desk Switch) :
    onEchoDiffered.run d =
      match d.host.lastFrame with
      | none => (.ok (), d)
      | some frame =>
        if d.host.retries ≥ d.host.maxRetries then
          (.error (.callback
            ("checksum mismatch after " ++ toString d.host.retries ++ " retries")), d)
        else (d.withHost { d.host with retries := d.host.retries + 1 }).submit .verified frame := by
  simp only [onEchoDiffered, bind, Reaction.get, Reaction.bind, Reaction.run]
  cases d.host.lastFrame with
  | none => rfl
  | some frame =>
    simp only
    split
    · rfl
    · exact Reaction.run_send _ _ _

/-! ## One byte -/

/-- What an inbound byte `b` does at the desk `d` of a switch: the result, and the desk after it. A
byte that calls for a frame while another is outstanding has it refused. -/
inductive Hearing (b : UInt8) (d : Desk Switch) : Except Fault Unit → Desk Switch → Prop where
  -- the right echo: the frame is released
  | release (armed : d.outbox.echo.armed = true) (matched : b = d.outbox.echo.expected)
      (free : d.outbox.pending = none) :
      Hearing b d (.ok ())
        ((((d.attending b .echoMatched).withHost { d.host with lastFrame := none }).queue .plain
          [Frame.release]).note (.finished .echoMatched (.ok ())))
  | releaseRefused (armed : d.outbox.echo.armed = true) (matched : b = d.outbox.echo.expected)
      (taken : d.outbox.isPending = true) :
      Hearing b d (.error .alreadyPending)
        ((((d.attending b .echoMatched).withHost { d.host with lastFrame := none }).note
          (.refused .plain [Frame.release])).note (.finished .echoMatched (.error .alreadyPending)))
  -- a wrong echo: the frame is sent again
  | resend {frame : Frame} (armed : d.outbox.echo.armed = true)
      (differed : b ≠ d.outbox.echo.expected) (last : d.host.lastFrame = some frame)
      (left : d.host.retries < d.host.maxRetries) (free : d.outbox.pending = none) :
      Hearing b d (.ok ())
        ((((d.attending b .echoDiffered).withHost
          { d.host with retries := d.host.retries + 1 }).queue .verified frame).note
          (.finished .echoDiffered (.ok ())))
  | resendRefused {frame : Frame} (armed : d.outbox.echo.armed = true)
      (differed : b ≠ d.outbox.echo.expected) (last : d.host.lastFrame = some frame)
      (left : d.host.retries < d.host.maxRetries) (taken : d.outbox.isPending = true) :
      Hearing b d (.error .alreadyPending)
        ((((d.attending b .echoDiffered).withHost
          { d.host with retries := d.host.retries + 1 }).note (.refused .verified frame)).note
          (.finished .echoDiffered (.error .alreadyPending)))
  -- a wrong echo too many
  | giveUp {frame : Frame} {fault : Fault} (armed : d.outbox.echo.armed = true)
      (differed : b ≠ d.outbox.echo.expected) (last : d.host.lastFrame = some frame)
      (spent : d.host.maxRetries ≤ d.host.retries)
      (hfault : fault = .callback
        ("checksum mismatch after " ++ toString d.host.retries ++ " retries")) :
      Hearing b d (.error fault)
        ((d.attending b .echoDiffered).note (.finished .echoDiffered (.error fault)))
  -- a wrong echo of no frame that the switch knows of
  | disowned (armed : d.outbox.echo.armed = true) (differed : b ≠ d.outbox.echo.expected)
      (last : d.host.lastFrame = none) :
      Hearing b d (.ok ())
        ((d.attending b .echoDiffered).note (.finished .echoDiffered (.ok ())))
  -- the interface is ready after a clock frame
  | clockOver (idle : d.outbox.echo.armed = false) (hb : b = 0x55)
      (busy : d.host.clockInFlight = true) :
      Hearing b d (.ok ())
        (((d.attending b .interfaceReady).withHost { d.host with clockInFlight := false }).note
          (.finished .interfaceReady (.ok ())))
  -- the interface is ready after the address frame: the function frame is next
  | command (idle : d.outbox.echo.armed = false) (hb : b = 0x55)
      (calm : d.host.clockInFlight = false) (stage : d.host.stage = .sentAddress)
      (free : d.outbox.pending = none) :
      Hearing b d (.ok ())
        ((((d.attending b .interfaceReady).queue .verified d.host.command).withHost
          { d.host.queued d.host.command with stage := .sentCommand }).note
          (.finished .interfaceReady (.ok ())))
  | commandRefused (idle : d.outbox.echo.armed = false) (hb : b = 0x55)
      (calm : d.host.clockInFlight = false) (stage : d.host.stage = .sentAddress)
      (taken : d.outbox.isPending = true) :
      Hearing b d (.error .alreadyPending)
        (((d.attending b .interfaceReady).note (.refused .verified d.host.command)).note
          (.finished .interfaceReady (.error .alreadyPending)))
  -- the interface is ready after the function frame: the module is switched
  | switched (idle : d.outbox.echo.armed = false) (hb : b = 0x55)
      (calm : d.host.clockInFlight = false) (stage : d.host.stage = .sentCommand) :
      Hearing b d (.ok ())
        (((d.attending b .interfaceReady).withHost { d.host with stage := .done }).note
          (.finished .interfaceReady (.ok ())))
  -- the interface is ready, and nothing was waiting for it
  | unasked (idle : d.outbox.echo.armed = false) (hb : b = 0x55)
      (calm : d.host.clockInFlight = false)
      (stage : d.host.stage = .start ∨ d.host.stage = .done) :
      Hearing b d (.ok ())
        ((d.attending b .interfaceReady).note (.finished .interfaceReady (.ok ())))
  | poll (idle : d.outbox.echo.armed = false) (hb : b = 0x5A) :
      Hearing b d (.ok ()) ((d.attending b .interfacePoll).note (.finished .interfacePoll (.ok ())))
  -- the interface wants the time while a frame is outstanding
  | timeIgnored (idle : d.outbox.echo.armed = false) (hb : b = 0xA5)
      (taken : d.outbox.isPending = true) :
      Hearing b d (.ok ()) ((d.attending b .timeRequest).note (.finished .timeRequest (.ok ())))
  -- the interface wants the time and gets the clock
  | clock (idle : d.outbox.echo.armed = false) (hb : b = 0xA5) (set : d.host.setClock = true)
      (free : d.outbox.pending = none) :
      Hearing b d (.ok ())
        ((((d.attending b .timeRequest).queue .verified
          (Frame.clock d.host.localTime d.host.monitored)).withHost
          { d.host.queued (Frame.clock d.host.localTime d.host.monitored) with
            clockInFlight := true }).note (.finished .timeRequest (.ok ())))
  -- the interface wants the time and gets the bare answer
  | timeAnswer (idle : d.outbox.echo.armed = false) (hb : b = 0xA5)
      (unset : d.host.setClock = false) (free : d.outbox.pending = none) :
      Hearing b d (.ok ())
        (((d.attending b .timeRequest).queue .plain [Frame.timeAnswer]).note
          (.finished .timeRequest (.ok ())))
  | unknown (idle : d.outbox.echo.armed = false) (h55 : b ≠ 0x55) (h5A : b ≠ 0x5A)
      (hA5 : b ≠ 0xA5) :
      Hearing b d (.error (.unknownOpcode b)) (d.classified b)

-- the frames that a switch may have to send are not empty
structure Sendable (s : Switch) : Prop where
  address : s.address ≠ []
  command : s.command ≠ []
  lastFrame : ∀ frame, s.lastFrame = some frame → frame ≠ []

/-- The reaction to a byte runs at the desk that attends to it, and its end is entered there. -/
theorem hearing_of_run {b : UInt8} {d : Desk Switch} {occasion : Occasion}
    {r : Except Fault Unit × Desk Switch}
    (run : (reactions.toOccasion occasion).run (d.attending b occasion) = r)
    (h : Hearing b d r.1 (r.2.note (.finished occasion r.1))) :
    Hearing b d ((d.classified b).react occasion reactions).1
      ((d.classified b).react occasion reactions).2 := by
  subst run
  exact h

theorem react_ready {b : UInt8} {d : Desk Switch} (h : d.host.Sendable)
    (idle : d.outbox.echo.armed = false) (hb : b = 0x55) :
    Hearing b d ((d.classified b).react .interfaceReady reactions).1
      ((d.classified b).react .interfaceReady reactions).2 := by
  refine hearing_of_run (run_onReady _) ?_
  rw [Desk.host_attending]
  cases calm : d.host.clockInFlight with
  | true => exact .clockOver idle hb calm
  | false =>
    cases stage : d.host.stage with
    | start => exact .unasked idle hb calm (.inl stage)
    | done => exact .unasked idle hb calm (.inr stage)
    | sentCommand => exact .switched idle hb calm stage
    | sentAddress =>
      cases hp : d.outbox.pending with
      | none =>
        rw [Desk.submit_free (d := d.attending b .interfaceReady) .verified hp h.command]
        exact .command idle hb calm stage hp
      | some f =>
        rw [Desk.submit_taken (d := d.attending b .interfaceReady) .verified _ hp]
        exact .commandRefused idle hb calm stage (Outbox.isPending_of_some hp)

theorem react_timeRequest {b : UInt8} {d : Desk Switch} (idle : d.outbox.echo.armed = false)
    (hb : b = 0xA5) :
    Hearing b d ((d.classified b).react .timeRequest reactions).1
      ((d.classified b).react .timeRequest reactions).2 := by
  refine hearing_of_run (run_onTimeRequest _) ?_
  rw [Desk.host_attending]
  cases hp : d.outbox.pending with
  | some f =>
    have taken : d.outbox.isPending = true := Outbox.isPending_of_some hp
    rw [if_pos (show (d.attending b .timeRequest).outbox.isPending = true from taken)]
    exact .timeIgnored idle hb taken
  | none =>
    have free : (d.attending b .timeRequest).outbox.isPending = false :=
      Outbox.isPending_of_none hp
    rw [free, if_neg Bool.false_ne_true]
    cases set : d.host.setClock with
    | true =>
      rw [if_pos rfl, Desk.submit_free (d := d.attending b .timeRequest) .verified hp (by
        simp [Frame.clock])]
      exact .clock idle hb set hp
    | false =>
      rw [if_neg (by simp), Desk.submit_free (d := d.attending b .timeRequest) .plain hp (by simp)]
      exact .timeAnswer idle hb set hp

theorem react_matched {b : UInt8} {d : Desk Switch} (armed : d.outbox.echo.armed = true)
    (matched : b = d.outbox.echo.expected) :
    Hearing b d ((d.classified b).react .echoMatched reactions).1
      ((d.classified b).react .echoMatched reactions).2 := by
  refine hearing_of_run (run_onEchoMatched _) ?_
  rw [Desk.host_attending]
  cases hp : d.outbox.pending with
  | none =>
    rw [Desk.submit_free .plain (by simpa using hp) (by simp)]
    exact .release armed matched hp
  | some f =>
    rw [Desk.submit_taken (f := f) .plain _ (by simpa using hp)]
    exact .releaseRefused armed matched (Outbox.isPending_of_some hp)

theorem react_differed {b : UInt8} {d : Desk Switch} (h : d.host.Sendable)
    (armed : d.outbox.echo.armed = true) (differed : b ≠ d.outbox.echo.expected) :
    Hearing b d ((d.classified b).react .echoDiffered reactions).1
      ((d.classified b).react .echoDiffered reactions).2 := by
  refine hearing_of_run (run_onEchoDiffered _) ?_
  rw [Desk.host_attending]
  cases last : d.host.lastFrame with
  | none => exact .disowned armed differed last
  | some frame =>
    by_cases spent : d.host.retries ≥ d.host.maxRetries
    · simp only [if_pos spent]
      exact .giveUp armed differed last spent rfl
    · have left : d.host.retries < d.host.maxRetries := by omega
      simp only [if_neg spent]
      cases hp : d.outbox.pending with
      | none =>
        rw [Desk.submit_free .verified (by simpa using hp) (h.lastFrame frame last)]
        exact .resend armed differed last left hp
      | some f =>
        rw [Desk.submit_taken (f := f) .verified _ (by simpa using hp)]
        exact .resendRefused armed differed last left (Outbox.isPending_of_some hp)

-- every byte at every desk of a switch with frames to send does one of these things
theorem hear_hearing {d : Desk Switch} (h : d.host.Sendable) (b : UInt8) :
    Hearing b d (d.hear b reactions).1 (d.hear b reactions).2 := by
  unfold Desk.hear
  cases armed : d.outbox.echo.armed with
  | true =>
    rw [Echo.classify_of_armed armed]
    by_cases hb : b = d.outbox.echo.expected
    · rw [if_pos hb]
      exact react_matched armed hb
    · rw [if_neg hb]
      exact react_differed h armed hb
  | false =>
    rw [Echo.classify_of_not_armed armed]
    by_cases h55 : b = 0x55
    · subst h55
      exact react_ready h armed rfl
    by_cases h5A : b = 0x5A
    · subst h5A
      exact .poll armed rfl
    by_cases hA5 : b = 0xA5
    · subst hA5
      exact react_timeRequest armed rfl
    · simp only [Opcode.ofByte, if_neg h55, if_neg h5A, if_neg hA5, Except.map]
      exact .unknown armed h55 h5A hA5

-- the conditions exclude each other, so what a byte does is determined
theorem Hearing.unique {b : UInt8} {d d₁ d₂ : Desk Switch} {r₁ r₂ : Except Fault Unit}
    (h₁ : Hearing b d r₁ d₁) (h₂ : Hearing b d r₂ d₂) : r₁ = r₂ ∧ d₁ = d₂ := by
  -- two rules that are not the same contradict each other in a condition
  cases h₁ <;> cases h₂ <;>
    first
    | exact ⟨rfl, rfl⟩
    | (exfalso; omega)
    | simp_all [Outbox.isPending]

theorem Hearing.hear_eq {b : UInt8} {d d' : Desk Switch} {r : Except Fault Unit}
    (hh : Hearing b d r d') (h : d.host.Sendable) : d.hear b reactions = (r, d') :=
  Prod.ext ((hear_hearing h b).unique hh).1 ((hear_hearing h b).unique hh).2

end Switch

end Powerline
