/-
A switch keeps to the grammar of a session: whatever the line, the waits and the inbound bytes are,
the frames taken so far begin a word of the grammar, and the stage tells which of the two frames
are among them.
-/
import Powerline.Proofs.Switch.Grammar
import Powerline.Proofs.Switch.Step
import Powerline.Script.Line
import Powerline.Script.Waits

namespace Powerline

namespace Desk

variable {p : Plan} {d d' : Desk Switch}

/-! ## What the stage tells -/

/-- The stage tells which of the two frames are taken, and the last one that the session is whole. -/
structure Staged (p : Plan) (d : Desk Switch) : Prop where
  addressed : p.address ∈ d.accepted ↔ d.host.stage ≠ .start
  commanded : p.command ∈ d.accepted ↔ d.host.stage = .sentCommand ∨ d.host.stage = .done
  finished : d.host.stage = .done → ∃ whole ∈ p.session, whole <+: d.sendings

namespace Staged

/-- It is a matter of the sendings and the stage alone. -/
theorem congr (h : d.Staged p) (hs : d'.sendings = d.sendings)
    (hstage : d'.host.stage = d.host.stage) : d'.Staged p := by
  have ha : d'.accepted = d.accepted := by rw [← map_frame_sendings, hs, map_frame_sendings]
  constructor
  · rw [ha, hstage]
    exact h.addressed
  · rw [ha, hstage]
    exact h.commanded
  · rw [hs, hstage]
    exact h.finished

/-- One more frame, and the stage it leads to. -/
theorem queue (h : d.Staged p) (mode : Mode) {frame : Frame} (host : Switch)
    (ha : p.address = frame ∨ d.host.stage ≠ .start ↔ host.stage ≠ .start)
    (hc : p.command = frame ∨ (d.host.stage = .sentCommand ∨ d.host.stage = .done) ↔
      host.stage = .sentCommand ∨ host.stage = .done)
    (hd : host.stage = .done → d.host.stage = .done) :
    ((d.queue mode frame).withHost host).Staged p := by
  have hmem : ∀ g, g ∈ ((d.queue mode frame).withHost host).accepted ↔
      g = frame ∨ g ∈ d.accepted := by
    intro g
    show g ∈ (d.queue mode frame).accepted ↔ _
    rw [accepted_queue, List.mem_append, List.mem_singleton, or_comm]
  constructor
  · rw [hmem, h.addressed]
    exact ha
  · rw [hmem, h.commanded]
    exact hc
  · intro hdone
    obtain ⟨whole, hwhole, hpre⟩ := h.finished (hd hdone)
    exact ⟨whole, hwhole, hpre.trans (List.prefix_append _ _)⟩

/-- A frame that is neither of the two leaves the stage alone. -/
theorem queue_other (h : d.Staged p) (mode : Mode) {frame : Frame} (host : Switch)
    (ha : frame ≠ p.address) (hc : frame ≠ p.command) (hstage : host.stage = d.host.stage) :
    ((d.queue mode frame).withHost host).Staged p := by
  apply h.queue mode host
  · simp [hstage, ha.symm]
  · simp [hstage, hc.symm]
  · intro hd
    rwa [hstage] at hd

end Staged

/-! ## What holds after a failure -/

/-- The frames taken begin a word of the grammar, and the stage tells how much of it. -/
structure Follows (p : Plan) (d : Desk Switch) : Prop extends d.Staged p where
  begun : ∃ whole ∈ p.session, d.sendings <+: whole

theorem Follows.congr (h : d.Follows p) (hs : d'.sendings = d.sendings)
    (hstage : d'.host.stage = d.host.stage) : d'.Follows p :=
  ⟨h.toStaged.congr hs hstage, hs ▸ h.begun⟩

/-! ## What holds until then -/

/-- While no echo is due the sendings are a word as far as the stage; while one is due they end in
the tries of its frame, and any exchange of that frame would make them such a word. -/
structure InSession (p : Plan) (d : Desk Switch) : Prop extends d.InStep, d.Staged p where
  planned : d.host.plan = p
  answers : d.answers = []
  settled : d.host.lastFrame = none → d.sendings ∈ p.upTo d.host.stage
  underway : ∀ f, d.host.lastFrame = some f → ∃ before wrong,
    d.sendings = before ++ f.tries wrong ∧ wrong.length = d.host.retries ∧
    (∀ b ∈ wrong, b ≠ f.checksum) ∧
    ∀ more ∈ f.exchange p.maxRetries, before ++ more ∈ p.upTo d.host.stage

namespace InSession

/-! ### How it comes about -/

theorem ofSettled (step : d.InStep) (staged : d.Staged p) (planned : d.host.plan = p)
    (answers : d.answers = []) (last : d.host.lastFrame = none)
    (settled : d.sendings ∈ p.upTo d.host.stage) : d.InSession p := by
  refine ⟨step, staged, planned, answers, fun _ => settled, ?_⟩
  intro f hf
  rw [last] at hf
  cases hf

theorem ofUnderway {f : Frame} (before : List Sending) (wrong : List UInt8) (step : d.InStep)
    (staged : d.Staged p) (planned : d.host.plan = p) (answers : d.answers = [])
    (last : d.host.lastFrame = some f) (tries : d.sendings = before ++ f.tries wrong)
    (retries : wrong.length = d.host.retries) (differed : ∀ b ∈ wrong, b ≠ f.checksum)
    (closing : ∀ more ∈ f.exchange p.maxRetries, before ++ more ∈ p.upTo d.host.stage) :
    d.InSession p := by
  refine ⟨step, staged, planned, answers, fun hf => ?_, fun g hg => ?_⟩
  · rw [last] at hf; cases hf
  · obtain rfl : f = g := Option.some.inj (last.symm.trans hg)
    exact ⟨before, wrong, tries, retries, differed, closing⟩

/-- Anything that leaves the sendings and the switch's plan, stage and frame alone. -/
theorem congr (h : d.InSession p) (step : d'.InStep) (hs : d'.sendings = d.sendings)
    (ha : d'.answers = d.answers) (hplan : d'.host.plan = d.host.plan)
    (hstage : d'.host.stage = d.host.stage) (hlast : d'.host.lastFrame = d.host.lastFrame)
    (hretries : d'.host.retries = d.host.retries) : d'.InSession p := by
  refine ⟨step, h.toStaged.congr hs hstage, hplan.trans h.planned, ha.trans h.answers, ?_, ?_⟩
  · rw [hlast, hs, hstage]; exact h.settled
  · rw [hlast, hs, hstage, hretries]; exact h.underway

theorem fresh {settings : SwitchSettings} {s : Switch} (h : Switch.ofSettings settings = .ok s) :
    InSession s.plan { host := s } := by
  have step := InStep.fresh h
  obtain ⟨address, command, -, -, rfl⟩ := Switch.eq_of_ofSettings h
  refine ofSettled step ⟨?_, ?_, fun hd => by cases hd⟩ rfl rfl rfl (Language.nil_mem_kstar _)
  · simp [Desk.accepted, journal]
  · simp [Desk.accepted, journal]

/-! ### What follows from it -/

/-- The right echo of the frame under way closes its exchange. -/
theorem closes (h : d.InSession p) {f : Frame} (last : d.host.lastFrame = some f) :
    d.sendings ++ [⟨[f.checksum], [Frame.release]⟩] ∈ p.upTo d.host.stage := by
  obtain ⟨before, wrong, hs, hlen, hwrong, closing⟩ := h.underway f last
  have hbudget : wrong.length ≤ p.maxRetries := by
    rw [hlen, ← h.planned]
    exact h.retries
  rw [hs, List.append_assoc]
  exact closing _ (Frame.mem_exchange wrong hbudget hwrong)

theorem follows (h : d.InSession p) : d.Follows p := by
  refine ⟨h.toStaged, ?_⟩
  cases hlast : d.host.lastFrame with
  | none => exact Plan.isPrefix_of_mem_upTo (h.settled hlast)
  | some f =>
    obtain ⟨whole, hwhole, hpre⟩ := Plan.isPrefix_of_mem_upTo (h.closes hlast)
    exact ⟨whole, hwhole, (List.prefix_append _ _).trans hpre⟩

theorem wellFormed (h : d.InSession p) : p.WellFormed := h.planned ▸ h.plan

/-- If the frame under way is one of the two, the stage tells that it is taken. -/
theorem stage_of_underway (h : d.InSession p) {frame : Frame} (last : d.host.lastFrame = some frame) :
    (p.address = frame → d.host.stage ≠ .start) ∧
      (p.command = frame → d.host.stage = .sentCommand) := by
  have hadd : d.host.address = p.address := congrArg Plan.address h.planned
  have hcom : d.host.command = p.command := congrArg Plan.command h.planned
  rcases h.due frame last with ⟨-, t, rfl⟩ | ⟨-, hstage, rfl⟩ | ⟨-, hstage, rfl⟩
  · -- a clock frame is longer than either of the two
    obtain ⟨hna, hnc⟩ := h.wellFormed.foreign (Frame.clock t d.host.monitored)
      (by simp [Frame.length_clock])
    exact ⟨fun ha => absurd ha.symm hna, fun hc => absurd hc.symm hnc⟩
  · rw [hadd, hstage]
    exact ⟨fun _ => by simp, fun hc => absurd hc.symm h.wellFormed.address_ne_command⟩
  · rw [hcom, hstage]
    exact ⟨fun _ => by simp, fun _ => rfl⟩

/-! ### What keeps it -/

theorem note (h : d.InSession p) {event : Event} (ha : event.accepted? = none)
    (he : event.echo? = none) : (d.note event).InSession p := by
  refine h.congr (h.toInStep.note event) (sendings_note ha d) ?_ rfl rfl rfl rfl
  rw [answers_note ha, he]
  exact List.append_nil _

theorem released (h : d.InSession p) (frame : Frame) : (d.released frame).InSession p :=
  h.congr (h.toInStep.released frame) rfl (List.append_nil _) rfl rfl rfl rfl

/-- A byte heard while no echo is due, before anything comes of it. -/
theorem attending (h : d.InSession p) (idle : d.outbox.echo.armed = false) (b : UInt8)
    (occasion : Occasion) : (d.attending b occasion).InSession p :=
  h.congr (h.toInStep.attending idle b occasion) rfl (answers_attending_of_not_armed idle b occasion)
    rfl rfl rfl rfl

/-- A frame is begun while none is under way. -/
theorem begin (h : d.InSession p) {frame : Frame} {host : Switch}
    (step : ((d.queue .verified frame).withHost host).InStep)
    (staged : ((d.queue .verified frame).withHost host).Staged p)
    (planned : host.plan = p) (last : host.lastFrame = some frame) (retries : host.retries = 0)
    (closing : ∀ more ∈ frame.exchange p.maxRetries, d.sendings ++ more ∈ p.upTo host.stage) :
    ((d.queue .verified frame).withHost host).InSession p := by
  have hwrong : ∀ b ∈ ([] : List UInt8), b ≠ frame.checksum := by
    intro b hb
    cases hb
  refine ofUnderway d.sendings [] step staged planned rfl last ?_ retries.symm hwrong closing
  show d.sendings ++ [⟨d.answers, frame⟩] = _
  rw [h.answers]; rfl

/-- The right echo is answered with the release byte. -/
theorem release (h : d.InSession p) {b : UInt8} (armed : d.outbox.echo.armed = true)
    (matched : b = d.outbox.echo.expected) :
    (((d.attending b .echoMatched).withHost { d.host with lastFrame := none }).queue .plain
      [Frame.release]).InSession p := by
  obtain ⟨f, hf⟩ := h.toInStep.lastFrame_eq_some armed
  have hb : b = f.checksum := matched.trans (h.expected f hf)
  obtain ⟨hna, hnc⟩ := h.wellFormed.foreign [Frame.release] (by simp)
  have staged : ((d.attending b .echoMatched).withHost { d.host with lastFrame := none }).Staged p :=
    h.toStaged.congr rfl rfl
  refine ofSettled (h.toInStep.release b) (staged.queue_other .plain
    { d.host with lastFrame := none } hna hnc rfl) h.planned rfl rfl ?_
  show d.sendings ++ [⟨(d.attending b .echoMatched).answers, [Frame.release]⟩] ∈
    p.upTo d.host.stage
  rw [answers_attending_of_armed armed, h.answers, hb]
  exact h.closes hf

/-- After a wrong echo the frame is tried once more. -/
theorem resend (h : d.InSession p) {b : UInt8} {frame : Frame}
    (armed : d.outbox.echo.armed = true) (differed : b ≠ d.outbox.echo.expected)
    (last : d.host.lastFrame = some frame) (left : d.host.retries < d.host.maxRetries) :
    (((d.attending b .echoDiffered).withHost
      { d.host with retries := d.host.retries + 1 }).queue .verified frame).InSession p := by
  obtain ⟨before, wrong, hs, hlen, hwrong, closing⟩ := h.underway frame last
  have hb : b ≠ frame.checksum := h.expected frame last ▸ differed
  have staged : ((d.attending b .echoDiffered).withHost
      { d.host with retries := d.host.retries + 1 }).Staged p := h.toStaged.congr rfl rfl
  obtain ⟨hadd, hcom⟩ := h.stage_of_underway last
  refine ofUnderway before (wrong ++ [b]) (h.toInStep.resend b last left)
    (staged.queue .verified { d.host with retries := d.host.retries + 1 } ?_ ?_
      (fun hd => hd)) h.planned rfl last ?_ ?_ ?_ closing
  -- sent again, the frame is no news to the stage
  · exact or_iff_right_of_imp hadd
  · exact or_iff_right_of_imp fun hc => .inl (hcom hc)
  · show d.sendings ++ [⟨(d.attending b .echoDiffered).answers, frame⟩] = _
    rw [answers_attending_of_armed armed, h.answers, hs, Frame.tries_concat, List.append_assoc]
    rfl
  · simpa using hlen
  · intro c hc
    rcases List.mem_append.1 hc with hc | hc
    · exact hwrong c hc
    · rwa [List.mem_singleton.1 hc]

/-- The address frame is begun. -/
theorem address (h : d.InSession p) (start : d.host.stage = .start)
    (calm : d.host.clockInFlight = false) (idle : d.outbox.echo.armed = false) :
    ((d.queue .verified d.host.address).withHost d.host.addressSent).InSession p := by
  obtain rfl : d.host.plan = p := h.planned
  have hne : d.host.plan.command ≠ d.host.address := h.plan.address_ne_command.symm
  refine h.begin (h.toInStep.address calm) (h.toStaged.queue .verified _ ?_ ?_ ?_) rfl rfl rfl ?_
  · exact ⟨fun _ => by simp [Switch.addressSent], fun _ => .inl rfl⟩
  · simp [Switch.addressSent, hne, start]
  · intro hd; cases hd
  · have hsettled := h.settled (h.toInStep.lastFrame_eq_none idle)
    rw [start] at hsettled
    intro more hmore
    exact Plan.upTo_address hsettled hmore

/-- After the address frame's exchange the function frame is begun. -/
theorem command (h : d.InSession p) (stage : d.host.stage = .sentAddress)
    (calm : d.host.clockInFlight = false) (idle : d.outbox.echo.armed = false) :
    ((d.queue .verified d.host.command).withHost
      { d.host.queued d.host.command with stage := .sentCommand }).InSession p := by
  obtain rfl : d.host.plan = p := h.planned
  have hne : d.host.plan.address ≠ d.host.command := h.plan.address_ne_command
  refine h.begin (h.toInStep.command calm) (h.toStaged.queue .verified _ ?_ ?_ ?_) rfl rfl rfl ?_
  · simp [hne, stage]
  · exact ⟨fun _ => .inl rfl, fun _ => .inl rfl⟩
  · intro hd; cases hd
  · have hsettled := h.settled (h.toInStep.lastFrame_eq_none idle)
    rw [stage] at hsettled
    intro more hmore
    exact Plan.upTo_command hsettled hmore

/-- A clock frame is begun. -/
theorem clockFrame (h : d.InSession p) (set : d.host.setClock = true)
    (idle : d.outbox.echo.armed = false) :
    ((d.queue .verified (Frame.clock d.host.localTime d.host.monitored)).withHost
      { d.host.queued (Frame.clock d.host.localTime d.host.monitored) with
        clockInFlight := true }).InSession p := by
  obtain rfl : d.host.plan = p := h.planned
  obtain ⟨hna, hnc⟩ := h.plan.foreign
    (Frame.clock d.host.localTime d.host.monitored) (by simp [Frame.length_clock])
  refine h.begin (h.toInStep.clockFrame set) (h.toStaged.queue_other .verified _ hna hnc rfl)
    rfl rfl rfl ?_
  have hsettled := h.settled (h.toInStep.lastFrame_eq_none idle)
  intro more hmore
  exact Plan.upTo_aside hsettled (Plan.mem_aside_of_clock set hmore)

/-- The bare answer to a request for the time. -/
theorem timeAnswer (h : d.InSession p) (unset : d.host.setClock = false)
    (idle : d.outbox.echo.armed = false) : (d.queue .plain [Frame.timeAnswer]).InSession p := by
  obtain rfl : d.host.plan = p := h.planned
  have hnone := h.toInStep.lastFrame_eq_none idle
  obtain ⟨hna, hnc⟩ := h.plan.foreign [Frame.timeAnswer] (by simp)
  refine ofSettled (h.toInStep.timeAnswer idle) (h.toStaged.queue_other .plain d.host hna hnc rfl)
    rfl rfl hnone ?_
  show d.sendings ++ [⟨d.answers, [Frame.timeAnswer]⟩] ∈ d.host.plan.upTo d.host.stage
  rw [h.answers]
  exact Plan.upTo_aside (h.settled hnone) (Plan.mem_aside_of_unset unset)

/-- The function frame's exchange is over, and with it the session. -/
theorem switched (h : d.InSession p) (stage : d.host.stage = .sentCommand)
    (idle : d.outbox.echo.armed = false) :
    (d.withHost { d.host with stage := .done }).InSession p := by
  have hnone := h.toInStep.lastFrame_eq_none idle
  have hsettled := h.settled hnone
  rw [stage] at hsettled
  refine ofSettled (h.toInStep.switched idle) ⟨?_, ?_, fun _ => ?_⟩ h.planned h.answers hnone hsettled
  · exact h.addressed.trans (by simp [stage])
  · exact h.commanded.trans (by simp [stage])
  · exact ⟨d.sendings, hsettled, List.prefix_refl _⟩

/-- An inbound byte that meets no failure leads to another desk in session, and one that does leaves
the sendings as they are. -/
theorem hear (h : d.InSession p) {b : UInt8} {r : Except Fault Unit}
    (hh : Switch.Hearing b d r d') : Ends (InSession p) (Follows p) (r, d') := by
  have hfollows := h.follows
  cases hh with
  | release armed matched free => exact (h.release armed matched).note rfl rfl
  | releaseRefused armed matched taken => exact hfollows.congr rfl rfl
  | resend armed differed last left free => exact (h.resend armed differed last left).note rfl rfl
  | resendRefused armed differed last left taken => exact hfollows.congr rfl rfl
  | giveUp armed differed last spent hfault => exact hfollows.congr rfl rfl
  | disowned armed differed last =>
    obtain ⟨f, hf⟩ := h.toInStep.lastFrame_eq_some armed
    rw [last] at hf
    cases hf
  | clockOver idle hb busy =>
    have hidle := h.attending idle b .interfaceReady
    exact (hidle.congr (hidle.toInStep.clockOver rfl) rfl rfl rfl rfl rfl rfl).note rfl rfl
  | command idle hb calm stage free =>
    exact ((h.attending idle b .interfaceReady).command stage calm rfl).note rfl rfl
  | commandRefused idle hb calm stage taken => exact hfollows.congr rfl rfl
  | switched idle hb calm stage =>
    exact ((h.attending idle b .interfaceReady).switched stage rfl).note rfl rfl
  | unasked idle hb calm stage => exact (h.attending idle b .interfaceReady).note rfl rfl
  | poll idle hb => exact (h.attending idle b .interfacePoll).note rfl rfl
  | timeIgnored idle hb taken => exact (h.attending idle b .timeRequest).note rfl rfl
  | clock idle hb set free =>
    exact ((h.attending idle b .timeRequest).clockFrame set rfl).note rfl rfl
  | timeAnswer idle hb unset free =>
    exact ((h.attending idle b .timeRequest).timeAnswer unset rfl).note rfl rfl
  | unknown idle h55 h5A hA5 => exact hfollows.congr rfl rfl

end InSession

end Desk

/-! ## Along a run -/

/-- A switch stays in session until the first failure, and has followed the grammar after it. -/
theorem Switch.kept_inSession (p : Plan) : Kept (Desk.InSession p) (Desk.Follows p) where
  unfinished _ h := h.unfinished
  sendable _ h := h.toInStep.sendable
  fails _ h := h.follows
  time _ t h := h.congr (h.toInStep.time t) rfl rfl rfl rfl rfl rfl
  hear _ _ _ _ h hh := (h.note rfl rfl).hear hh
  advanced _ _ _ h hp hn := h.congr (h.toInStep.advanced hp hn) rfl rfl rfl rfl rfl rfl
  drained _ frame h _ := ((h.released frame).note rfl rfl).note rfl rfl
  address _ h start calm _ idle := h.address start calm idle

variable {τ ω : Type}

/-- The session grammar: after any number of turns of the loop, over any line and in any
surroundings, the frames taken so far are, with the echoes between them, the beginning of a word of
the switch's session. No address frame is among them exactly at the start, no function frame exactly
until the switch has sent its command, and a switch that is done has a whole session behind it. The
loop ends as done exactly when the stage says so. -/
theorem Loop.run_sendings_isPrefix [Line τ] [Surroundings ω τ] {settings : SwitchSettings}
    {switch : Switch} (h : Switch.ofSettings settings = .ok switch) (line : τ) (world : ω) (n : Nat) :
    let r := Loop.run settings (.fresh line switch Switch.reactions) world n
    let d := r.2.connection.toDesk
    d.accepted = d.sendings.map Sending.frame ∧
      (∃ whole ∈ switch.plan.session, d.sendings <+: whole) ∧
      (d.host.stage = .start ↔ switch.address ∉ d.accepted) ∧
      (d.host.stage = .sentAddress ↔ switch.address ∈ d.accepted ∧ switch.command ∉ d.accepted) ∧
      (d.host.stage = .sentCommand ∨ d.host.stage = .done ↔ switch.command ∈ d.accepted) ∧
      (d.host.stage = .done → ∃ whole ∈ switch.plan.session, whole <+: d.sendings) ∧
      (r.1 = .ended .done → d.host.stage = .done) ∧
      (r.1 = .waiting → d.host.stage ≠ .done) := by
  intro r d
  have hstart : switch.stage ≠ .done := by
    obtain ⟨_, _, -, -, rfl⟩ := Switch.eq_of_ofSettings h
    simp
  have htells := Loop.run_tells settings line switch world n hstart
  have hfollows : d.Follows switch.plan :=
    ((Switch.kept_inSession switch.plan).run settings line switch world n
      (Desk.InSession.fresh h)).fails fun _ hd => hd.follows
  obtain ⟨⟨addressed, commanded, finished⟩, begun⟩ := hfollows
  change switch.address ∈ d.accepted ↔ _ at addressed
  change switch.command ∈ d.accepted ↔ _ at commanded
  refine ⟨d.map_frame_sendings.symm, begun, ?_, ?_, commanded.symm, finished, ?_, ?_⟩
  · rw [addressed, not_not]
  · rw [addressed, commanded]
    cases d.host.stage <;> simp
  · exact fun hr => htells.1 (congrArg Outcome.verdict? hr)
  · exact fun hr => htells.2 (congrArg Outcome.verdict? hr)

/-- The waits of an exchange whose first echo is wrong and whose second is right. -/
def ScriptedWaits.oneRetry : ScriptedWaits ScriptedLine where
  waits :=
    let readable := { finding := .ok { readable := [42] } }
    [{ finding := .ok {} }, { finding := .ok { writable := [42] } }, readable, readable]

/-- There the address frame is sent twice, the second time after the wrong echo, and then released. -/
theorem Loop.run_sendings_isPrefix_oneRetry :
    let switch : Switch :=
      { address := [0x04, 0x6E], command := [0x06, 0x62], maxRetries := 3, setClock := false,
        monitored := .A }
    let line : ScriptedLine := { reads := [.byte 0x00, .byte 0x72] }
    let r := Loop.run {} (.fresh line switch Switch.reactions) ScriptedWaits.oneRetry 4
    let d := r.2.connection.toDesk
    Switch.ofSettings {} = .ok switch ∧
      d.sendings = [⟨[], [0x04, 0x6E]⟩, ⟨[0x00], [0x04, 0x6E]⟩, ⟨[0x72], [0x00]⟩] ∧
      d.accepted = d.sendings.map Sending.frame ∧
      (∃ whole ∈ switch.plan.session, d.sendings <+: whole) ∧
      (d.host.stage = .start ↔ switch.address ∉ d.accepted) ∧
      (d.host.stage = .sentAddress ↔ switch.address ∈ d.accepted ∧ switch.command ∉ d.accepted) ∧
      (d.host.stage = .sentCommand ∨ d.host.stage = .done ↔ switch.command ∈ d.accepted) ∧
      (d.host.stage = .done → ∃ whole ∈ switch.plan.session, whole <+: d.sendings) ∧
      (r.1 = .ended .done → d.host.stage = .done) ∧
      (r.1 = .waiting → d.host.stage ≠ .done) := by
  exact ⟨rfl, by decide, Loop.run_sendings_isPrefix rfl _ _ _⟩

end Powerline
