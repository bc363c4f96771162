/-
A switch over a line to an honest interface comes to its end. Each frame is sent once more for every
wrong echo; if the retries last for both frames the switching is done, and otherwise it fails at the
first frame for which they do not. It does not matter how the line cuts the frames in pieces.
-/
import Powerline.Proofs.Progress
import Powerline.Proofs.Switch.Step

namespace Powerline

/-- How a switch gives up on a frame that it has sent again so often. -/
def Switch.mismatch (retries : Nat) : Fault :=
  .callback ("checksum mismatch after " ++ toString retries ++ " retries")

/-! ## What a switch hears -/

namespace Desk.Shows

variable {sum b : UInt8} {armed : Bool} {host : Switch} {d : Desk Switch}

/-- The time of the day is nothing to send. -/
theorem sendable {outbox : Outbox} (h : d.Shows outbox host) (hs : host.Sendable) :
    d.host.Sendable := by
  obtain ⟨-, t, hhost⟩ := h
  rw [hhost]
  exact ⟨hs.address, hs.command, hs.lastFrame⟩

/-- The right echo puts the release byte on the way. -/
theorem release (h : d.Shows ⟨none, 0, ⟨true, sum⟩⟩ host) (hs : host.Sendable) :
    ∃ d', d.hear sum Switch.reactions = (.ok (), d') ∧
      d'.Shows ⟨some [Frame.release], 0, ⟨false, sum⟩⟩ { host with lastFrame := none } := by
  have hsend := h.sendable hs
  obtain ⟨houtbox, t, hhost⟩ := h
  refine ⟨_, (Switch.Hearing.release (by rw [houtbox]) (by rw [houtbox])
    (by rw [houtbox])).hear_eq hsend, ?_, t, ?_⟩
  · simp [houtbox, Mode.prepare, Echo.clear]
  · simp [hhost]

/-- A wrong echo puts the frame on the way again, while it may be sent again. -/
theorem resend {frame : Frame} (h : d.Shows ⟨none, 0, ⟨true, sum⟩⟩ host) (hs : host.Sendable)
    (hb : b ≠ sum) (last : host.lastFrame = some frame) (left : host.retries < host.maxRetries) :
    ∃ d', d.hear b Switch.reactions = (.ok (), d') ∧
      d'.Shows ⟨some frame, 0, ⟨true, frame.checksum⟩⟩ { host with retries := host.retries + 1 } := by
  have hsend := h.sendable hs
  obtain ⟨houtbox, t, hhost⟩ := h
  refine ⟨_, (Switch.Hearing.resend (by rw [houtbox]) (by rw [houtbox]; exact hb)
    (by rw [hhost]; exact last) (by rw [hhost]; exact left) (by rw [houtbox])).hear_eq hsend,
    ?_, t, ?_⟩
  · simp [Mode.prepare, Echo.arm]
  · simp [hhost]

/-- A wrong echo when all retries are spent is one too many. -/
theorem giveUp {frame : Frame} (h : d.Shows ⟨none, 0, ⟨true, sum⟩⟩ host) (hs : host.Sendable)
    (hb : b ≠ sum) (last : host.lastFrame = some frame) (spent : host.retries = host.maxRetries) :
    ∃ d', d.hear b Switch.reactions = (.error (Switch.mismatch host.maxRetries), d') := by
  have hsend := h.sendable hs
  obtain ⟨houtbox, t, hhost⟩ := h
  refine ⟨_, (Switch.Hearing.giveUp (by rw [houtbox]) (by rw [houtbox]; exact hb)
    (by rw [hhost]; exact last) (by rw [hhost]; exact spent.ge) ?_).hear_eq hsend⟩
  rw [hhost, ← spent]; rfl

/-- After the address frame the report of readiness puts the function frame on the way. -/
theorem command (h : d.Shows ⟨none, 0, ⟨false, sum⟩⟩ host) (hs : host.Sendable)
    (stage : host.stage = .sentAddress) (calm : host.clockInFlight = false) :
    ∃ d', d.hear 0x55 Switch.reactions = (.ok (), d') ∧
      d'.Shows ⟨some host.command, 0, ⟨true, host.command.checksum⟩⟩
        { host.queued host.command with stage := .sentCommand } := by
  have hsend := h.sendable hs
  obtain ⟨houtbox, t, hhost⟩ := h
  refine ⟨_, (Switch.Hearing.command (by rw [houtbox]) rfl (by rw [hhost]; exact calm)
    (by rw [hhost]; exact stage) (by rw [houtbox])).hear_eq hsend, ?_, t, ?_⟩
  · simp [hhost, Mode.prepare, Echo.arm]
  · simp [hhost, Switch.queued]

/-- After the function frame the report of readiness ends the switching. -/
theorem switched (h : d.Shows ⟨none, 0, ⟨false, sum⟩⟩ host) (hs : host.Sendable)
    (stage : host.stage = .sentCommand) (calm : host.clockInFlight = false) :
    ∃ d', d.hear 0x55 Switch.reactions = (.ok (), d') ∧
      d'.Shows ⟨none, 0, ⟨false, sum⟩⟩ { host with stage := .done } := by
  have hsend := h.sendable hs
  obtain ⟨houtbox, t, hhost⟩ := h
  refine ⟨_, (Switch.Hearing.switched (by rw [houtbox]) rfl (by rw [hhost]; exact calm)
    (by rw [hhost]; exact stage)).hear_eq hsend, ?_, t, ?_⟩
  · simp [houtbox, Echo.clear]
  · simp [hhost]

end Desk.Shows

/-! ## One exchange -/

namespace Scene

variable {Φ : Verdict → Interface → Prop} {frame : Frame} {s : Scene}

/-- The frame has come through: its last echo was right, and the interface is ready again. -/
def released (frame : Frame) (s : Scene) : Scene where
  echo := ⟨false, frame.checksum⟩
  host := { s.host with lastFrame := none, retries := s.device.wrong frame }
  device :=
    { s.device with
      frames := s.device.frames ++
        List.replicate (s.device.wrong frame + 1 - s.host.retries) frame
      awaiting := false
      releases := s.device.releases + 1
      output := [0x55] }

/-- The interface when the frame was sent as often as it may be, and the last echo was read. -/
def exhausted (frame : Frame) (s : Scene) : Interface :=
  { s.device with
    frames := s.device.frames ++ List.replicate (s.host.maxRetries + 1 - s.host.retries) frame
    awaiting := true
    output := [] }

/-- The frame is to be sent once more. -/
def retried (frame : Frame) (s : Scene) : Scene :=
  { s with
    host := { s.host with retries := s.host.retries + 1 }
    device := { s.device with frames := s.device.frames ++ [frame], awaiting := true } }

/-- A frame of two bytes is being tried: as often as it was sent again its echo was wrong. -/
structure Trying (frame : Frame) (s : Scene) : Prop where
  shape : ∃ header code, frame = [header, code] ∧ header ≠ Frame.release ∧
    header ≠ Frame.timeAnswer
  underway : s.Underway
  sendable : s.host.Sendable
  echo : s.echo = ⟨true, frame.checksum⟩
  last : s.host.lastFrame = some frame
  budget : s.host.retries ≤ s.host.maxRetries
  output : s.device.output = []
  between : s.device.frame = []
  count : s.device.frames.count frame = s.host.retries
  wrong : s.host.retries ≤ s.device.wrong frame

theorem released_retried (h : s.host.retries < s.device.wrong frame) :
    (s.retried frame).released frame = s.released frame := by
  have hn : s.device.wrong frame + 1 - s.host.retries =
      s.device.wrong frame + 1 - (s.host.retries + 1) + 1 := by omega
  simp only [released, retried, hn, List.replicate_succ, List.append_assoc, List.cons_append,
    List.nil_append]

theorem exhausted_retried (h : s.host.retries < s.host.maxRetries) :
    (s.retried frame).exhausted frame = s.exhausted frame := by
  have hn : s.host.maxRetries + 1 - s.host.retries =
      s.host.maxRetries + 1 - (s.host.retries + 1) + 1 := by omega
  simp only [exhausted, retried, hn, List.replicate_succ, List.append_assoc, List.cons_append,
    List.nil_append]

namespace Trying

theorem retried (h : s.Trying frame) (left : s.host.retries < s.host.maxRetries)
    (hwrong : s.host.retries < s.device.wrong frame) : (s.retried frame).Trying frame := by
  refine ⟨h.shape, h.underway, ⟨h.sendable.address, h.sendable.command, h.sendable.lastFrame⟩,
    h.echo, h.last, left, h.output, h.between, ?_, hwrong⟩
  show (s.device.frames ++ [frame]).count frame = s.host.retries + 1
  rw [List.count_append, h.count, List.count_singleton_self]

/-- The interface receives the frame whole, and echoes it then. -/
theorem receiveAll (h : s.Trying frame) :
    s.device.receiveAll frame =
      { s.device with
        frames := s.device.frames ++ [frame], output := [s.device.echo frame], awaiting := true } := by
  obtain ⟨header, code, rfl, hrelease, htime⟩ := h.shape
  rw [Interface.receiveAll_frame code h.between hrelease htime, h.output, List.nil_append]

/-- Before the frame is whole the interface says nothing. -/
theorem quiet (h : s.Trying frame) (k : Nat) (hk : k < frame.length) :
    (s.device.receiveAll (frame.take k)).output = [] := by
  obtain ⟨header, code, rfl, hrelease, htime⟩ := h.shape
  rcases k with _ | _ | k
  · exact h.output
  · show (s.device.receive header).output = []
    rw [Interface.receive_header h.between hrelease htime]
    exact h.output
  · simp only [List.length_cons, List.length_nil] at hk
    omega

theorem echo_ne (h : s.Trying frame) (hwrong : s.host.retries < s.device.wrong frame) :
    s.device.echo frame ≠ frame.checksum := by
  apply Interface.echo_ne
  rw [h.count]
  exact hwrong

end Trying

/-! ### One turn of the exchange -/

/-- The right echo: the frame has come through once the release byte is out. -/
theorem Trying.finishes_released (h : s.Trying frame)
    (hall : s.device.wrong frame = s.host.retries) (next : (s.released frame).Finishes Φ) :
    s.SendFinishes Φ frame := by
  have hright : s.device.echo frame = frame.checksum := by
    apply Interface.echo_eq
    rw [h.count, hall]
  refine Finishes.of_sent h.underway h.quiet ?_
  rw [h.receiveAll, hright]
  refine Finishes.of_queued rfl [Frame.release] ⟨false, frame.checksum⟩
    { s.host with lastFrame := none } h.underway Nat.one_pos ?_ ?_
  · rw [h.echo]
    intro d hd
    exact hd.release h.sendable
  · -- the release byte is out at once, and makes the interface ready
    refine Finishes.of_sent h.underway (fun k hk => ?_) ?_
    · rw [Nat.lt_one_iff.1 hk]; rfl
    · have hreceive := Interface.receiveAll_release (d := { s.device with
        frames := s.device.frames ++ [frame], output := [], awaiting := true }) h.between rfl
      simp only [Scene.released, hall, Nat.add_sub_cancel_left, List.replicate_one] at next
      simp only [hreceive]
      exact hall ▸ next

/-- A wrong echo while the retries last: the frame is tried once more. -/
theorem Trying.finishes_retried (h : s.Trying frame) (hwrong : s.host.retries < s.device.wrong frame)
    (left : s.host.retries < s.host.maxRetries) (next : (s.retried frame).SendFinishes Φ frame) :
    s.SendFinishes Φ frame := by
  have hdiffers := h.echo_ne hwrong
  have hlength : 0 < frame.length := by
    obtain ⟨_, _, rfl, -⟩ := h.shape
    exact Nat.succ_pos _
  refine Finishes.of_sent h.underway h.quiet ?_
  rw [h.receiveAll]
  refine Finishes.of_queued rfl frame ⟨true, frame.checksum⟩ (s.retried frame).host h.underway
    hlength ?_ ?_
  · rw [h.echo]
    intro d hd
    exact hd.resend h.sendable hdiffers h.last left
  · rw [← h.echo, ← h.output]
    exact next

/-- A wrong echo when the retries are spent: the frame is given up on. -/
theorem Trying.finishes_exhausted (h : s.Trying frame)
    (hwrong : s.host.retries < s.device.wrong frame) (spent : s.host.retries = s.host.maxRetries)
    (hΦ : Φ (.failed (Switch.mismatch s.host.maxRetries)) (s.exhausted frame)) :
    s.SendFinishes Φ frame := by
  have hdiffers := h.echo_ne hwrong
  refine Finishes.of_sent h.underway h.quiet ?_
  rw [h.receiveAll]
  refine Finishes.of_failed rfl (Switch.mismatch s.host.maxRetries) ?_ ?_
  · rw [h.echo]
    intro d hd
    exact hd.giveUp h.sendable hdiffers h.last spent
  · simpa only [Scene.exhausted, spent, Nat.add_sub_cancel_left, List.replicate_one] using hΦ

/-! ### The exchange -/

/-- An exchange: sent again for each wrong echo, the frame comes through if the retries last for
that, and is given up on if they do not. -/
theorem Trying.finishes (h : s.Trying frame)
    (released : s.device.wrong frame ≤ s.host.maxRetries → (s.released frame).Finishes Φ)
    (exhausted : s.host.maxRetries < s.device.wrong frame →
      Φ (.failed (Switch.mismatch s.host.maxRetries)) (s.exhausted frame)) : s.SendFinishes Φ frame := by
  -- the induction is on the wrong echoes that are still to come
  induction hn : s.device.wrong frame - s.host.retries generalizing s with
  | zero =>
    have hwrong := h.wrong
    have hall : s.device.wrong frame = s.host.retries := by omega
    exact h.finishes_released hall (released (hall ▸ h.budget))
  | succ n ih =>
    have hbudget := h.budget
    have hwrong : s.host.retries < s.device.wrong frame := by omega
    by_cases left : s.host.retries < s.host.maxRetries
    · -- what the exchange comes to is not changed by one more try
      refine h.finishes_retried hwrong left (ih (h.retried left hwrong) ?_ ?_ ?_)
      · intro hle
        rw [released_retried hwrong]
        exact released hle
      · intro hlt
        rw [exhausted_retried left]
        exact exhausted hlt
      · show s.device.wrong frame - (s.host.retries + 1) = n
        omega
    · have spent : s.host.retries = s.host.maxRetries := by omega
      exact h.finishes_exhausted hwrong spent (exhausted (spent ▸ hwrong))

end Scene

/-! ## The whole switching -/

/-- What an honest interface is left with when a switch ends with a verdict, and what that verdict
is. As often as a frame's echo went wrong the frame came once more; if that was too often for the
budget of retries, the switch gave up on it. -/
structure Interface.Served (device : Interface) (switch : Switch) (verdict : Verdict)
    (d : Interface) : Prop where
  between : d.frame = []
  quiet : d.output = []
  done : device.wrong switch.address ≤ switch.maxRetries →
    device.wrong switch.command ≤ switch.maxRetries →
    verdict = .done ∧ d.releases = 2 ∧
      d.frames = List.replicate (device.wrong switch.address + 1) switch.address ++
        List.replicate (device.wrong switch.command + 1) switch.command
  addressFails : switch.maxRetries < device.wrong switch.address →
    verdict = .failed (Switch.mismatch switch.maxRetries) ∧ d.releases = 0 ∧
      d.frames = List.replicate (switch.maxRetries + 1) switch.address
  commandFails : device.wrong switch.address ≤ switch.maxRetries →
    switch.maxRetries < device.wrong switch.command →
    verdict = .failed (Switch.mismatch switch.maxRetries) ∧ d.releases = 1 ∧
      d.frames = List.replicate (device.wrong switch.address + 1) switch.address ++
        List.replicate (switch.maxRetries + 1) switch.command

namespace Switch

variable {s : Switch} {device : Interface}

/-- The scene in which the address frame is first sent. -/
def addressScene (s : Switch) (device : Interface) : Scene :=
  ⟨⟨true, s.address.checksum⟩, s.addressSent, device⟩

/-- The scene in which the function frame is first sent. -/
def commandScene (s : Switch) (device : Interface) : Scene :=
  let before := (s.addressScene device).released s.address
  { echo := ⟨true, s.command.checksum⟩
    host := { before.host.queued s.command with stage := .sentCommand }
    device := { before.device with output := [] } }

theorem trying_address (hw : s.plan.WellFormed) (fresh : device.frames = [])
    (output : device.output = []) (between : device.frame = []) :
    (s.addressScene device).Trying s.address := by
  refine ⟨?_, ⟨by simp [addressScene, addressSent], by simp [addressScene, addressSent]⟩,
    ⟨hw.address_ne_nil, hw.command_ne_nil, ?_⟩, rfl, rfl, Nat.zero_le _, output, between, ?_,
    Nat.zero_le _⟩
  · obtain ⟨code, hcode⟩ := hw.address
    exact ⟨_, code, hcode, by decide, by decide⟩
  · rintro frame ⟨⟩
    exact hw.address_ne_nil
  · show device.frames.count s.address = 0
    rw [fresh]; rfl

theorem trying_command (hw : s.plan.WellFormed) (fresh : device.frames = [])
    (between : device.frame = []) : (s.commandScene device).Trying s.command := by
  refine ⟨?_, ⟨by simp [commandScene], by simp [commandScene]⟩,
    ⟨hw.address_ne_nil, hw.command_ne_nil, ?_⟩, rfl, rfl, Nat.zero_le _, rfl, between, ?_,
    Nat.zero_le _⟩
  · obtain ⟨header, code, hcode, -, hrelease, htime⟩ := hw.command
    exact ⟨header, code, hcode, hrelease, htime⟩
  · rintro frame ⟨⟩
    exact hw.command_ne_nil
  · -- only address frames have come so far
    show (device.frames ++ List.replicate _ s.address).count s.command = 0
    rw [fresh, List.nil_append, List.count_replicate, if_neg]
    exact fun h => hw.address_ne_command (beq_iff_eq.1 h)

end Switch

/-- From the first turn on the loop finishes, and serves the interface. -/
theorem Switch.served {s : Switch} {device : Interface} (hw : s.plan.WellFormed)
    (calm : s.clockInFlight = false) (fresh : device.frames = []) (output : device.output = [])
    (between : device.frame = []) (releases : device.releases = 0) :
    (s.addressScene device).SendFinishes (device.Served s) s.address := by
  have haddress := trying_address hw fresh output between
  have hcommand := trying_command hw fresh between
  have hlength : 0 < s.command.length := List.length_pos_of_ne_nil hw.command_ne_nil
  -- once a frame is released, none is remembered
  have hsend : ∀ host : Switch, host.address = s.address → host.command = s.command →
      host.lastFrame = none → host.Sendable := by
    intro host ha hc hl
    refine ⟨ha ▸ hw.address_ne_nil, hc ▸ hw.command_ne_nil, fun frame hf => ?_⟩
    rw [hl] at hf
    cases hf
  refine haddress.finishes (fun hi => ?_) (fun hi => ?_)
  · refine Scene.Finishes.of_queued rfl s.command ⟨true, s.command.checksum⟩
      (s.commandScene device).host hcommand.underway hlength
      (fun d hd => hd.command (hsend _ rfl rfl rfl) rfl calm) ?_
    refine hcommand.finishes (fun hj => ?_) (fun hj => ?_)
    · refine Scene.Finishes.of_settled rfl ⟨false, s.command.checksum⟩
        { ((s.commandScene device).released s.command).host with stage := .done } rfl
        (fun d hd => hd.switched (hsend _ rfl rfl rfl) rfl calm) ?_
      refine ⟨between, rfl, fun _ _ => ⟨rfl, ?_, ?_⟩, fun h => absurd hi h.not_ge,
        fun _ h => absurd hj h.not_ge⟩
      · show device.releases + 1 + 1 = 2
        rw [releases]
      · show device.frames ++ _ ++ _ = _
        rw [fresh]; rfl
    · refine ⟨between, rfl, fun _ h => absurd h hj.not_ge, fun h => absurd hi h.not_ge,
        fun _ _ => ⟨rfl, ?_, ?_⟩⟩
      · show device.releases + 1 = 1
        rw [releases]
      · show device.frames ++ _ ++ _ = _
        rw [fresh]; rfl
  · refine ⟨between, rfl, fun h => absurd h hi.not_ge, fun _ => ⟨rfl, releases, ?_⟩,
      fun h => absurd h hi.not_ge⟩
    show device.frames ++ _ = _
    rw [fresh]; rfl

/-- Completeness against an honest interface that gets the echoes of a frame wrong so often at
first: over a line that takes each write in pieces of at least one byte and answers probes as it
likes, and by a clock that never reaches the deadline, the loop ends. It ends as done if the retries
last for both frames, and otherwise fails at the first frame for which they do not; the interface has
then received each frame once and once more for every wrong echo, as far as the retries went, and no
more. -/
theorem Loop.run_served {settings : SwitchSettings} {switch : Switch}
    (h : Switch.ofSettings settings = .ok switch) (wrong : Frame → Nat) (clockFrames : Bool)
    (handle : Handle) {pieces : Nat → Nat} (hpieces : ∀ k, 0 < pieces k) (probes : Nat → Bool)
    {watch : Watch} (hwatch : watch.Below settings) :
    let line : Cable := { device := { wrong, clockFrames }, handle, pieces, probes }
    ∃ n verdict,
      (Loop.run settings (.fresh line switch Switch.reactions) watch n).1 = .ended verdict ∧
      line.device.Served switch verdict
        (Loop.run settings (.fresh line switch Switch.reactions) watch n).2.connection.line.device := by
  intro line
  have hw := Switch.wellFormed_ofSettings h
  have hstart : switch.stage = .start ∧ switch.clockInFlight = false := by
    obtain ⟨_, _, -, -, rfl⟩ := Switch.eq_of_ofSettings h
    exact ⟨rfl, rfl⟩
  refine Loop.run_of_finishes hwatch fun l ht hl => ?_
  have hrests : l.connection.Rests ⟨{}, switch, line.device⟩ := by
    rw [hl]
    exact ⟨⟨rfl, _, rfl⟩, rfl, rfl, hpieces⟩
  exact Finishes.of_start ht hrests rfl hstart.1 hstart.2 rfl hw.address_ne_nil
    (Switch.served hw hstart.2 rfl rfl rfl rfl)

/-- The whole course in an example: the address frame is sent twice, byte by byte, and every second
probe is refused. -/
theorem Loop.run_served_oneRetry :
    let switch : Switch :=
      { address := [0x04, 0x6E], command := [0x06, 0x62], maxRetries := 3, setClock := false,
        monitored := .A }
    let wrong : Frame → Nat := fun frame => if frame = switch.address then 1 else 0
    let line : Cable :=
      { device := { wrong }, pieces := fun _ => 1, probes := fun k => k % 2 = 0 }
    let watch : Watch := { readings := fun _ => 0, wall := fun _ => .epoch }
    Switch.ofSettings {} = .ok switch ∧ (∀ k, 0 < line.pieces k) ∧ watch.Below {} ∧
      ∃ n verdict,
        (Loop.run {} (.fresh line switch Switch.reactions) watch n).1 = .ended verdict ∧
        line.device.Served switch verdict
          (Loop.run {} (.fresh line switch Switch.reactions) watch n).2.connection.line.device := by
  have hbelow : Watch.Below {} { readings := fun _ => 0, wall := fun _ => .epoch } :=
    ⟨by decide, fun _ => show 0 < 0 + SwitchSettings.deadline {} by decide⟩
  exact ⟨rfl, fun _ => Nat.one_pos, hbelow,
    Loop.run_served rfl _ false 9 (fun _ => Nat.one_pos) _ hbelow⟩

end Powerline
