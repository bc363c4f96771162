/-
The budget of retries. A switch counts the failed attempts at the frame whose echo it awaits, and only
these: a frame begins with none behind it, a failed attempt is followed at once by another at the same
frame, and the exchange ends with a failure of the host's exactly when one more attempt has failed than
may be made up for. So no frame is ever attempted more often in a row than that.
-/
import Powerline.Proofs.Switch.Attempts
import Powerline.Proofs.Switch.Session

namespace Powerline

/-! ## The frames with an echo -/

/-- The frames that a plan sends with verification: its two, and that of the clock at any time. -/
def Plan.Verifies (p : Plan) (frame : Frame) : Prop :=
  frame = p.address ∨ frame = p.command ∨ ∃ t, frame = Frame.clock t p.monitored

/-- They can be told from the single bytes that a switch sends by itself. -/
theorem Plan.Verifies.length_ne_one {p : Plan} {frame : Frame} (hw : p.WellFormed)
    (h : p.Verifies frame) : frame.length ≠ 1 := by
  rcases h with rfl | rfl | ⟨t, rfl⟩
  · rw [hw.length_address]
    decide
  · rw [hw.length_command]
    decide
  · rw [Frame.length_clock]
    decide

theorem Switch.Due.verifies {s : Switch} {frame : Frame} (h : s.Due frame) :
    s.plan.Verifies frame := by
  rcases h with ⟨-, ht⟩ | ⟨-, -, rfl⟩ | ⟨-, -, rfl⟩
  · exact .inr (.inr ht)
  · exact .inl rfl
  · exact .inr (.inl rfl)

namespace Desk

variable {p : Plan} {d d' : Desk Switch}

/-! ## What holds after a failure -/

/-- No frame but a single byte was attempted more often in a row than the budget allows, and the
count of retries has not passed it. -/
structure Budgeted (p : Plan) (d : Desk Switch) : Prop where
  planned : d.host.plan = p
  spent : d.host.retries ≤ p.maxRetries
  streak : ∀ frame : Frame, frame.length ≠ 1 →
    StretchesLe (· = frame) (p.maxRetries + 1) (d.latest.map Attempt.frame)

/-- No frame but a single byte has more failed attempts in a row than may be made up for. -/
def Unspent (p : Plan) (attempts : List Attempt) : Prop :=
  ∀ frame : Frame, frame.length ≠ 1 →
    StretchesLe (fun a => a.frame = frame ∧ a.Failed) p.maxRetries attempts

/-- A frame with an echo was taken at most so often in a row. -/
theorem Budgeted.length_le (h : d.Budgeted p) (hw : p.WellFormed) {frame : Frame}
    (verifies : p.Verifies frame) {k : Nat} (inner : List.replicate k frame <:+: d.accepted) :
    k ≤ p.maxRetries + 1 := by
  have hframes : List.replicate k frame <:+: d.latest.map Attempt.frame := by
    rw [← List.reverse_infix, List.reverse_replicate, ← List.map_reverse]
    exact d.map_frame_attempts.symm ▸ inner
  have hle := h.streak frame (verifies.length_ne_one hw) _ hframes fun f hf =>
    List.eq_of_mem_replicate hf
  rwa [List.length_replicate] at hle

/-- An unspent budget has room for one more failure. -/
theorem Unspent.length_le (h : Unspent p d.latest) (hw : p.WellFormed) {frame : Frame}
    (verifies : p.Verifies frame) {wrong : List UInt8} (inner : frame.failures wrong <:+: d.attempts)
    (differed : ∀ b ∈ wrong, b ≠ frame.checksum) : wrong.length ≤ p.maxRetries := by
  have hstretch : (frame.failures wrong).reverse <:+: d.latest := by
    rw [← List.reverse_infix, List.reverse_reverse]
    exact inner
  have hle := h frame (verifies.length_ne_one hw) _ hstretch fun a ha =>
    Frame.failed_of_mem_failures differed (List.mem_reverse.1 ha)
  rwa [List.length_reverse, Frame.failures, List.length_map] at hle

/-- An attempt that has no echo yet has not failed. -/
theorem Unspent.begin {attempts : List Attempt} (h : Unspent p attempts) (frame : Frame) :
    Unspent p (⟨frame, []⟩ :: attempts) := by
  intro g hg
  refine (h g hg).cons_of_not ?_
  rintro ⟨-, b, hb, -⟩
  cases hb

/-! ## What holds until then -/

/-- The newest attempt is at the frame whose echo is awaited, after as many failed ones as the switch
counts, and these after a single byte if after anything; while no echo is awaited it is at a single
byte, if there is one. -/
structure InBudget (p : Plan) (d : Desk Switch) : Prop extends d.InStep, d.Budgeted p where
  unspent : Unspent p d.latest
  settled : d.host.lastFrame = none → ∀ a ∈ d.latest.head?, a.frame.length = 1
  underway : ∀ f, d.host.lastFrame = some f → ∃ wrong older,
    d.latest = ⟨f, []⟩ :: (f.failures wrong ++ older) ∧ wrong.length = d.host.retries ∧
      (∀ b ∈ wrong, b ≠ f.checksum) ∧ ∀ a ∈ older.head?, a.frame.length = 1

namespace InBudget

/-! ### How it comes about -/

theorem fresh {settings : SwitchSettings} {s : Switch} (h : Switch.ofSettings settings = .ok s) :
    InBudget s.plan { host := s } := by
  have step := InStep.fresh h
  obtain ⟨address, command, -, -, rfl⟩ := Switch.eq_of_ofSettings h
  exact ⟨step, ⟨rfl, Nat.zero_le _, fun _ _ => .nil⟩, fun _ _ => .nil, fun _ => nofun, nofun⟩

/-- Anything that leaves the attempts and the switch's plan, frame and count alone. -/
theorem congr (h : d.InBudget p) (step : d'.InStep) (hl : d'.latest = d.latest)
    (hplan : d'.host.plan = d.host.plan) (hlast : d'.host.lastFrame = d.host.lastFrame)
    (hretries : d'.host.retries = d.host.retries) : d'.InBudget p := by
  refine ⟨step, ⟨hplan.trans h.planned, hretries ▸ h.spent, ?_⟩, ?_, ?_, ?_⟩
  · rw [hl]; exact h.streak
  · rw [hl]; exact h.unspent
  · rw [hl, hlast]; exact h.settled
  · rw [hl, hlast, hretries]; exact h.underway

theorem note (h : d.InBudget p) {event : Event} (ha : event.accepted? = none)
    (he : event.echo? = none) : (d.note event).InBudget p :=
  h.congr (h.toInStep.note event) (latest_note ha he d) rfl rfl rfl

theorem read (h : d.InBudget p) (b : UInt8) : (d.note (.read b)).InBudget p := h.note rfl rfl

theorem released (h : d.InBudget p) (frame : Frame) : (d.released frame).InBudget p :=
  h.congr (h.toInStep.released frame) (latest_note rfl rfl _) rfl rfl rfl

theorem wellFormed (h : d.InBudget p) : p.WellFormed := h.planned ▸ h.plan

/-- A byte heard while no echo is due, before anything comes of it. -/
theorem attending (h : d.InBudget p) (idle : d.outbox.echo.armed = false) (b : UInt8)
    (occasion : Occasion) : (d.attending b occasion).InBudget p :=
  h.congr (h.toInStep.attending idle b occasion) (latest_attending_of_not_armed idle b occasion)
    rfl rfl rfl

/-- A frame with an echo is begun while none is under way: nothing of it is behind. -/
theorem begin (h : d.InBudget p) {frame : Frame} {host : Switch} (hnone : d.host.lastFrame = none)
    (step : ((d.queue .verified frame).withHost host).InStep) (planned : host.plan = p)
    (last : host.lastFrame = some frame) (retries : host.retries = 0) :
    ((d.queue .verified frame).withHost host).InBudget p := by
  refine ⟨step, ⟨planned, ?_, ?_⟩, h.unspent.begin frame, fun hnone' => ?_, fun f hf => ?_⟩
  · rw [Desk.host_withHost, retries]
    exact Nat.zero_le _
  · intro g hg
    refine (h.streak g hg).cons ?_
    rintro rfl stretch hstretch hall
    have hlen : stretch.length ≤ ([] : List Frame).length := by
      refine StretchesLe.length_le_at_head (p := (· = frame)) hstretch hall ?_
      intro f hf heq
      rw [List.head?_map] at hf
      obtain ⟨a, ha, rfl⟩ := Option.map_eq_some_iff.1 hf
      exact hg (heq ▸ h.settled hnone a ha)
    exact Nat.lt_succ_of_le (hlen.trans (Nat.zero_le _))
  · rw [Desk.host_withHost, last] at hnone'
    cases hnone'
  · obtain rfl : frame = f := Option.some.inj (last.symm.trans hf)
    exact ⟨[], d.latest, rfl, retries.symm, nofun, h.settled hnone⟩

/-- A single byte is queued, and no frame is under way. -/
theorem single (h : d.Budgeted p) {b : UInt8} (unspent : Unspent p d.latest)
    (step : (d.queue .plain [b]).InStep) (hnone : d.host.lastFrame = none) :
    (d.queue .plain [b]).InBudget p := by
  refine ⟨step, ⟨h.planned, h.spent, fun g hg => ?_⟩, unspent.begin [b], fun _ a ha => ?_,
    fun f hf => ?_⟩
  · exact (h.streak g hg).cons_of_not fun heq => hg (heq ▸ rfl)
  · obtain rfl : ⟨[b], []⟩ = a := Option.some.inj ha
    rfl
  · rw [Desk.host_queue, hnone] at hf
    cases hf

/-! ### An echo -/

/-- The attempts once an echo of the frame under way has come. -/
theorem answered (h : d.InBudget p) {f : Frame} (armed : d.outbox.echo.armed = true)
    (last : d.host.lastFrame = some f) (b : UInt8) (occasion : Occasion) :
    ∃ wrong older, d.latest = ⟨f, []⟩ :: (f.failures wrong ++ older) ∧
      (d.attending b occasion).latest = ⟨f, [b]⟩ :: (f.failures wrong ++ older) ∧
      wrong.length = d.host.retries ∧ (∀ b ∈ wrong, b ≠ f.checksum) ∧
      ∀ a ∈ older.head?, a.frame.length = 1 := by
  obtain ⟨wrong, older, hlatest, hrest⟩ := h.underway f last
  refine ⟨wrong, older, hlatest, ?_, hrest⟩
  rw [latest_attending_of_armed armed, hlatest]
  rfl

/-- The frames attempted are the same after an echo. -/
theorem budgeted_attending (h : d.InBudget p) (armed : d.outbox.echo.armed = true) (b : UInt8)
    (occasion : Occasion) : (d.attending b occasion).Budgeted p := by
  refine ⟨h.planned, h.spent, ?_⟩
  rw [latest_attending_of_armed armed, Attempt.map_frame_answer]
  exact h.streak

/-- An echo that is right, or wrong with an attempt left, leaves the budget unspent. -/
theorem unspent_attending (h : d.InBudget p) {f : Frame} (armed : d.outbox.echo.armed = true)
    (last : d.host.lastFrame = some f) {b : UInt8} (occasion : Occasion)
    (left : b ≠ f.checksum → d.host.retries < p.maxRetries) :
    Unspent p (d.attending b occasion).latest := by
  obtain ⟨wrong, older, hlatest, hanswered, hlen, -, hrest⟩ := h.answered armed last b occasion
  rw [hanswered]
  intro frame hframe
  have hbehind := h.unspent frame hframe
  rw [hlatest] at hbehind
  refine hbehind.tail.cons ?_
  rintro ⟨rfl, b', hb', differed⟩ stretch hstretch hall
  obtain rfl : b = b' := List.singleton_inj.1 hb'
  have hle := StretchesLe.length_le_at_head hstretch hall (by
    rintro a ha ⟨rfl, -⟩
    exact hframe (hrest a ha))
  rw [Frame.failures, List.length_map, hlen] at hle
  exact hle.trans_lt (left differed)

/-- The right echo is answered with the release byte. -/
theorem release (h : d.InBudget p) {b : UInt8} (armed : d.outbox.echo.armed = true)
    (matched : b = d.outbox.echo.expected) :
    (((d.attending b .echoMatched).withHost { d.host with lastFrame := none }).queue .plain
      [Frame.release]).InBudget p := by
  obtain ⟨f, hf⟩ := h.toInStep.lastFrame_eq_some armed
  have hb : b = f.checksum := matched.trans (h.expected f hf)
  have hbudgeted := h.budgeted_attending armed b .echoMatched
  exact single (d := (d.attending b .echoMatched).withHost { d.host with lastFrame := none })
    ⟨hbudgeted.planned, hbudgeted.spent, hbudgeted.streak⟩
    (h.unspent_attending armed hf .echoMatched fun differed => absurd hb differed)
    (h.toInStep.release b) rfl

/-- After a wrong echo the frame is attempted once more. -/
theorem resend (h : d.InBudget p) {b : UInt8} {frame : Frame}
    (armed : d.outbox.echo.armed = true) (differed : b ≠ d.outbox.echo.expected)
    (last : d.host.lastFrame = some frame) (left : d.host.retries < d.host.maxRetries) :
    (((d.attending b .echoDiffered).withHost
      { d.host with retries := d.host.retries + 1 }).queue .verified frame).InBudget p := by
  have hleft : d.host.retries < p.maxRetries := h.planned ▸ left
  have hb : b ≠ frame.checksum := h.expected frame last ▸ differed
  have hunspent := h.unspent_attending (b := b) armed last .echoDiffered fun _ => hleft
  have hbudgeted := h.budgeted_attending armed b .echoDiffered
  obtain ⟨wrong, older, -, hanswered, hlen, hwrong, hrest⟩ :=
    h.answered armed last b .echoDiffered
  refine ⟨h.toInStep.resend b last left, ⟨h.planned, hleft, fun g hg => ?_⟩, hunspent.begin frame,
    fun hnone => ?_, fun f hf => ?_⟩
  · refine (hbudgeted.streak g hg).cons ?_
    rintro rfl stretch hstretch hall
    -- the attempts in a row are those that the switch counts, and the one that failed just now
    rw [hanswered, ← List.cons_append, List.map_append] at hstretch
    have hle := StretchesLe.length_le_at_head (p := (· = frame)) hstretch hall (by
      intro f hf heq
      rw [List.head?_map] at hf
      obtain ⟨a, ha, rfl⟩ := Option.map_eq_some_iff.1 hf
      exact hg (heq ▸ hrest a ha))
    rw [List.length_map, List.length_cons, Frame.failures, List.length_map, hlen] at hle
    exact hle.trans_lt (Nat.succ_lt_succ hleft)
  · rw [Desk.host_queue, Desk.host_withHost, last] at hnone
    cases hnone
  · obtain rfl : frame = f := Option.some.inj (last.symm.trans hf)
    refine ⟨b :: wrong, older, ?_, congrArg Nat.succ hlen, ?_, hrest⟩
    · rw [latest_queue, latest_withHost, hanswered]
      rfl
    · intro c hc
      rcases List.mem_cons.1 hc with rfl | hc
      · exact hb
      · exact hwrong c hc

/-! ### A byte -/

/-- An inbound byte that meets no failure leads to another desk in budget. -/
theorem hear (h : d.InBudget p) {b : UInt8} (hh : Switch.Hearing b d (.ok ()) d') :
    d'.InBudget p := by
  cases hh with
  | release armed matched free => exact (h.release armed matched).note rfl rfl
  | resend armed differed last left free => exact (h.resend armed differed last left).note rfl rfl
  | disowned armed differed last =>
    obtain ⟨f, hf⟩ := h.toInStep.lastFrame_eq_some armed
    rw [last] at hf
    cases hf
  | clockOver idle hb busy =>
    have hidle := h.attending idle b .interfaceReady
    exact (hidle.congr (hidle.toInStep.clockOver rfl) rfl rfl rfl rfl).note rfl rfl
  | command idle hb calm stage free =>
    have hidle := h.attending idle b .interfaceReady
    exact (hidle.begin (h.toInStep.lastFrame_eq_none idle) (hidle.toInStep.command calm) h.planned
      rfl rfl).note rfl rfl
  | switched idle hb calm stage =>
    have hidle := h.attending idle b .interfaceReady
    exact (hidle.congr (hidle.toInStep.switched rfl) rfl rfl rfl rfl).note rfl rfl
  | unasked idle hb calm stage => exact (h.attending idle b .interfaceReady).note rfl rfl
  | poll idle hb => exact (h.attending idle b .interfacePoll).note rfl rfl
  | timeIgnored idle hb taken => exact (h.attending idle b .timeRequest).note rfl rfl
  | clock idle hb set free =>
    have hidle := h.attending idle b .timeRequest
    exact (hidle.begin (h.toInStep.lastFrame_eq_none idle) (hidle.toInStep.clockFrame set) h.planned
      rfl rfl).note rfl rfl
  | timeAnswer idle hb unset free =>
    have hidle := h.attending idle b .timeRequest
    exact (single hidle.toBudgeted hidle.unspent (hidle.toInStep.timeAnswer rfl)
      (h.toInStep.lastFrame_eq_none idle)).note rfl rfl

/-- One that meets a failure leaves the budget as it was, or spends it if the failure is the host's. -/
theorem hear_error (h : d.InBudget p) {b : UInt8} {fault : Fault}
    (hh : Switch.Hearing b d (.error fault) d') :
    d'.Budgeted p ∧ ((∀ reason, fault ≠ .callback reason) → Unspent p d'.latest) := by
  cases hh with
  | releaseRefused armed matched taken =>
    obtain ⟨f, hf⟩ := h.toInStep.lastFrame_eq_some armed
    have hb : b = f.checksum := matched.trans (h.expected f hf)
    have hbudgeted := h.budgeted_attending armed b .echoMatched
    exact ⟨⟨hbudgeted.planned, hbudgeted.spent, hbudgeted.streak⟩, fun _ =>
      h.unspent_attending armed hf .echoMatched fun differed => absurd hb differed⟩
  | resendRefused armed differed last left taken =>
    have hbudgeted := h.budgeted_attending armed b .echoDiffered
    have hleft : d.host.retries < p.maxRetries := h.planned ▸ left
    exact ⟨⟨hbudgeted.planned, hleft, hbudgeted.streak⟩, fun _ =>
      h.unspent_attending armed last .echoDiffered fun _ => hleft⟩
  | giveUp armed differed last spent hfault =>
    have hbudgeted := h.budgeted_attending armed b .echoDiffered
    exact ⟨⟨hbudgeted.planned, hbudgeted.spent, hbudgeted.streak⟩, fun hno =>
      absurd hfault (hno _)⟩
  | commandRefused idle hb calm stage taken =>
    have hidle := h.attending idle b .interfaceReady
    exact ⟨⟨hidle.planned, hidle.spent, hidle.streak⟩, fun _ => hidle.unspent⟩
  | unknown idle h55 h5A hA5 =>
    have hlatest := latest_classified_of_not_armed idle b
    refine ⟨⟨h.planned, h.spent, ?_⟩, fun _ => ?_⟩
    · rw [hlatest]
      exact h.streak
    · rw [hlatest]
      exact h.unspent

/-- With no attempt left, a wrong echo is the host's failure. -/
theorem hear_wrong_spent (h : d.InBudget p) {frame : Frame} {b : UInt8} {r : Except Fault Unit}
    (armed : d.outbox.echo.armed = true) (last : d.host.lastFrame = some frame)
    (differed : b ≠ frame.checksum) (spent : p.maxRetries ≤ d.host.retries)
    (hh : Switch.Hearing b d r d') :
    r = .error (.callback ("checksum mismatch after " ++ toString p.maxRetries ++ " retries")) := by
  have hcount : d.host.retries = p.maxRetries := Nat.le_antisymm h.spent spent
  have hmax : d.host.maxRetries = p.maxRetries := congrArg Plan.maxRetries h.planned
  have hexpected : b ≠ d.outbox.echo.expected := h.expected frame last ▸ differed
  have hgiveUp : Switch.Hearing b d _ _ :=
    .giveUp armed hexpected last (hmax.trans_le spent) rfl
  rw [(hh.unique hgiveUp).1, hcount]

/-- With one left and room for the frame, it is sent again, and the same echo is due. -/
theorem hear_wrong_left (h : d.InBudget p) {frame : Frame} {b : UInt8} {r : Except Fault Unit}
    {behind : List Attempt} (armed : d.outbox.echo.armed = true)
    (last : d.host.lastFrame = some frame) (latest : d.latest = ⟨frame, []⟩ :: behind)
    (differed : b ≠ frame.checksum) (left : d.host.retries < p.maxRetries)
    (free : d.outbox.pending = none) (hh : Switch.Hearing b d r d') :
    r = .ok () ∧ d'.latest = ⟨frame, []⟩ :: ⟨frame, [b]⟩ :: behind ∧
      d'.outbox.echo = ⟨true, frame.checksum⟩ := by
  have hmax : d.host.maxRetries = p.maxRetries := congrArg Plan.maxRetries h.planned
  have hexpected : b ≠ d.outbox.echo.expected := h.expected frame last ▸ differed
  have hresend : Switch.Hearing b d _ _ :=
    .resend armed hexpected last (hmax ▸ left) free
  obtain ⟨rfl, rfl⟩ := hh.unique hresend
  refine ⟨rfl, ?_, rfl⟩
  rw [latest_note rfl rfl, latest_queue, latest_withHost, latest_attending_of_armed armed, latest]
  rfl

/-- The host's own failure is that all the attempts it counts have failed, and the last one now. -/
theorem hear_callback (h : d.InBudget p) {b : UInt8} {reason : String}
    (hh : Switch.Hearing b d (.error (.callback reason)) d') :
    ∃ frame wrong older, p.Verifies frame ∧ d'.latest = frame.failures wrong ++ older ∧
      wrong.length = p.maxRetries + 1 ∧ ∀ b ∈ wrong, b ≠ frame.checksum := by
  cases hh with
  | @giveUp frame fault armed differed last spent hfault =>
    have hb : b ≠ frame.checksum := h.expected frame last ▸ differed
    have hcount : d.host.retries = p.maxRetries :=
      Nat.le_antisymm h.spent (h.planned ▸ spent)
    obtain ⟨wrong, older, -, hanswered, hlen, hwrong, -⟩ :=
      h.answered armed last b .echoDiffered
    refine ⟨frame, b :: wrong, older, h.planned ▸ (h.due frame last).verifies, hanswered, ?_, ?_⟩
    · rw [List.length_cons, hlen, hcount]
    · intro c hc
      rcases List.mem_cons.1 hc with rfl | hc
      · exact hb
      · exact hwrong c hc

end InBudget

end Desk

/-- A switch stays in budget until the first failure, and has kept to it after that. -/
theorem Switch.kept_inBudget (p : Plan) : Kept (Desk.InBudget p) (Desk.Budgeted p) where
  unfinished _ h := h.unfinished
  sendable _ h := h.toInStep.sendable
  fails _ h := h.toBudgeted
  time _ t h := h.congr (h.toInStep.time t) rfl rfl rfl rfl
  hear _ b r _ h hh := by
    rcases r with fault | _
    · exact ((h.read b).hear_error hh).1
    · exact (h.read b).hear hh
  advanced _ _ _ h hp hn := h.congr (h.toInStep.advanced hp hn) rfl rfl rfl rfl
  drained _ frame h _ := ((h.released frame).note rfl rfl).note rfl rfl
  address _ h _ calm _ idle := h.begin (h.toInStep.lastFrame_eq_none idle) (h.toInStep.address calm)
    h.planned rfl rfl

end Powerline
