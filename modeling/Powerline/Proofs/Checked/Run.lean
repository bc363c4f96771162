/-
A run in checked arithmetic, which comes to a stop where a calculation has no result: where the clock
cannot show the deadline, a duration or a retry is too large for its word, more of a frame is sent
than it has, or a number of a clock frame does not fit. Settings that are accepted bring none of this
about but the first, and only with a deadline that is out of the clock's reach.
-/
import Powerline.Command
import Powerline.Proofs.Checked.Frames
import Powerline.Proofs.Switch.Session

namespace Powerline

open Checked

variable {τ ω σ : Type}

/-! ## The outbox and the line -/

/-- The bytes of a frame that are sent are none but its own, and their count is the sum of the writes. -/
def Outbox.drain? [Line τ] (o : Outbox) (line : τ) :
    Option (Except Fault Progress × Outbox × τ) :=
  match o.pending with
  | none => some (.ok .drained, o, line)
  | some frame => do
    let unsent ← from? o.sent frame
    match Line.write unsent line with
    | (.error e, line) => return (.error (.writeFailed e.message), o, line)
    | (.ok 0, line) => return (.error (.writeFailed "transport accepted no bytes"), o, line)
    | (.ok taken, line) =>
      let sent ← add? 64 o.sent (min taken unsent.length)
      if sent < frame.length then
        let remaining ← subtract? frame.length sent
        return (.ok (.partly sent remaining), { o with sent }, line)
      else return (.ok .drained, { o with pending := none, sent := 0 }, line)

theorem Outbox.drain?_eq [Line τ] {o : Outbox} {frame : Frame} (line : τ)
    (pending : o.pending = some frame) (unfinished : o.sent < frame.length)
    (short : frame.length < 2 ^ 64) : o.drain? line = some (o.drain line) := by
  unfold drain? drain
  simp only [pending, from?_of_le unfinished.le, Option.bind_eq_bind, Option.bind_some]
  rcases Line.write (frame.drop o.sent) line with ⟨e | _ | taken, line⟩
  · rfl
  · rfl
  · have hsent : o.sent + min (taken + 1) (frame.length - o.sent) < 2 ^ 64 := by
      omega
    simp only [List.length_drop, add?_of_lt hsent, Option.bind_some, advance, pending]
    split
    · rename_i more
      rw [subtract?_of_le more.le]
      rfl
    · rfl

theorem Outbox.remaining_advance_le (o : Outbox) (frame : Frame) (taken : Nat) :
    (o.advance frame taken).1.remaining ≤ frame.length - o.sent := by
  simp only [advance]
  split
  · show frame.length - _ ≤ frame.length - o.sent
    omega
  · exact Nat.zero_le _

/-- What remains of a frame after a write was there before it. -/
theorem Outbox.remaining_le [Line τ] {o : Outbox} {line : τ} {progress : Progress}
    (h : (o.drain line).1 = .ok progress) : progress.remaining ≤ o.unsent.length := by
  unfold drain at h
  cases hp : o.pending with
  | none =>
    simp only [hp] at h
    cases h
    exact Nat.zero_le _
  | some frame =>
    simp only [hp] at h
    rw [unsent_of_some hp, List.length_drop]
    rcases hw : Line.write (frame.drop o.sent) line with ⟨e | _ | taken, line⟩ <;>
      simp only [hw] at h
    · cases h
    · cases h
    · cases h
      exact o.remaining_advance_le frame (taken + 1)

namespace Connection

variable [Line τ]

/-- The bytes written are those that are no longer to be written. -/
def drain? (c : Connection τ σ) : Option (Except Fault Progress × Connection τ σ) := do
  let before ← subtract? (c.outbox.pending.getD []).length c.outbox.sent
  match ← c.outbox.drain? c.line with
  | (.error fault, outbox, line) => return (.error fault, { c with outbox, line })
  | (.ok progress, outbox, line) =>
    let written ← subtract? before progress.remaining
    let after := { c with outbox, line, transmitted := c.transmitted + UInt64.ofNat written }
    if progress = .drained ∧ 0 < before then
      let desk := after.toDesk.note (.released (c.outbox.pending.getD []))
      let (result, after) := { after with toDesk := desk }.react .drained
      return (result.map fun _ => progress, after)
    else return (.ok progress, after)

def drainIf? (writable : Bool) (c : Connection τ σ) :
    Option (Except Fault Unit × Connection τ σ) :=
  if writable then do
    let (result, c) ← c.drain?
    return (result.map fun _ => (), c)
  else some (.ok (), c)

def transmit? (waited writable : Bool) (c : Connection τ σ) :
    Option (Except Fault Unit × Connection τ σ) :=
  if !c.outbox.isPending then some (.ok (), c)
  else if waited then c.drainIf? writable
  else
    match Line.probe c.line with
    | (.error fault, line) => some (.error (.writeFailed fault.message), { c with line })
    | (.ok free, line) => { c with line }.drainIf? free

section
variable {c : Connection τ σ} (unfinished : c.outbox.Unfinished)
  (short : ∀ frame, c.outbox.pending = some frame → frame.length < 2 ^ 64)
include unfinished short

theorem drain?_eq (pending : c.outbox.pending ≠ none) : c.drain? = some c.drain := by
  obtain ⟨frame, hp⟩ := Option.ne_none_iff_exists'.1 pending
  have hsent := unfinished frame hp
  have hunsent : c.outbox.unsent.length = frame.length - c.outbox.sent := by
    rw [Outbox.unsent_of_some hp, List.length_drop]
  have hgetD : c.outbox.pending.getD [] = frame := by
    rw [hp]
    rfl
  unfold drain? drain
  rw [Outbox.drain?_eq c.line hp hsent (short frame hp), hgetD, hunsent]
  simp only [subtract?_of_le hsent.le, Option.bind_eq_bind, Option.bind_some]
  rcases hd : c.outbox.drain c.line with ⟨fault | progress, outbox, line⟩
  · rfl
  · have hremaining : progress.remaining ≤ frame.length - c.outbox.sent := by
      rw [← hunsent]
      exact Outbox.remaining_le (congrArg Prod.fst hd)
    simp only [subtract?_of_le hremaining, Option.bind_some]
    split
    · rfl
    · rfl

theorem drainIf?_eq (writable : Bool) (pending : c.outbox.pending ≠ none) :
    c.drainIf? writable = some (c.drainIf writable) := by
  unfold drainIf? drainIf
  split
  · rw [drain?_eq unfinished short pending]
    rfl
  · rfl

theorem transmit?_eq (waited writable : Bool) :
    c.transmit? waited writable = some (c.transmit waited writable) := by
  unfold transmit? transmit
  cases hp : c.outbox.pending with
  | none =>
    rw [Outbox.isPending_of_none hp]
    rfl
  | some frame =>
    have hpending : c.outbox.pending ≠ none := by simp [hp]
    rw [Outbox.isPending_of_some hp]
    cases waited with
    | true => exact drainIf?_eq unfinished short writable hpending
    | false =>
      rcases Line.probe c.line with ⟨e | free, line⟩
      · rfl
      · exact drainIf?_eq (c := { c with line }) unfinished short free hpending

end

end Connection

/-! ## The reactions of a switch -/

namespace Switch

/-- The answer to a request for the time, at the desk where it is to be given. -/
def onTimeRequest? (d : Desk Switch) : Option (Reaction Switch Unit) :=
  if d.outbox.isPending then some (pure ())
  else if d.host.setClock then do
    let frame ← Frame.clock? d.host.localTime d.host.monitored
    return do
      .send .verified frame
      .set { d.host.queued frame with clockInFlight := true }
  else some (.send .plain [Frame.timeAnswer])

/-- What follows a wrong echo; the retries are counted in 32 bits. -/
def onEchoDiffered? (s : Switch) : Option (Reaction Switch Unit) :=
  match s.lastFrame with
  | none => some (pure ())
  | some frame =>
    if s.retries ≥ s.maxRetries then
      some (.abort (.callback ("checksum mismatch after " ++ toString s.retries ++ " retries")))
    else do
      let retries ← add? 32 s.retries 1
      return do
        .set { s with retries }
        .send .verified frame

/-- The reaction to an occasion, at the desk where it begins. -/
def reaction? (occasion : Occasion) (d : Desk Switch) : Option (Reaction Switch Unit) :=
  match occasion with
  | .timeRequest => onTimeRequest? d
  | .echoDiffered => onEchoDiffered? d.host
  | .interfaceReady | .interfacePoll | .echoMatched | .drained => some (reactions.toOccasion occasion)

section
variable {d : Desk Switch}

theorem onTimeRequest?_run (valid : d.host.localTime.Valid) :
    (onTimeRequest? d).map (·.run d) = some (onTimeRequest.run d) := by
  unfold onTimeRequest? onTimeRequest
  simp only [Reaction.run]
  split
  · rfl
  · simp only [bind, Reaction.get, Reaction.bind, Reaction.run]
    split
    · rw [Frame.clock?_eq valid]
      rfl
    · rfl

theorem onEchoDiffered?_run (word : d.host.maxRetries < 2 ^ 32) :
    (onEchoDiffered? d.host).map (·.run d) = some (onEchoDiffered.run d) := by
  unfold onEchoDiffered? onEchoDiffered
  simp only [bind, Reaction.get, Reaction.bind, Reaction.run]
  cases last : d.host.lastFrame with
  | none => rfl
  | some frame =>
    simp only
    split
    · rfl
    · rename_i left
      have hretries : d.host.retries + 1 < 2 ^ 32 := by
        omega
      rw [add?_of_lt hretries]
      rfl

/-- Every reaction does what it does in arithmetic without bounds. -/
theorem reaction?_run (occasion : Occasion) (valid : d.host.localTime.Valid)
    (word : d.host.maxRetries < 2 ^ 32) :
    (reaction? occasion d).map (·.run d) = some ((reactions.toOccasion occasion).run d) := by
  cases occasion with
  | timeRequest => exact onTimeRequest?_run valid
  | echoDiffered => exact onEchoDiffered?_run word
  | interfaceReady | interfacePoll | echoMatched | drained => rfl

end

end Switch

/-- What an inbound byte does at the desk of a switch. -/
def Desk.hear? (b : UInt8) (d : Desk Switch) : Option (Except Fault Unit × Desk Switch) :=
  match (d.outbox.echo.classify b).1 with
  | .error fault => some (.error fault, d.classified b)
  | .ok signal => do
    let begun := d.attending b signal.occasion
    let reaction ← Switch.reaction? signal.occasion begun
    let (result, d) := reaction.run begun
    return (result, d.note (.finished signal.occasion result))

theorem Desk.hear?_eq {d : Desk Switch} (b : UInt8) (valid : d.host.localTime.Valid)
    (word : d.host.maxRetries < 2 ^ 32) : d.hear? b = some (d.hear b Switch.reactions) := by
  unfold hear? hear
  cases (d.outbox.echo.classify b).1 with
  | error fault => rfl
  | ok signal =>
    have hrun := Switch.reaction?_run (d := d.attending b signal.occasion) signal.occasion valid word
    obtain ⟨reaction, hreaction, hsame⟩ := Option.map_eq_some_iff.1 hrun
    simp only [hreaction, Option.bind_eq_bind, Option.bind_some, hsame]
    rfl

/-! ## Ticks -/

namespace Connection

variable [Line τ]

/-- The first half of a tick: the byte that was found, if there is one, is read and fed. -/
def reception? (found : Readiness) (c : Connection τ Switch) :
    Option (Except Fault Unit × Connection τ Switch) :=
  match c.incoming found with
  | none => some (c.reception found)
  | some b => do
    let (result, desk) ← (c.reading b).toDesk.hear? b
    return (result, { c.reading b with toDesk := desk })

def tick? (found : Readiness) (c : Connection τ Switch) :
    Option (Except Fault Unit × Connection τ Switch) := do
  match ← c.reception? found with
  | (.error fault, c') => return (.error fault, c')
  | (.ok (), c') => c'.transmit? c.outbox.isPending (found.isWritable (Line.handle c.line))

theorem reception?_eq {c : Connection τ Switch} (found : Readiness)
    (reactions : c.reactions = Switch.reactions) (valid : c.host.localTime.Valid)
    (word : c.host.maxRetries < 2 ^ 32) : c.reception? found = some (c.reception found) := by
  unfold reception?
  cases hb : c.incoming found with
  | none => rfl
  | some b =>
    rw [reception_of_incoming hb, feed_eq]
    simp only [Desk.hear?_eq (d := (c.reading b).toDesk) b valid word, Option.bind_eq_bind,
      Option.bind_some]
    rw [show (c.reading b).reactions = Switch.reactions from reactions]
    rfl

end Connection

/-! ## The loop -/

/-- A span of time whose whole seconds are a number of 64 bits. -/
def Duration.checked? (d : Duration) : Option Duration :=
  (word? 64 (d / 1000000000)).map fun _ => d

namespace Exchange

variable [Line τ]

def head? (now : Duration) (x : Exchange τ) : Option (Option (Interest × Duration)) := do
  let remaining ← Duration.checked? (x.deadline - now)
  let interval ← Duration.checked? x.interval
  if remaining = 0 then return none
  else return some (x.connection.interest {}, min interval remaining)

def resume? (time : Moment) (found : Readiness) (x : Exchange τ) :
    Option (Option Verdict × Exchange τ) := do
  let host := { x.connection.host with localTime := time }
  match ← { x.connection with host }.tick? found with
  | (.error fault, connection) => return (some (.failed fault), { x with connection })
  | (.ok (), connection) =>
    match sendAddress connection with
    | (.error fault, connection) => return (some (.failed fault), { x with connection })
    | (.ok (), connection) =>
      return (if connection.host.isDone then some .done else none, { x with connection })

end Exchange

namespace Loop

variable [Line τ] [Surroundings ω τ]

def turn? (l : Loop ω τ) : Option (Option Verdict × Loop ω τ) := do
  let (now, world) := Surroundings.clock τ l.world
  match ← l.toExchange.head? now with
  | none => return (some (.failed .timeout), { l with world })
  | some (wanted, cap) =>
    let waits := ⟨now, wanted, cap, l.connection.line⟩ :: l.waits
    match Surroundings.wait wanted cap world l.connection.line with
    | (.error fault, world, line) =>
      return (some (.failed (.io fault)),
        { l with world, waits, connection := { l.connection with line } })
    | (.ok found, world, line) =>
      let x := { l.toExchange with connection := { l.connection with line } }
      let (verdict, x) ← x.resume? (Surroundings.localTime τ world) found
      return (verdict, { l with toExchange := x, world, waits })

def turns? : Nat → Loop ω τ → Option (Option Verdict × Loop ω τ)
  | 0, l => some (none, l)
  | n + 1, l => do
    match ← l.turn? with
    | (some verdict, l) => return (some verdict, l)
    | (none, l) => turns? n l

/-- An exchange begun, and so many turns made; none where the program would stop for a calculation
without a result. -/
def run? (settings : SwitchSettings) (connection : Connection τ Switch) (world : ω) (n : Nat) :
    Option (Outcome × Loop ω τ) := do
  let (now, world) := Surroundings.clock τ world
  let x ← Exchange.begin? settings now connection
  let (verdict, l) ← turns? n { toExchange := x, world }
  return (.ofVerdict? verdict, l)

end Loop

/-! ## Nothing goes wrong in a session -/

/-- A switch has no frame outstanding that is longer than the clock's. -/
theorem Desk.InStep.length_pending_le {d : Desk Switch} (h : d.InStep) {frame : Frame}
    (pending : d.outbox.pending = some frame) : frame.length ≤ 7 := by
  cases last : d.host.lastFrame with
  | none =>
    rcases h.plain frame last pending with rfl | rfl
    · decide
    · decide
  | some f =>
    obtain rfl : frame = f := h.awaited f frame last pending
    rcases h.due frame last with ⟨-, t, rfl⟩ | ⟨-, -, rfl⟩ | ⟨-, -, rfl⟩
    · exact (Frame.length_clock t _).le
    · have hlength : d.host.address.length = 2 := h.plan.length_address
      omega
    · have hlength : d.host.command.length = 2 := h.plan.length_command
      omega

section
variable [Line τ] {p : Plan} (word : p.maxRetries < 2 ^ 32)
include word

theorem Connection.tick?_eq {c : Connection τ Switch} (found : Readiness)
    (h : Switch.OnDesk (Desk.InSession p) c) (valid : c.host.localTime.Valid) :
    c.tick? found = some (c.tick found) := by
  have hword : c.host.maxRetries < 2 ^ 32 := by
    rw [show c.host.maxRetries = p.maxRetries from congrArg Plan.maxRetries h.2.planned]
    exact word
  have hread := (Switch.kept_inSession p).connection.reception found h
  rw [tick_eq, tick?, reception?_eq found h.1 valid hword]
  rcases hr : c.reception found with ⟨fault | _, after⟩ <;> rw [hr] at hread
  · rfl
  · have hafter : after.toDesk.InSession p := hread.2
    refine transmit?_eq hafter.unfinished (fun frame hp => ?_) _ _
    have hlength := hafter.toInStep.length_pending_le hp
    omega

theorem Exchange.resume?_eq {x : Exchange τ} {time : Moment} (found : Readiness)
    (h : Switch.OnDesk (Desk.InSession p) x.connection) (valid : time.Valid) :
    x.resume? time found = some (x.resume time found) := by
  set c : Connection τ Switch :=
    { x.connection with host := { x.connection.host with localTime := time } } with hc
  have hcalm : Switch.OnDesk (Desk.InSession p) c :=
    ⟨h.1, (Switch.kept_inSession p).time _ time h.2⟩
  unfold resume? resume
  simp only [← hc]
  rw [Connection.tick?_eq word found hcalm valid]
  rcases c.tick found with ⟨fault | _, c'⟩
  · rfl
  · rcases hs : sendAddress c' with ⟨fault | _, c''⟩ <;> simp only [Option.bind_eq_bind,
      Option.bind_some, hs] <;> rfl

omit word in
theorem Exchange.head?_eq {x : Exchange τ} (now : Duration)
    (deadline : x.deadline / 1000000000 < 2 ^ 64) (interval : x.interval / 1000000000 < 2 ^ 64) :
    x.head? now = some (x.head now) := by
  have hremaining : (x.deadline - now).checked? = some (x.deadline - now) := by
    have hle : (x.deadline - now) / 1000000000 ≤ x.deadline / 1000000000 :=
      Nat.div_le_div_right (Nat.sub_le _ _)
    rw [Duration.checked?, word?_of_lt (hle.trans_lt deadline)]
    rfl
  have hinterval : x.interval.checked? = some x.interval := by
    rw [Duration.checked?, word?_of_lt interval]
    rfl
  unfold head? head
  simp only [hremaining, hinterval, Option.bind_eq_bind, Option.bind_some]
  split
  · rfl
  · rfl

end

namespace Loop

variable [Line τ] [Surroundings ω τ] {p : Plan}

/-- A loop of a session, whose deadline and interval are durations. -/
structure Ranged (p : Plan) (l : Loop ω τ) : Prop where
  session : Switch.OnDesk (Desk.InSession p) l.connection
  deadline : l.deadline / 1000000000 < 2 ^ 64
  interval : l.interval / 1000000000 < 2 ^ 64

variable (word : p.maxRetries < 2 ^ 32) (valid : ∀ w : ω, (Surroundings.localTime τ w).Valid)

section
include word valid

theorem turn?_eq {l : Loop ω τ} (h : l.Ranged p) : l.turn? = some l.turn := by
  unfold turn? turn
  rcases Surroundings.clock τ l.world with ⟨now, world⟩
  simp only [Exchange.head?_eq now h.deadline h.interval, Option.bind_eq_bind, Option.bind_some]
  rcases l.toExchange.head now with _ | ⟨wanted, cap⟩
  · rfl
  · dsimp only
    rcases Surroundings.wait wanted cap world l.connection.line with ⟨fault | found, world, line⟩
    · rfl
    · have hresume := Exchange.resume?_eq word found
        (x := { l.toExchange with connection := { l.connection with line } })
        ⟨h.session.1, h.session.2⟩ (valid world)
      simp only [hresume, Option.bind_some]
      rfl

end

/-- The deadline and the interval are fixed when the exchange is begun. -/
theorem limits_turn (l : Loop ω τ) :
    l.turn.2.deadline = l.deadline ∧ l.turn.2.interval = l.interval := by
  have hturning := l.turning
  generalize l.turn.1 = verdict, l.turn.2 = l' at hturning ⊢
  cases hturning <;> exact ⟨rfl, rfl⟩

theorem Ranged.turn {l : Loop ω τ} (h : l.Ranged p) (goes : l.turn.1 = none) :
    l.turn.2.Ranged p := by
  have hsession := (Switch.kept_inSession p).turn h.session
  rw [goes] at hsession
  obtain ⟨hdeadline, hinterval⟩ := l.limits_turn
  refine ⟨hsession, ?_, ?_⟩
  · rw [hdeadline]
    exact h.deadline
  · rw [hinterval]
    exact h.interval

include word valid in
/-- The induction is on the turns to be made; what the first of them leaves is a loop in range again. -/
theorem turns?_eq (n : Nat) {l : Loop ω τ} (h : l.Ranged p) : l.turns? n = some (l.turns n) := by
  induction n generalizing l with
  | zero => rfl
  | succ n ih =>
    rw [turns?, turns, turn?_eq word valid h]
    have hafter := h.turn
    rcases hl : l.turn with ⟨_ | verdict, l'⟩ <;> rw [hl] at hafter
    · exact ih (hafter rfl)
    · rfl

end Loop

end Powerline
