/-
How an exchange gets on over a line to an honest interface. A frame that is being sent is out after
finitely many turns, however the line cuts it in pieces; a byte that the interface says is heard in
the next turn, and what it calls for is begun. A loop finishes if one does to which a turn leads.
-/
import Powerline.Proofs.Exchange
import Powerline.Proofs.Interface

namespace Powerline

/-! ## What a connection shows -/

/-- A desk with this outbox and, at whatever time, this switch. -/
def Desk.Shows (outbox : Outbox) (host : Switch) (d : Desk Switch) : Prop :=
  d.outbox = outbox ∧ ∃ t, d.host = { host with localTime := t }

/-- What drives an exchange besides the frame being sent. -/
structure Scene where
  echo : Echo
  host : Switch
  device : Interface

namespace Connection

/-- A connection of a switch over a cable, with these bytes on the way and this scene. -/
structure Shows (pending : Option Frame) (sent : Nat) (s : Scene) (c : Connection Cable Switch) :
    Prop where
  desk : c.toDesk.Shows ⟨pending, sent, s.echo⟩ s.host
  device : c.line.device = s.device
  reactions : c.reactions = Switch.reactions
  pieces : ∀ k, 0 < c.line.pieces k

/-- Nothing is on the way. -/
def Rests (s : Scene) (c : Connection Cable Switch) : Prop := c.Shows none 0 s

/-- A frame is on the way; the interface has received so many bytes of it. -/
def Sends (frame : Frame) (k : Nat) (s : Scene) (c : Connection Cable Switch) : Prop :=
  if k < frame.length then
    c.Shows (some frame) k { s with device := s.device.receiveAll (frame.take k) }
  else c.Rests { s with device := s.device.receiveAll frame }

theorem Shows.stage {pending : Option Frame} {sent : Nat} {s : Scene}
    {c : Connection Cable Switch} (h : c.Shows pending sent s) : c.host.stage = s.host.stage := by
  obtain ⟨⟨-, t, hhost⟩, -⟩ := h
  rw [hhost]

theorem Shows.withTime {pending : Option Frame} {sent : Nat} {s : Scene}
    {c : Connection Cable Switch} (h : c.Shows pending sent s) (t : Moment) :
    Shows pending sent s { c with host := { c.host with localTime := t } } := by
  obtain ⟨⟨houtbox, t', hhost⟩, hdevice, hreactions, hpieces⟩ := h
  exact ⟨⟨houtbox, t, by rw [hhost]⟩, hdevice, hreactions, hpieces⟩

/-! ## Sending -/

variable {s : Scene} {frame : Frame} {k : Nat} {c : Connection Cable Switch}

theorem Rests.withTime (h : c.Rests s) (t : Moment) :
    Rests s { c with host := { c.host with localTime := t } } := Shows.withTime h t

/-- That a byte was read is only an entry. -/
theorem Rests.read (h : c.Rests s) (b : UInt8) :
    (c.toDesk.note (.read b)).Shows ⟨none, 0, s.echo⟩ s.host := h.desk

theorem Sends.withTime (h : c.Sends frame k s) (t : Moment) :
    Sends frame k s { c with host := { c.host with localTime := t } } := by
  unfold Sends at h ⊢
  split at h
  · rw [if_pos ‹_›]; exact h.withTime t
  · rw [if_neg ‹_›]; exact Rests.withTime h t

theorem Sends.stage (h : c.Sends frame k s) : c.host.stage = s.host.stage := by
  unfold Sends at h
  split at h
  · exact h.stage
  · exact Shows.stage (s := { s with device := s.device.receiveAll frame }) h

/-- A drain sends at least one more byte. -/
theorem Sends.drain (h : c.Sends frame k s) (hk : k < frame.length) :
    ∃ progress c' k', c.drain = (.ok progress, c') ∧ k < k' ∧ k' ≤ frame.length ∧
      c'.Sends frame k' s := by
  rw [Sends, if_pos hk] at h
  obtain ⟨⟨houtbox, t, hhost⟩, hdevice, hreactions, hpieces⟩ := h
  change c.line.device = s.device.receiveAll (frame.take k) at hdevice
  have hp : c.outbox.pending = some frame := by rw [houtbox]
  have hsent : c.outbox.sent = k := by rw [houtbox]
  have hpiece := hpieces c.line.writes
  -- `n` is what the cable takes of the bytes it is offered: a piece, or all that is left
  obtain ⟨n, hn⟩ : ∃ n, min (c.line.pieces c.line.writes) (frame.drop k).length = n := ⟨_, rfl⟩
  have hlen : (frame.drop k).length = frame.length - k := List.length_drop
  have hw : (Line.write (frame.drop c.outbox.sent) c.line).1 = .ok n := by
    rw [hsent, ← hn]; rfl
  have hline : (Line.write (frame.drop c.outbox.sent) c.line).2 =
      { c.line with
        device := s.device.receiveAll (frame.take (k + n)), writes := c.line.writes + 1 } := by
    rw [List.take_add, Interface.receiveAll_append, ← hdevice, hsent, ← hn]; rfl
  have hpos : 0 < n := by omega
  have hle : k + n ≤ frame.length := by omega
  by_cases hlast : k + n < frame.length
  · refine ⟨_, _, k + n, drain_partly hp hw hpos (hsent ▸ hlast), by omega, hle, ?_⟩
    rw [Sends, if_pos hlast]
    refine ⟨⟨?_, t, hhost⟩, ?_, hreactions, ?_⟩
    · show { c.outbox with sent := c.outbox.sent + n } = _
      rw [houtbox]
    · rw [hline]
    · rw [hline]; exact hpieces
  · have hall : k + n = frame.length := by omega
    have hdrain := drain_last hp hw (hsent ▸ hk) (by omega)
    rw [hreactions] at hdrain
    refine ⟨.drained, _, k + n, hdrain, by omega, hle, ?_⟩
    rw [Sends, if_neg hlast]
    refine ⟨⟨?_, t, hhost⟩, ?_, rfl, ?_⟩
    · show { c.outbox with pending := none, sent := 0 } = _
      rw [houtbox]
    · rw [hline, hall, List.take_length]
    · rw [hline]; exact hpieces

theorem Sends.isPending (h : c.Sends frame k s) (hk : k < frame.length) :
    c.outbox.isPending = true := by
  rw [Sends, if_pos hk] at h
  have hp : c.outbox.pending = some frame := by rw [h.desk.1]
  exact Outbox.isPending_of_some hp

theorem Rests.isPending (h : c.Rests s) : c.outbox.isPending = false := by
  have hp : c.outbox.pending = none := by rw [h.desk.1]
  exact Outbox.isPending_of_none hp

/-- What was outstanding when the wait began is sent further. -/
theorem Sends.transmit (h : c.Sends frame k s) (hk : k < frame.length) :
    ∃ c' k', c.transmit true true = (.ok (), c') ∧ k < k' ∧ k' ≤ frame.length ∧
      c'.Sends frame k' s := by
  obtain ⟨progress, c', k', hdrain, hlt, hle, hc'⟩ := h.drain hk
  refine ⟨c', k', ?_, hlt, hle, hc'⟩
  simp [Connection.transmit, h.isPending hk, drainIf, hdrain, Except.map]

/-- What was queued since is sent as far as the line takes it at once. -/
theorem Sends.transmit_queued (h : c.Sends frame 0 s) (hne : 0 < frame.length) (writable : Bool) :
    ∃ c' k', c.transmit false writable = (.ok (), c') ∧ k' ≤ frame.length ∧ c'.Sends frame k' s := by
  have hprobed : Sends frame 0 s { c with line := (Line.probe c.line).2 } := by
    rw [Sends, if_pos hne] at h ⊢
    exact ⟨h.desk, h.device, h.reactions, h.pieces⟩
  have hpending := h.isPending hne
  cases hfree : c.line.probes c.line.probed with
  | false =>
    -- the frame waits for the next turn, of which no byte is sent yet
    refine ⟨_, 0, ?_, Nat.zero_le _, hprobed⟩
    simp [Connection.transmit, hpending, Line.probe, hfree, drainIf]
  | true =>
    obtain ⟨progress, c', k', hdrain, -, hle, hc'⟩ := hprobed.drain hne
    refine ⟨c', k', ?_, hle, hc'⟩
    simp only [Line.probe] at hdrain
    simp [Connection.transmit, hpending, Line.probe, hfree, drainIf, hdrain, Except.map]

theorem Rests.transmit (h : c.Rests s) (waited writable : Bool) :
    c.transmit waited writable = (.ok (), c) := by
  simp [Connection.transmit, h.isPending]

/-! ## Ticks -/

/-- What a wait finds. -/
def finding (c : Connection Cable Switch) : Readiness :=
  { readable := if c.line.device.output = [] then [] else [c.line.handle]
    writable := (c.interest {}).write }

theorem isReadable_finding (c : Connection Cable Switch) :
    c.finding.isReadable (Line.handle c.line) = !c.line.device.output.isEmpty := by
  unfold finding Readiness.isReadable
  cases c.line.device.output with
  | nil => rfl
  | cons b rest => simp [Line.handle]

theorem isWritable_finding (c : Connection Cable Switch) :
    c.finding.isWritable (Line.handle c.line) = c.outbox.isPending := by
  unfold finding Readiness.isWritable interest
  cases c.outbox.isPending <;> simp [Interest.addRead, Interest.addWrite]

/-- With nothing to be read, a tick sends on. -/
theorem Sends.tick (h : c.Sends frame k s) (hk : k < frame.length)
    (quiet : (s.device.receiveAll (frame.take k)).output = []) :
    ∃ c' k', c.tick c.finding = (.ok (), c') ∧ k < k' ∧ k' ≤ frame.length ∧ c'.Sends frame k' s := by
  have hout : c.line.device.output = [] := by
    rw [Sends, if_pos hk] at h
    rw [h.device]; exact quiet
  obtain ⟨c', k', htransmit, hlt, hle, hc'⟩ := h.transmit hk
  refine ⟨c', k', ?_, hlt, hle, hc'⟩
  simp only [Connection.tick, isReadable_finding, isWritable_finding, hout, List.isEmpty_nil,
    Bool.not_true, Bool.false_eq_true, if_false, h.isPending hk]
  exact htransmit

/-- With nothing to be read and nothing on the way, a tick does nothing. -/
theorem Rests.tick (h : c.Rests s) (quiet : s.device.output = []) :
    c.tick c.finding = (.ok (), c) := by
  have hout : c.line.device.output = [] := by rw [h.device]; exact quiet
  simp only [Connection.tick, isReadable_finding, hout, List.isEmpty_nil, Bool.not_true,
    Bool.false_eq_true, if_false]
  exact h.transmit _ _

/-- The connection once it has read the last byte that there was to read, with the desk after it. -/
def afterLast (d : Desk Switch) (c : Connection Cable Switch) : Connection Cable Switch :=
  { c with
    toDesk := d
    line := { c.line with device := { c.line.device with output := [] } }
    received := c.received + 1 }

section
variable {b : UInt8} {d : Desk Switch} (h : c.Rests s) (hout : s.device.output = [b])
include h hout

theorem Rests.receive {r : Except Fault Unit}
    (hd : (c.toDesk.note (.read b)).hear b Switch.reactions = (r, d)) :
    c.receive = (r, c.afterLast d) := by
  have hread : Line.readByte c.line =
      (.ok (some b), { c.line with device := { c.line.device with output := [] } }) := by
    have hline : c.line.device.output = [b] := by rw [h.device]; exact hout
    simp only [Line.readByte, hline]
  simp only [Connection.receive, hread, feed_eq, h.reactions, hd, afterLast]

theorem Rests.tick_failed {fault : Fault}
    (hd : (c.toDesk.note (.read b)).hear b Switch.reactions = (.error fault, d)) :
    c.tick c.finding = (.error fault, c.afterLast d) := by
  have hline : c.line.device.output = [b] := by rw [h.device]; exact hout
  simp only [Connection.tick, isReadable_finding, hline, List.isEmpty_cons, Bool.not_false, if_true,
    h.receive hout hd]

theorem Rests.tick_heard (hd : (c.toDesk.note (.read b)).hear b Switch.reactions = (.ok (), d)) :
    c.tick c.finding = (c.afterLast d).transmit false false := by
  have hline : c.line.device.output = [b] := by rw [h.device]; exact hout
  simp only [Connection.tick, isReadable_finding, isWritable_finding, hline, List.isEmpty_cons,
    Bool.not_false, if_true, h.receive hout hd, h.isPending]

/-- If what the byte calls for leaves nothing on the way, the tick is over. -/
theorem Rests.tick_settled {echo : Echo} {host : Switch}
    (hd : (c.toDesk.note (.read b)).hear b Switch.reactions = (.ok (), d))
    (hshows : d.Shows ⟨none, 0, echo⟩ host) :
    c.tick c.finding = (.ok (), c.afterLast d) ∧
      (c.afterLast d).Rests ⟨echo, host, { s.device with output := [] }⟩ := by
  have hafter : (c.afterLast d).Rests ⟨echo, host, { s.device with output := [] }⟩ :=
    ⟨hshows, by rw [← h.device]; rfl, h.reactions, h.pieces⟩
  exact ⟨(h.tick_heard hout hd).trans (hafter.transmit _ _), hafter⟩

/-- If it puts a frame on the way, the tick begins to send it. -/
theorem Rests.tick_queued {echo : Echo} {host : Switch} (hne : 0 < frame.length)
    (hd : (c.toDesk.note (.read b)).hear b Switch.reactions = (.ok (), d))
    (hshows : d.Shows ⟨some frame, 0, echo⟩ host) :
    ∃ c' k', c.tick c.finding = (.ok (), c') ∧ k' ≤ frame.length ∧
      c'.Sends frame k' ⟨echo, host, { s.device with output := [] }⟩ := by
  have hafter : (c.afterLast d).Sends frame 0 ⟨echo, host, { s.device with output := [] }⟩ := by
    rw [Sends, if_pos hne]
    exact ⟨hshows, by rw [← h.device]; rfl, h.reactions, h.pieces⟩
  obtain ⟨c', k', htransmit, hle, hc'⟩ := hafter.transmit_queued hne false
  exact ⟨c', k', (h.tick_heard hout hd).trans htransmit, hle, hc'⟩

end

end Connection

/-! ## Turns -/

namespace Exchange

variable {τ : Type} [Line τ] {x : Exchange τ} {time : Moment} {found : Readiness}
  {c : Connection τ Switch}

theorem resume_of_fault {fault : Fault}
    (ht : { x.connection with host := { x.connection.host with localTime := time } }.tick found =
      (.error fault, c)) :
    x.resume time found = (some (.failed fault), { x with connection := c }) := by
  simp only [resume, ht]

/-- After the start the loop submits nothing by itself. -/
theorem resume_of_ok
    (ht : { x.connection with host := { x.connection.host with localTime := time } }.tick found =
      (.ok (), c)) (hstage : c.host.stage ≠ .start) :
    x.resume time found = (if c.host.isDone then some .done else none, { x with connection := c }) := by
  simp [resume, ht, sendAddress, hstage]

end Exchange

namespace Loop

/-- The clock stays below the deadline. -/
def Timely (l : Loop Watch Cable) : Prop := ∀ k, l.world.readings k < l.deadline

theorem turn_of_timely {l : Loop Watch Cable} (h : l.Timely) :
    ∃ time l', l.turn = ((l.toExchange.resume time l.connection.finding).1, l') ∧
      l'.connection = (l.toExchange.resume time l.connection.finding).2.connection ∧ l'.Timely := by
  have hremaining : l.deadline - l.world.readings l.world.looks ≠ 0 :=
    Nat.sub_ne_zero_of_lt (h l.world.looks)
  have hdeadline : ∀ (x : Exchange Cable) time found, (x.resume time found).2.deadline = x.deadline := by
    intro x time found
    unfold Exchange.resume
    simp only
    split
    · rfl
    · split <;> rfl
  simp only [Loop.turn, Surroundings.clock, Exchange.head, if_neg hremaining, Surroundings.wait]
  refine ⟨_, _, rfl, rfl, fun k => ?_⟩
  simp only [hdeadline]
  exact h k

/-! ## Finishing -/

/-- The loop comes to a verdict; `Φ` holds of it and of the interface then. -/
def Finishes (Φ : Verdict → Interface → Prop) (l : Loop Watch Cable) : Prop :=
  ∃ n verdict, (l.turns n).1 = some verdict ∧ Φ verdict (l.turns n).2.connection.line.device

variable {Φ : Verdict → Interface → Prop} {l l' : Loop Watch Cable}

theorem Finishes.of_turn (h : l.turn = (none, l')) (hf : l'.Finishes Φ) : l.Finishes Φ := by
  obtain ⟨n, verdict, hv, hΦ⟩ := hf
  refine ⟨n + 1, verdict, ?_, ?_⟩ <;> rw [turns, h]
  · exact hv
  · exact hΦ

theorem Finishes.of_verdict {verdict : Verdict} (h : l.turn = (some verdict, l'))
    (hΦ : Φ verdict l'.connection.line.device) : l.Finishes Φ := by
  refine ⟨1, verdict, ?_, ?_⟩ <;> rw [turns, h]
  exact hΦ

/-- The tick of the next turn, if the clock on the wall shows this time then. -/
def tickAt (time : Moment) (l : Loop Watch Cable) : Except Fault Unit × Connection Cable Switch :=
  { l.connection with host := { l.connection.host with localTime := time } }.tick
    l.connection.finding

/-- A tick that fails ends the loop with its fault. -/
theorem Finishes.of_fault (fault : Fault) (ht : l.Timely)
    (tick : ∀ time, ∃ c, l.tickAt time = (.error fault, c) ∧ Φ (.failed fault) c.line.device) :
    l.Finishes Φ := by
  obtain ⟨time, l', hturn, hconnection, -⟩ := turn_of_timely ht
  obtain ⟨c, htick, hΦ⟩ := tick time
  rw [Exchange.resume_of_fault htick] at hturn hconnection
  exact .of_verdict hturn (by rw [hconnection]; exact hΦ)

/-- A tick that leaves the switch done ends the loop as done. -/
theorem Finishes.of_done (ht : l.Timely)
    (tick : ∀ time, ∃ c,
      l.tickAt time = (.ok (), c) ∧ c.host.stage = .done ∧ Φ .done c.line.device) :
    l.Finishes Φ := by
  obtain ⟨time, l', hturn, hconnection, -⟩ := turn_of_timely ht
  obtain ⟨c, htick, hstage, hΦ⟩ := tick time
  have hdone : c.host.isDone = true := beq_iff_eq.2 hstage
  rw [Exchange.resume_of_ok htick (by simp [hstage]), if_pos hdone] at hturn
  rw [Exchange.resume_of_ok htick (by simp [hstage])] at hconnection
  exact .of_verdict hturn (by rw [hconnection]; exact hΦ)

/-- Any other tick leads to the next turn. -/
theorem Finishes.of_tick (ht : l.Timely)
    (tick : ∀ time, ∃ c,
      l.tickAt time = (.ok (), c) ∧ c.host.stage ≠ .start ∧ c.host.stage ≠ .done ∧
      ∀ l' : Loop Watch Cable, l'.Timely → l'.connection = c → l'.Finishes Φ) :
    l.Finishes Φ := by
  obtain ⟨time, l', hturn, hconnection, ht'⟩ := turn_of_timely ht
  obtain ⟨c, htick, hstart, hdone, next⟩ := tick time
  have hnot : c.host.isDone ≠ true := fun h => hdone (beq_iff_eq.1 h)
  rw [Exchange.resume_of_ok htick hstart, if_neg hnot] at hturn
  rw [Exchange.resume_of_ok htick hstart] at hconnection
  exact .of_turn hturn (next l' ht' hconnection)

end Loop

/-! ## Scenes that lead on -/

namespace Scene

/-- The switch is between its start and its end. -/
def Underway (s : Scene) : Prop := s.host.stage ≠ .start ∧ s.host.stage ≠ .done

/-- Wherever nothing is on the way and this is the scene, the loop finishes. -/
def Finishes (Φ : Verdict → Interface → Prop) (s : Scene) : Prop :=
  ∀ l : Loop Watch Cable, l.Timely → l.connection.Rests s → l.Finishes Φ

/-- Wherever this is the scene and the frame is on the way, the loop finishes. -/
def SendFinishes (Φ : Verdict → Interface → Prop) (frame : Frame) (s : Scene) : Prop :=
  ∀ (l : Loop Watch Cable) (k : Nat), l.Timely → k ≤ frame.length →
    l.connection.Sends frame k s → l.Finishes Φ

variable {Φ : Verdict → Interface → Prop} {s : Scene} {frame : Frame}

/-- The frame is out after finitely many turns: each sends at least one byte. -/
theorem Finishes.of_sent (underway : s.Underway)
    (quiet : ∀ k < frame.length, (s.device.receiveAll (frame.take k)).output = [])
    (h : Finishes Φ { s with device := s.device.receiveAll frame }) : s.SendFinishes Φ frame := by
  intro l k
  -- the induction is on the bytes still to be written
  induction hn : frame.length - k using Nat.strong_induction_on generalizing l k with
  | _ n ih =>
    intro ht hk hsends
    by_cases hlt : k < frame.length
    · refine Loop.Finishes.of_tick ht fun time => ?_
      obtain ⟨c, k', htick, hgrow, hle, hc⟩ := (hsends.withTime time).tick hlt (quiet k hlt)
      have hstage := hc.stage
      have hfewer : frame.length - k' < n := by omega
      refine ⟨c, htick, hstage ▸ underway.1, hstage ▸ underway.2, ?_⟩
      intro l' ht' hl'
      exact ih (frame.length - k') hfewer l' k' rfl ht' hle (hl' ▸ hc)
    · rw [Connection.Sends, if_neg hlt] at hsends
      exact h l ht hsends

section
variable {b : UInt8} (hout : s.device.output = [b])
include hout

/-- A byte that puts a frame on the way. -/
theorem Finishes.of_queued (frame : Frame) (echo : Echo) (host : Switch)
    (underway : host.stage ≠ .start ∧ host.stage ≠ .done) (hne : 0 < frame.length)
    (hears : ∀ d : Desk Switch, d.Shows ⟨none, 0, s.echo⟩ s.host →
      ∃ d', d.hear b Switch.reactions = (.ok (), d') ∧ d'.Shows ⟨some frame, 0, echo⟩ host)
    (h : SendFinishes Φ frame ⟨echo, host, { s.device with output := [] }⟩) : s.Finishes Φ := by
  intro l ht hrests
  refine Loop.Finishes.of_tick ht fun time => ?_
  have hrests' := hrests.withTime time
  obtain ⟨d', hhear, hshows⟩ := hears _ (hrests'.read b)
  obtain ⟨c, k, htick, hle, hc⟩ := hrests'.tick_queued hout hne hhear hshows
  have hstage : c.host.stage = host.stage := hc.stage
  refine ⟨c, htick, hstage ▸ underway.1, hstage ▸ underway.2, ?_⟩
  intro l' ht' hl'
  exact h l' k ht' hle (hl' ▸ hc)

/-- A byte that ends the switching. -/
theorem Finishes.of_settled (echo : Echo) (host : Switch) (hdone : host.stage = .done)
    (hears : ∀ d : Desk Switch, d.Shows ⟨none, 0, s.echo⟩ s.host →
      ∃ d', d.hear b Switch.reactions = (.ok (), d') ∧ d'.Shows ⟨none, 0, echo⟩ host)
    (hΦ : Φ .done { s.device with output := [] }) : s.Finishes Φ := by
  intro l ht hrests
  refine Loop.Finishes.of_done ht fun time => ?_
  have hrests' := hrests.withTime time
  obtain ⟨d', hhear, hshows⟩ := hears _ (hrests'.read b)
  obtain ⟨htick, hc⟩ := hrests'.tick_settled hout hhear hshows
  refine ⟨_, htick, hc.stage.trans hdone, ?_⟩
  rw [hc.device]
  exact hΦ

/-- A byte at which the switch gives up. -/
theorem Finishes.of_failed (fault : Fault)
    (hears : ∀ d : Desk Switch, d.Shows ⟨none, 0, s.echo⟩ s.host →
      ∃ d', d.hear b Switch.reactions = (.error fault, d'))
    (hΦ : Φ (.failed fault) { s.device with output := [] }) : s.Finishes Φ := by
  intro l ht hrests
  refine Loop.Finishes.of_fault fault ht fun time => ?_
  have hrests' := hrests.withTime time
  obtain ⟨d', hhear⟩ := hears _ (hrests'.read b)
  refine ⟨_, hrests'.tick_failed hout hhear, ?_⟩
  rw [← hrests.device] at hΦ
  exact hΦ

end

end Scene

/-! ## The start -/

/-- The clock can show the deadline of the settings, and never reaches it. -/
structure Watch.Below (settings : SwitchSettings) (w : Watch) : Prop where
  shown : (w.readings w.looks + settings.deadline) / 1000000000 ≤ Exchange.lastSecond
  reading : ∀ k, w.readings k < w.readings w.looks + settings.deadline

/-- With nothing outstanding, the first turn puts the address frame on the way. -/
theorem Loop.Finishes.of_start {Φ : Verdict → Interface → Prop} {l : Loop Watch Cable} {s : Scene}
    (ht : l.Timely) (hrests : l.connection.Rests s) (quiet : s.device.output = [])
    (start : s.host.stage = .start) (calm : s.host.clockInFlight = false)
    (idle : s.echo.armed = false) (hne : s.host.address ≠ [])
    (h : Scene.SendFinishes Φ s.host.address
      ⟨⟨true, s.host.address.checksum⟩, s.host.addressSent, s.device⟩) : l.Finishes Φ := by
  obtain ⟨time, l', hturn, hconnection, ht'⟩ := turn_of_timely ht
  have hrests' := hrests.withTime time
  -- the tick finds nothing to do, so the loop's own submission is all that the turn makes of `c`
  set c : Connection Cable Switch :=
    { l.connection with host := { l.connection.host with localTime := time } } with hc
  obtain ⟨⟨houtbox, t, hhost⟩, hdevice, hreactions, hpieces⟩ := id hrests'
  have hfree : c.outbox.pending = none := by rw [houtbox]
  have haddress : c.host.address = s.host.address := by rw [hhost]
  have hidle : (c.host.stage = .start && Exchange.isIdle c) = true := by
    simp [Exchange.isIdle, Outbox.isPending, Switch.isBusy, houtbox, hhost, start, calm, idle]
  have hsubmit : c.toDesk.submit .verified s.host.address =
      (.ok (), c.toDesk.queue .verified s.host.address) := Desk.submit_free .verified hfree hne
  have hresume : l.toExchange.resume time l.connection.finding =
      (none, { l.toExchange with
        connection := { c with
          toDesk := (c.toDesk.queue .verified s.host.address).withHost c.host.addressSent } }) := by
    have htick : c.tick l.connection.finding = (.ok (), c) := hrests'.tick quiet
    simp only [Exchange.resume, ← hc, htick, Exchange.sendAddress, hidle, if_true,
      Connection.submit, haddress, hsubmit]
    rfl
  rw [hresume] at hturn hconnection
  refine .of_turn hturn (h l' 0 ht' (Nat.zero_le _) ?_)
  rw [hconnection, Connection.Sends, if_pos (List.length_pos_of_ne_nil hne)]
  refine ⟨⟨?_, t, ?_⟩, hdevice, hreactions, hpieces⟩
  · simp [Mode.prepare, Echo.arm]
  · simp [hhost, Switch.addressSent, Switch.queued]

/-- A run finishes as its loop does. -/
theorem Loop.run_of_finishes {Φ : Verdict → Interface → Prop} {settings : SwitchSettings}
    {c : Connection Cable Switch} {watch : Watch} (hwatch : watch.Below settings)
    (h : ∀ l : Loop Watch Cable, l.Timely → l.connection = c → l.Finishes Φ) :
    ∃ n verdict, (Loop.run settings c watch n).1 = .ended verdict ∧
      Φ verdict (Loop.run settings c watch n).2.connection.line.device := by
  have hshown : ¬ (watch.readings watch.looks + settings.deadline) / 1000000000 > Exchange.lastSecond :=
    Nat.not_lt.2 hwatch.shown
  obtain ⟨n, verdict, hverdict, hΦ⟩ := h
    { connection := c, deadline := watch.readings watch.looks + settings.deadline
      interval := settings.pollInterval, world := { watch with looks := watch.looks + 1 } }
    hwatch.reading rfl
  refine ⟨n, verdict, ?_⟩
  simp only [run, Surroundings.clock, Exchange.begin?, if_neg hshown]
  revert hverdict hΦ
  rcases turns n _ with ⟨_ | v, l⟩
  · rintro ⟨⟩
  · rintro ⟨⟩ hΦ
    constructor
    · rfl
    · exact hΦ

end Powerline
