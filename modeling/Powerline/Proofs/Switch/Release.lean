/-
Whether the function frame is released when a switch is done. The report of readiness that ends the
session may overtake the release byte, which the line has not taken yet; the loop then ends with
that byte outstanding. That is the only way to be done without it.
-/
import Powerline.Proofs.Conservation
import Powerline.Proofs.Switch.Session
import Powerline.Proofs.Switch.Turn

namespace Powerline

variable {τ ω : Type}

/-! ## Conservation along a run -/

namespace Connection.Conserves

variable [Line τ] [Surroundings ω τ] {taken : τ → List UInt8} {before : List UInt8}

theorem sendAddress {c : Connection τ Switch} (truthful : Line.Truthful taken)
    (h : c.Conserves taken before) : (Exchange.sendAddress c).2.Conserves taken before := by
  have hsubmit : (c.submit .verified c.host.address).2.Conserves taken before :=
    h.perform truthful (.submit .verified c.host.address)
  unfold Exchange.sendAddress
  split
  · rcases hs : c.submit .verified c.host.address with ⟨fault | _, c'⟩ <;> rw [hs] at hsubmit
    · exact hsubmit
    · exact hsubmit.perform truthful (.setHost c'.host.addressSent)
  · exact h

/-- A turn conserves if its wait leaves alone what the line took. -/
theorem turn {l : Loop ω τ} (truthful : Line.Truthful taken)
    (still : taken l.waited.2.2 = taken l.connection.line)
    (h : l.connection.Conserves taken before) : l.turn.2.connection.Conserves taken before := by
  have hline : Conserves taken before { l.connection with line := l.waited.2.2 } := h.line still
  have hwoken : l.woken.Conserves taken before :=
    hline.perform truthful (.setHost l.woken.host)
  refine Loop.turn_keeps h hline ?_ ?_
  · intro found
    exact ends_self.1 ((kept truthful).tick found hwoken)
  · intro c hc
    exact hc.sendAddress truthful

end Connection.Conserves

/-! ## The turn that ends the session -/

/-- The byte that makes a switch done is no echo, and changes nothing but the stage. -/
theorem Switch.Hearing.switches {b : UInt8} {d d' : Desk Switch} (hh : Hearing b d (.ok ()) d')
    (going : d.host.stage ≠ .done) (done : d'.host.stage = .done) :
    d.outbox.echo.armed = false ∧ d'.outbox.pending = d.outbox.pending ∧
      d'.host.lastFrame = d.host.lastFrame := by
  cases hh with
  | switched idle hb calm stage => exact ⟨idle, rfl, rfl⟩
  | unasked idle hb calm stage => exact absurd done going
  | release | resend | disowned | clockOver | poll | timeIgnored | clock | timeAnswer =>
    exact absurd done going
  | command => cases done

section
variable [Line τ]

/-- A single byte that was outstanding when the wait began is written if the line can take it. -/
theorem Connection.transmit_single {c c' : Connection τ Switch} {writable : Bool}
    (hr : c.reactions = Switch.reactions) (unfinished : c.outbox.Unfinished)
    (single : ∀ frame, c.outbox.pending = some frame → frame.length = 1)
    (sent : c.transmit c.outbox.isPending writable = (.ok (), c')) :
    c'.outbox.pending = if writable then none else c.outbox.pending := by
  cases hp : c.outbox.pending with
  | none =>
    rw [transmit, Outbox.isPending_of_none hp] at sent
    cases sent
    rw [hp, ite_self]
  | some frame =>
    rw [transmit, Outbox.isPending_of_some hp] at sent
    simp only [Bool.not_true, Bool.false_eq_true, if_false, if_true, drainIf] at sent
    cases writable with
    | false =>
      cases sent
      exact hp
    | true =>
      have hdraining := draining unfinished
      generalize c.drain = r at hdraining sent
      obtain ⟨result, c''⟩ := r
      simp only at hdraining
      cases hdraining with
      | idle free => rw [hp] at free; cases free
      | failed pending nothing => cases sent
      | partly pending took pos more =>
        have hone := single _ pending
        omega
      | last pending took unfinished rest =>
        rw [hr] at sent
        cases sent
        rfl

end

/-- Whether the wait of the next turn finds that the line can be written. -/
def Loop.findsWritable [Line τ] [Surroundings ω τ] (l : Loop ω τ) : Bool :=
  match l.waited.1 with
  | .ok found => found.isWritable (Line.handle l.waited.2.2)
  | .error _ => false

/-- The turn that makes the switch done takes no frame, and writes the byte that is outstanding if
it can. -/
theorem Loop.turn_of_done [Line τ] [Surroundings ω τ] {l : Loop ω τ}
    (h : Switch.OnDesk Desk.InStep l.connection) (going : l.connection.host.stage ≠ .done)
    (done : l.turn.1 = some .done) :
    l.turn.2.connection.host.lastFrame = none ∧
      l.turn.2.connection.outbox.pending =
        if l.findsWritable then none else l.connection.outbox.pending := by
  obtain ⟨found, c₁, c₂, wait, hr, hheard, sent, address⟩ := turn_of_not_failed h (by simp [done])
  have hdone : l.turn.2.connection.host.stage = .done := l.turn_tells.1 done
  have hwoken : l.woken.toDesk.InStep := h.2.time _
  have hstep : c₁.toDesk.InStep := hheard.inStep hwoken
  have htransmitting := Switch.transmitting hr hstep.unfinished sent
  -- going back from the end: the loop did not begin the session, and the writes left the stage alone
  have hlast : l.turn.2.connection.toDesk = c₂.toDesk := by
    have haddressing := Switch.addressing (htransmitting.inStep hstep) address
    generalize l.turn.2.connection.toDesk = d at haddressing hdone ⊢
    cases haddressing with
    | nothing => rfl
    | address start calm free idle => cases hdone
  have hstage : c₁.host.stage = .done := by
    rw [← htransmitting.host, ← hlast]
    exact hdone
  cases hb : l.incoming with
  | none =>
    rw [hb] at hheard
    rw [show c₁.toDesk = l.woken.toDesk from hheard] at hstage
    exact absurd hstage going
  | some b =>
    rw [hb] at hheard
    obtain ⟨idle, hpending, hlastFrame⟩ := hheard.switches going hstage
    have hnone : l.connection.host.lastFrame = none := hwoken.lastFrame_eq_none idle
    have hsingle : ∀ frame, l.connection.outbox.pending = some frame → frame.length = 1 := by
      intro frame hp
      rcases hwoken.plain frame hnone hp with rfl | rfl <;> rfl
    change c₁.outbox.pending = l.connection.outbox.pending at hpending
    rw [Outbox.isPending, ← hpending] at sent
    rw [← hpending] at hsingle
    have hp := Connection.transmit_single hr hstep.unfinished hsingle sent
    have hwritable : l.findsWritable = found.isWritable (Line.handle l.waited.2.2) := by
      simp only [findsWritable, wait]
    rw [hlast, htransmitting.host, hp, hpending, hwritable]
    exact ⟨hlastFrame.trans hnone, rfl⟩

/-! ## What is out at the end -/

/-- The frames sent so far are all completed if more were taken since, or if nothing is outstanding. -/
theorem isPrefix_completed {sent later completed : List Frame} {pending : Option Frame}
    (h : sent ++ later = completed ++ pending.toList) (hlater : later ≠ [] ∨ pending = none) :
    sent <+: completed := by
  have hlen := congrArg List.length h
  rw [List.length_append, List.length_append] at hlen
  refine List.prefix_of_prefix_length_le ⟨later, h⟩ ⟨pending.toList, rfl⟩ ?_
  rcases hlater with hlater | rfl
  · have hpos := List.length_pos_of_ne_nil hlater
    have hone : pending.toList.length ≤ 1 := by cases pending <;> simp
    omega
  · simp only [Option.toList_none, List.length_nil] at hlen
    omega

/-- At the end of a session the frames as far as the function frame's release are out, unless that
release is the last frame taken and still outstanding. -/
theorem Desk.InSession.released_iff {p : Plan} {d : Desk Switch} {completed : List Frame}
    {wire : List UInt8} (h : d.InSession p) (done : d.host.stage = .done)
    (last : d.host.lastFrame = none) (hd : d.Conserves completed wire) :
    ∃ front answers back,
      d.sendings = front ++ ⟨answers, p.command⟩ ::
        ⟨[p.command.checksum], [Frame.release]⟩ :: back ∧
      p.command ∉ back.map Sending.frame ∧
      ((front.map Sending.frame ++ [p.command, [Frame.release]]).flatten <+: wire ↔
        ¬ (back = [] ∧ d.outbox.pending = some [Frame.release])) := by
  have hword : d.sendings ∈ p.session := by
    have hsettled := h.settled last
    rw [done] at hsettled
    exact hsettled
  obtain ⟨front, answers, back, hsendings, hback⟩ := Plan.eq_of_mem_session h.wellFormed hword
  refine ⟨front, answers, back, hsendings, hback, ?_⟩
  have hframes : (front.map Sending.frame ++ [p.command, [Frame.release]]) ++
      back.map Sending.frame = completed ++ d.outbox.pending.toList := by
    rw [← hd.accepted, ← Desk.map_frame_sendings, hsendings]
    simp
  -- the last frame taken is the one outstanding, if any is
  have hlast : ∀ frame, back = [] → d.outbox.pending = some frame →
      front.map Sending.frame ++ [p.command] = completed ∧ frame = [Frame.release] := by
    rintro frame rfl hp
    rw [hp, List.map_nil, List.append_nil, Option.toList_some,
      show [p.command, [Frame.release]] = [p.command] ++ [[Frame.release]] from rfl,
      ← List.append_assoc] at hframes
    obtain ⟨hcompleted, hrelease⟩ := List.append_inj' hframes rfl
    exact ⟨hcompleted, (List.cons.inj hrelease).1.symm⟩
  constructor
  · rintro hout ⟨hnothing, hp⟩
    obtain ⟨hcompleted, -⟩ := hlast _ hnothing hp
    have hsent : d.outbox.sent = 0 := Nat.lt_one_iff.1 (hd.unfinished _ hp)
    have hlen := hout.length_le
    rw [hd.wire, ← hcompleted, Outbox.written, hsent, List.take_zero] at hlen
    simp at hlen
  · intro hout
    have hlater : back.map Sending.frame ≠ [] ∨ d.outbox.pending = none := by
      by_contra hneither
      push Not at hneither
      obtain ⟨hnothing, hsome⟩ := hneither
      obtain ⟨frame, hp⟩ := Option.ne_none_iff_exists'.1 hsome
      have hnothing' := List.map_eq_nil_iff.1 hnothing
      obtain ⟨-, rfl⟩ := hlast frame hnothing' hp
      exact hout ⟨hnothing', hp⟩
    rw [hd.wire]
    exact (isPrefix_completed hframes hlater).flatten.trans (List.prefix_append _ _)

/-! ## Along a run -/

/-- Whether the function frame is released when the switch is done, over a line that tells the truth
and with waits that leave alone what the line took. After its last sending the function frame was
answered with the right echo, and that with the release byte; of what was taken after that nothing
is the function frame. The frames as far as this release are on the wire unless the turn that ended
the session began with the release outstanding, nothing taken after it, and found that the line
could not be written. -/
theorem Loop.run_done_released_iff [Line τ] [Surroundings ω τ] {taken : τ → List UInt8}
    (truthful : Line.Truthful taken) {settings : SwitchSettings} {switch : Switch}
    (h : Switch.ofSettings settings = .ok switch) (line : τ) (world : ω) :
    let run := Loop.run settings (.fresh line switch Switch.reactions) world
    (∀ k, (run k).1 = .waiting → taken (run k).2.waited.2.2 = taken (run k).2.connection.line) →
    ∀ n, (run n).1 = .ended .done →
      ∃ k < n, (run k).1 = .waiting ∧ run (k + 1) = run n ∧ ∃ front answers back wire,
        (run n).2.connection.sendings = front ++ ⟨answers, switch.command⟩ ::
          ⟨[switch.command.checksum], [Frame.release]⟩ :: back ∧
        switch.command ∉ back.map Sending.frame ∧
        taken (run n).2.connection.line = taken line ++ wire ∧
        ((front.map Sending.frame ++ [switch.command, [Frame.release]]).flatten <+: wire ↔
          ¬ (back = [] ∧ (run k).2.connection.outbox.pending = some [Frame.release] ∧
            (run k).2.findsWritable = false)) := by
  intro run still n hn
  obtain ⟨k, hk, hwaiting, hturn, hnext, hlast⟩ := exists_last_turn settings _ world hn
  obtain ⟨hdesk, hgoing⟩ := run_before_turn h line world k hwaiting
  obtain ⟨hlastFrame, hpending⟩ := turn_of_done hdesk hgoing hturn
  rw [← hlast] at hlastFrame hpending
  obtain ⟨completed, wire, htaken, hd, -⟩ :=
    run_keeps settings _ world (Connection.Conserves.fresh taken line switch Switch.reactions)
      (fun k hwaiting h => h.turn truthful (still k hwaiting)) n
  obtain ⟨-, hsession⟩ := (Switch.kept_inSession switch.plan).run_of_not_failed settings line switch
    world (Desk.InSession.fresh h) n (by rw [show (Loop.run settings _ world n).1 = _ from hn]; simp)
  obtain ⟨front, answers, back, hsendings, hback, hout⟩ :=
    hsession.released_iff (stage_of_run_done h line world n hn) hlastFrame hd
  refine ⟨k, hk, hwaiting, hnext, front, answers, back, wire, hsendings, hback, htaken, ?_⟩
  have houtstanding : (run n).2.connection.outbox.pending = some [Frame.release] ↔
      (run k).2.connection.outbox.pending = some [Frame.release] ∧
        (run k).2.findsWritable = false := by
    rw [show (run n).2.connection.outbox.pending = if (run k).2.findsWritable then none else
      (run k).2.connection.outbox.pending from hpending]
    cases (run k).2.findsWritable <;> simp
  rw [← houtstanding]
  exact hout

/-- The waits of an exchange in which the report of readiness comes before the line can take the
release of the function frame. -/
def ScriptedWaits.earlyReport : ScriptedWaits ScriptedLine where
  waits :=
    let readable := { finding := .ok { readable := [42] } }
    let writable := { finding := .ok { writable := [42] } }
    [{ finding := .ok {} }, writable, readable, readable, readable, readable, writable]

/-- There the switch is done while that release is outstanding. -/
theorem Loop.run_done_earlyReport :
    let switch : Switch :=
      { address := [0x04, 0x6E], command := [0x06, 0x62], maxRetries := 3, setClock := false,
        monitored := .A }
    let line : ScriptedLine :=
      { reads := [.byte 0x72, .byte 0x55, .byte 0x68, .byte 0x55]
        probes := [.ok true, .ok true, .ok false] }
    let r := Loop.run {} (.fresh line switch Switch.reactions) ScriptedWaits.earlyReport 7
    Switch.ofSettings {} = .ok switch ∧ r.1 = .ended .done ∧
      r.2.connection.sendings.getLast? = some ⟨[switch.command.checksum], [Frame.release]⟩ ∧
      r.2.connection.outbox.pending = some [Frame.release] ∧
      r.2.connection.line.taken = [0x04, 0x6E, 0x00, 0x06, 0x62] := by
  decide

/-- The same on a terminal, which has no more room when the function frame's echo comes. -/
def ScriptedWaits.fullTerminal : ScriptedWaits Terminal where
  waits :=
    let byte (b : UInt8) (full : Bool) : ScriptedWait Terminal :=
      { effect := fun t => { t.deliver [b] with full }, finding := .ok { readable := [3] } }
    [{ finding := .ok {} }, { finding := .ok { writable := [3] } }, byte 0x72 false, byte 0x55 false,
      byte 0x68 true, byte 0x55 true]

theorem Loop.run_done_released_iff_fullTerminal :
    let switch : Switch :=
      { address := [0x04, 0x6E], command := [0x06, 0x62], maxRetries := 3, setClock := false,
        monitored := .A }
    let run := Loop.run {} (.fresh ({} : Terminal) switch Switch.reactions) ScriptedWaits.fullTerminal
    Line.Truthful Terminal.outbound ∧ Switch.ofSettings {} = .ok switch ∧
      (∀ k, (run k).1 = .waiting →
        (run k).2.waited.2.2.outbound = (run k).2.connection.line.outbound) ∧
      (run 6).1 = .ended .done ∧
      ∃ k < 6, (run k).1 = .waiting ∧ run (k + 1) = run 6 ∧ ∃ front answers back wire,
        (run 6).2.connection.sendings = front ++ ⟨answers, switch.command⟩ ::
          ⟨[switch.command.checksum], [Frame.release]⟩ :: back ∧
        switch.command ∉ back.map Sending.frame ∧
        (run 6).2.connection.line.outbound = wire ∧
        ((front.map Sending.frame ++ [switch.command, [Frame.release]]).flatten <+: wire ↔
          ¬ (back = [] ∧ (run k).2.connection.outbox.pending = some [Frame.release] ∧
            (run k).2.findsWritable = false)) := by
  intro switch run
  have hdone : (run 6).1 = .ended .done := by decide
  have hstill : ∀ k, (run k).1 = .waiting →
      (run k).2.waited.2.2.outbound = (run k).2.connection.line.outbound := by
    intro k hwaiting
    rcases Nat.lt_or_ge k 6 with hk | hk
    · interval_cases k <;> decide
    · rw [show run k = run 6 from Loop.run_of_not_waiting {} _ _ (by decide) hk, hdone] at hwaiting
      cases hwaiting
  exact ⟨Terminal.truthful, rfl, hstill, hdone,
    Loop.run_done_released_iff Terminal.truthful rfl ({} : Terminal) _ hstill 6 hdone⟩

end Powerline
