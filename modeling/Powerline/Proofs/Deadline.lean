/-
The deadline of a loop. Every wait begins before the deadline and is capped by what is left until
then; the turn that comes too late does nothing but end the loop, and nothing else ends it that way
but a reaction that gives up so itself. If every wait lasts, only so many waits fit.
-/
import Powerline.Proofs.Switch.Reactions
import Powerline.Proofs.Turn
import Powerline.Script.Line
import Powerline.Script.Waits
import Mathlib.Algebra.Order.Floor.Div

namespace Powerline

variable {τ ω : Type}

/-! ## No timeout but the loop's -/

/-- A refused frame is no timeout. -/
theorem Desk.submit_ne_timeout {σ : Type} (mode : Mode) (frame : Frame) (d : Desk σ) :
    (d.submit mode frame).1 ≠ .error .timeout := by
  unfold Desk.submit Outbox.submit
  split_ifs <;> simp

/-- So what follows a frame that is refused does not end in one either. -/
theorem Desk.submit_error_ne_timeout {σ α : Type} {mode : Mode} {frame : Frame} {fault : Fault}
    {d d' : Desk σ} (refused : d.submit mode frame = (.error fault, d')) :
    (.error fault : Except Fault α) ≠ .error .timeout := by
  have hs := d.submit_ne_timeout mode frame
  rw [refused] at hs
  rintro ⟨⟩
  exact hs rfl

/-- The reactions of a switch never give up as if they were late. -/
theorem Switch.run_reactions_ne_timeout (occasion : Occasion) (d : Desk Switch) :
    ((reactions.toOccasion occasion).run d).1 ≠ .error .timeout := by
  cases occasion with
  | interfaceReady =>
    show (onReady.run d).1 ≠ _
    rw [run_onReady]
    split
    · simp
    · split
      · split
        · simp
        · next hr => exact Desk.submit_error_ne_timeout hr
      all_goals simp
  | interfacePoll => rintro ⟨⟩
  | timeRequest =>
    show (onTimeRequest.run d).1 ≠ _
    rw [run_onTimeRequest]
    split
    · simp
    · split
      · split
        · simp
        · next hr => exact Desk.submit_error_ne_timeout hr
      · exact Desk.submit_ne_timeout _ _ _
  | echoMatched =>
    show (onEchoMatched.run d).1 ≠ _
    rw [run_onEchoMatched]
    exact Desk.submit_ne_timeout _ _ _
  | echoDiffered =>
    show (onEchoDiffered.run d).1 ≠ _
    rw [run_onEchoDiffered]
    split
    · simp
    · split
      · simp
      · exact Desk.submit_ne_timeout _ _ _
  | drained => rintro ⟨⟩

/-- A tick fails as if it were late only by a reaction that gives up so, and ends with that. -/
theorem Connection.aborted_of_timeout {σ : Type} [Line τ] {c : Connection τ σ} {found : Readiness}
    (h : (c.tick found).1 = .error .timeout) :
    ∃ occasion, (c.tick found).2.toDesk.Aborted c.reactions occasion .timeout :=
  Connection.aborted_tick nofun nofun nofun h

theorem Exchange.sendAddress_ne_timeout (c : Connection τ Switch) :
    (Exchange.sendAddress c).1 ≠ .error .timeout := by
  unfold Exchange.sendAddress Connection.submit
  split
  · rcases hr : c.toDesk.submit .verified c.host.address with ⟨fault | _, d⟩
    · exact Desk.submit_error_ne_timeout hr
    · simp
  · simp

namespace Loop

variable [Line τ] [Surroundings ω τ]

/-! ## One turn -/

/-- A turn waits once, or not at all if it is late. -/
theorem waits_turn (l : Loop ω τ) :
    l.turn.2.waits = if l.now < l.deadline then l.upcoming :: l.waits else l.waits := by
  have hturning := l.turning
  generalize l.turn.1 = verdict, l.turn.2 = l' at hturning ⊢
  cases hturning with
  | late late => rw [if_neg (Nat.not_lt.2 late)]
  | unready early wait => rw [if_pos early]; rfl
  | broken early wait tick => rw [if_pos early]; rfl
  | refused early wait tick address => rw [if_pos early]; rfl
  | ticked early wait tick address => rw [if_pos early]; rfl

/-- The only turns that time out are the late one and one in which a reaction does so itself. -/
theorem turn_timeout_iff (l : Loop ω τ) :
    l.turn.1 = some (.failed .timeout) ↔
      l.deadline ≤ l.now ∨ l.now < l.deadline ∧
        ∃ found, l.waited.1 = .ok found ∧ (l.woken.tick found).1 = .error .timeout := by
  by_cases late : l.deadline ≤ l.now
  · simp [turn_of_late late, late]
  have early : l.now < l.deadline := Nat.lt_of_not_le late
  rw [or_iff_right late, and_iff_right early, turn_of_early early]
  rcases wait : l.waited.1 with fault | found
  · simp
  simp only [Except.ok.injEq, exists_eq_left']
  rcases tick : l.woken.tick found with ⟨fault | _, c⟩
  · simp
  · have hsend := Exchange.sendAddress_ne_timeout c
    rcases address : Exchange.sendAddress c with ⟨fault | _, c'⟩ <;> rw [address] at hsend
    · simp only [address, Option.some.injEq, Verdict.failed.injEq, reduceCtorEq, iff_false]
      intro hfault
      exact hsend (congrArg Except.error hfault)
    · simp only [address, reduceCtorEq, iff_false]
      split <;> simp

/-- A tick that leaves the switch done ends the loop so, whatever the clock shows by then. -/
theorem turn_done {l : Loop ω τ} {found : Readiness} {c : Connection τ Switch}
    (early : l.now < l.deadline) (wait : l.waited.1 = .ok found)
    (tick : l.woken.tick found = (.ok (), c)) (done : c.host.stage = .done) :
    l.turn = (some .done, l.after c) := by
  have hidle : Exchange.sendAddress c = (.ok (), c) := by
    simp [Exchange.sendAddress, done]
  have hdone : c.host.isDone = true := beq_iff_eq.2 done
  simp only [turn_of_early early, wait, tick, hidle, hdone, if_true]

/-- A tick that fails ends the loop with its fault, whatever the switch has come to. -/
theorem turn_failed {l : Loop ω τ} {found : Readiness} {c : Connection τ Switch} {fault : Fault}
    (early : l.now < l.deadline) (wait : l.waited.1 = .ok found)
    (tick : l.woken.tick found = (.error fault, c)) :
    l.turn = (some (.failed fault), l.after c) := by
  simp only [turn_of_early early, wait, tick]

/-- A loop that has to be over by a deadline, whose waits so far began before it and were capped by
what was left. -/
structure Paced (deadline interval : Duration) (l : Loop ω τ) : Prop where
  limit : l.deadline = deadline
  pace : l.interval = interval
  capped : ∀ w ∈ l.waits, w.start < deadline ∧ w.cap = min interval (deadline - w.start)

theorem Paced.turn {deadline interval : Duration} {l : Loop ω τ} (h : l.Paced deadline interval) :
    l.turn.2.Paced deadline interval := by
  have hwaits := l.waits_turn
  have hturning := l.turning
  generalize l.turn.1 = verdict, l.turn.2 = l' at hturning hwaits ⊢
  obtain ⟨rfl, rfl, hcapped⟩ := h
  refine ⟨?_, ?_, ?_⟩
  · cases hturning <;> rfl
  · cases hturning <;> rfl
  · rw [hwaits]
    split
    · rename_i early
      intro w hw
      rcases List.mem_cons.1 hw with rfl | hw
      · exact ⟨early, rfl⟩
      · exact hcapped w hw
    · exact hcapped

end Loop

/-! ## Along a run -/

namespace Loop

variable [Line τ] [Surroundings ω τ] {settings : SwitchSettings} {c : Connection τ Switch} {world : ω}
  (shown : ((Surroundings.clock τ world).1 + settings.deadline) / 1000000000 ≤ Exchange.lastSecond)

include shown in
theorem run_paced (n : Nat) :
    (Loop.run settings c world n).2.Paced ((Surroundings.clock τ world).1 + settings.deadline)
      settings.pollInterval := by
  rw [run_eq_turns settings c world shown]
  refine turns_keeps (fun l h => h.turn) n ⟨rfl, rfl, ?_⟩
  intro w hw
  cases hw

include shown in
/-- A run is late by a turn that begins too late, or by a reaction that gives up so before. -/
theorem run_timeout_iff (n : Nat) :
    let deadline := (Surroundings.clock τ world).1 + settings.deadline
    let run := Loop.run settings c world
    (run n).1 = .ended (.failed .timeout) ↔ ∃ k < n, (run k).1 = .waiting ∧
      (deadline ≤ (run k).2.now ∨ (run k).2.now < deadline ∧ ∃ found,
        (run k).2.waited.1 = .ok found ∧
          ((run k).2.woken.tick found).1 = .error .timeout ∧ ∃ occasion,
            ((run k).2.woken.tick found).2.toDesk.Aborted c.reactions occasion .timeout) := by
  intro deadline run
  have hreactions : ∀ k, (run k).2.woken.reactions = c.reactions :=
    run_keeps (P := fun c' => c'.reactions = c.reactions) settings c world rfl
      fun k _ h => (run k).2.reactions_turn.trans h
  refine (run_eq_ended_iff settings c world).trans ?_
  refine exists_congr fun k => and_congr_right fun _ => and_congr_right fun _ => ?_
  rw [turn_timeout_iff, (run_paced shown k).limit]
  refine or_congr_right (and_congr_right fun _ => exists_congr fun found => and_congr_right fun _ => ?_)
  refine (and_iff_left_of_imp fun htick => ?_).symm
  rw [← hreactions k]
  exact Connection.aborted_of_timeout htick

include shown in
/-- The reactions of a switch never give up so. -/
theorem run_timeout_iff_late (reactions : c.reactions = Switch.reactions) (n : Nat) :
    let run := Loop.run settings c world
    (run n).1 = .ended (.failed .timeout) ↔
      ∃ k < n, (run k).1 = .waiting ∧
        (Surroundings.clock τ world).1 + settings.deadline ≤ (run k).2.now := by
  intro run
  refine (run_timeout_iff shown n).trans ?_
  refine exists_congr fun k => and_congr_right fun _ => and_congr_right fun _ => ?_
  refine or_iff_left ?_
  rintro ⟨-, found, -, -, occasion, before, left, hrun, -⟩
  rw [reactions] at hrun
  exact Switch.run_reactions_ne_timeout occasion _ (congrArg Prod.fst hrun)

include shown in
/-- A loop that still waits has waited once in every turn. -/
theorem waits_length_of_waiting {n : Nat} (h : (Loop.run settings c world n).1 = .waiting) :
    (Loop.run settings c world n).2.waits.length = n := by
  induction n with
  | zero =>
    rw [run_eq_turns settings c world shown]
    rfl
  | succ n ih =>
    obtain ⟨hwaiting, hnone, hnext⟩ := run_succ_waiting settings c world h
    have early : (Loop.run settings c world n).2.now < (Loop.run settings c world n).2.deadline := by
      by_contra late
      rw [turn_of_late (Nat.le_of_not_lt late)] at hnone
      cases hnone
    rw [hnext, waits_turn, if_pos early, List.length_cons, ih hwaiting]

/-- Each turn of a loop that still waits took its time. -/
theorem now_ge_of_waiting {start d n : Nat} (hstart : start ≤ (Loop.run settings c world 0).2.now)
    (lasting : ∀ k, (Loop.run settings c world k).1 = .waiting →
      (Loop.run settings c world (k + 1)).1 = .waiting →
      (Loop.run settings c world k).2.now + d ≤ (Loop.run settings c world (k + 1)).2.now)
    (h : (Loop.run settings c world n).1 = .waiting) :
    start + d * n ≤ (Loop.run settings c world n).2.now := by
  induction n with
  | zero => exact hstart
  | succ n ih =>
    obtain ⟨hwaiting, -, -⟩ := run_succ_waiting settings c world h
    calc start + d * (n + 1) = start + d * n + d := by rw [Nat.mul_succ, Nat.add_assoc]
      _ ≤ (Loop.run settings c world n).2.now + d := Nat.add_le_add_right (ih hwaiting) d
      _ ≤ (Loop.run settings c world (n + 1)).2.now := lasting n hwaiting h

include shown in
/-- Only so many waits fit before the deadline as the shortest of them goes into it. -/
theorem waits_length_le {d : Nat} (hd : 0 < d)
    (hstart : (Surroundings.clock τ world).1 ≤ (Loop.run settings c world 0).2.now)
    (lasting : ∀ k, (Loop.run settings c world k).1 = .waiting →
      (Loop.run settings c world (k + 1)).1 = .waiting →
      (Loop.run settings c world k).2.now + d ≤ (Loop.run settings c world (k + 1)).2.now)
    (n : Nat) : (Loop.run settings c world n).2.waits.length ≤ settings.deadline ⌈/⌉ d := by
  induction n with
  | zero =>
    rw [run_eq_turns settings c world shown]
    exact Nat.zero_le _
  | succ n ih =>
    rw [run_succ]
    split
    · rename_i hwaiting
      rw [waits_turn]
      split
      · rename_i early
        -- the wait now made began before the deadline, and so many went before it
        have hnow := now_ge_of_waiting hstart lasting hwaiting
        rw [(run_paced shown n).limit] at early
        rw [List.length_cons, waits_length_of_waiting shown hwaiting]
        have hmore : ¬ settings.deadline ≤ d * n := by
          intro hfit
          exact absurd early (Nat.not_lt.2 ((Nat.add_le_add_left hfit _).trans hnow))
        exact Nat.lt_of_not_le fun hfit => hmore ((ceilDiv_le_iff_le_mul hd).1 hfit)
      · exact ih
    · exact ih

/-- The deadline of the loop, if the clock can show it. Every wait begins before the deadline and has
the interval or what is left for its cap, so that it cannot pass the deadline and is not empty unless
the interval is. A turn that begins at the deadline or later ends the loop and does nothing else.
One that begins earlier waits once; if its tick succeeds and leaves the switch done the loop ends so,
and if its tick fails, with that fault. The loop times out at such a late turn, or at one before the
deadline whose tick ends with a reaction that gave up as if it were late, and at no other; those of a
switch never do. If the clock does not go back and every wait lasts for `d` at least, the loop ends
after as many waits as `d` goes into the deadline, rounded up. -/
theorem run_deadline (settings : SwitchSettings) (c : Connection τ Switch) (world : ω)
    (shown : ((Surroundings.clock τ world).1 + settings.deadline) / 1000000000 ≤
      Exchange.lastSecond) :
    let start := (Surroundings.clock τ world).1
    let deadline := start + settings.deadline
    let run := Loop.run settings c world
    (∀ n, ∀ w ∈ (run n).2.waits, w.start < deadline ∧
      w.cap = min settings.pollInterval (deadline - w.start) ∧ w.start + w.cap ≤ deadline ∧
      (0 < settings.pollInterval → 0 < w.cap)) ∧
    (∀ k, (run k).1 = .waiting → deadline ≤ (run k).2.now → ∀ n > k, run n =
      (.ended (.failed .timeout),
        { (run k).2 with world := (Surroundings.clock τ (run k).2.world).2 })) ∧
    (∀ k, (run k).1 = .waiting → (run k).2.now < deadline →
      (run (k + 1)).2.waits = (run k).2.upcoming :: (run k).2.waits ∧
      ∀ found c', (run k).2.waited.1 = .ok found →
        ((run k).2.woken.tick found = (.ok (), c') → c'.host.stage = .done →
          (run (k + 1)).1 = .ended .done) ∧
        ∀ fault, (run k).2.woken.tick found = (.error fault, c') →
          (run (k + 1)).1 = .ended (.failed fault)) ∧
    (∀ n, (run n).1 = .ended (.failed .timeout) ↔ ∃ k < n, (run k).1 = .waiting ∧
      (deadline ≤ (run k).2.now ∨ (run k).2.now < deadline ∧ ∃ found,
        (run k).2.waited.1 = .ok found ∧
          ((run k).2.woken.tick found).1 = .error .timeout ∧ ∃ occasion,
            ((run k).2.woken.tick found).2.toDesk.Aborted c.reactions occasion .timeout)) ∧
    (c.reactions = Switch.reactions → ∀ n, (run n).1 = .ended (.failed .timeout) ↔
      ∃ k < n, (run k).1 = .waiting ∧ deadline ≤ (run k).2.now) ∧
    (∀ d > 0, start ≤ (run 0).2.now →
      (∀ k, (run k).1 = .waiting → (run (k + 1)).1 = .waiting →
        (run k).2.now + d ≤ (run (k + 1)).2.now) →
      ∀ n, (run n).2.waits.length ≤ settings.deadline ⌈/⌉ d ∧
        (settings.deadline ⌈/⌉ d < n → ∃ verdict, (run n).1 = .ended verdict)) := by
  intro start deadline run
  have hpaced : ∀ n, (run n).2.Paced deadline settings.pollInterval := run_paced shown
  have hsucc : ∀ k, (run k).1 = .waiting →
      run (k + 1) = (.ofVerdict? (run k).2.turn.1, (run k).2.turn.2) := by
    intro k hwaiting
    exact (run_succ settings c world k).trans (if_pos hwaiting)
  refine ⟨?_, ?_, ?_, run_timeout_iff shown, run_timeout_iff_late shown, ?_⟩
  · intro n w hw
    obtain ⟨early, hcap⟩ := (hpaced n).capped w hw
    have hleft : w.cap ≤ deadline - w.start := hcap ▸ Nat.min_le_right _ _
    refine ⟨early, hcap, ?_, ?_⟩
    · exact (Nat.add_le_add_left hleft _).trans (Nat.add_sub_of_le early.le).le
    · intro hpos
      rw [hcap]
      exact lt_min hpos (Nat.sub_pos_of_lt early)
  · intro k hwaiting late n hn
    have hlate : (run k).2.turn = _ := turn_of_late ((hpaced k).limit ▸ late)
    have hnext := hsucc k hwaiting
    rw [hlate] at hnext
    have hstays := run_of_not_waiting settings c world (k := k + 1) (n := n) (by
      rw [show Loop.run settings c world (k + 1) = _ from hnext]
      simp [Outcome.ofVerdict?]) hn
    exact hstays.trans hnext
  · intro k hwaiting early
    have early' : (run k).2.now < (run k).2.deadline := (hpaced k).limit ▸ early
    rw [hsucc k hwaiting]
    refine ⟨?_, ?_⟩
    · rw [waits_turn, if_pos early']
    · intro found c' wait
      refine ⟨fun tick done => ?_, fun fault tick => ?_⟩
      · rw [turn_done early' wait tick done]
        rfl
      · rw [turn_failed early' wait tick]
        rfl
  · intro d hd hstart lasting n
    have hlength := waits_length_le shown hd hstart lasting n
    refine ⟨hlength, ?_⟩
    intro hmany
    rcases hr : (run n).1 with verdict | _ | _
    · exact ⟨verdict, rfl⟩
    · have hturns : run n = _ := run_eq_turns settings c world shown n
      rw [hturns] at hr
      rcases h : ((begun settings c world).turns n).1 with _ | verdict <;> rw [h] at hr <;> cases hr
    · rw [show (Loop.run settings c world n).2.waits.length = n from waits_length_of_waiting shown hr]
        at hlength
      exact absurd hlength (Nat.not_le.2 hmany)

end Loop

/-- Waits that take no time. -/
def ScriptedWaits.finding (found : List Readiness) : ScriptedWaits ScriptedLine where
  waits := found.map fun found => { finding := .ok found }

/-- A loop ends as if it were late before its deadline, by a host whose reaction gives up so. And a
switch that is done is not reported so if the tick that brought it there fails: asked for the time
while it waits for its second report, it still has the bare answer to write, and the line breaks. -/
theorem Loop.run_timeout_early :
    let settings : SwitchSettings := {}
    let switch : Switch :=
      { address := [0x04, 0x6E], command := [0x06, 0x62], maxRetries := 3, setClock := false,
        monitored := .A }
    let readable : Readiness := { readable := [42] }
    let writable : Readiness := { writable := [42] }
    let hasty : Reactions Switch := { interfaceReady := .abort .timeout }
    let line : ScriptedLine := { reads := [.byte 0x55] }
    let early := Loop.run settings (Connection.fresh line switch hasty)
      (ScriptedWaits.finding [readable])
    let breaking : ScriptedLine :=
      { reads := [.byte 0x72, .byte 0x55, .byte 0x68, .byte 0xA5, .byte 0x55]
        writes := [.upTo 2, .upTo 1, .upTo 2, .upTo 1, .fails "EIO"]
        probes := [.ok true, .ok true, .ok true, .ok false] }
    let broken := Loop.run settings (Connection.fresh breaking switch Switch.reactions)
      (ScriptedWaits.finding [.none, writable, readable, readable, readable, readable,
        { readable := [42], writable := [42] }])
    ¬ ((early 1).1 = .ended (.failed .timeout) ↔
      ∃ k < 1, (early k).1 = .waiting ∧ settings.deadline ≤ (early k).2.now) ∧
    (broken 6).2.connection.host.stage = .sentCommand ∧
      (broken 7).2.connection.host.stage = .done ∧
      (broken 7).1 = .ended (.failed (.writeFailed "EIO")) := by
  decide

/-- Waits of a second each that find nothing. -/
def ScriptedWaits.silent : ScriptedWaits ScriptedLine where
  waits := List.replicate 3 { elapsed := .seconds 1, finding := .ok {} }

/-- With a deadline of two seconds, the third turn there is too late. -/
theorem Loop.run_deadline_silent :
    let settings : SwitchSettings := { deadlineSecs := 2 }
    let switch : Switch :=
      { address := [0x04, 0x6E], command := [0x06, 0x62], maxRetries := 3, setClock := false,
        monitored := .A }
    let c := Connection.fresh ({} : ScriptedLine) switch Switch.reactions
    let start := (Surroundings.clock ScriptedLine ScriptedWaits.silent).1
    let run := Loop.run settings c ScriptedWaits.silent
    (start + settings.deadline) / 1000000000 ≤ Exchange.lastSecond ∧
      (run 3).1 = .ended (.failed .timeout) ∧ settings.deadline ⌈/⌉ Duration.seconds 1 = 2 ∧
      (∀ n, ∀ w ∈ (run n).2.waits, w.start < start + settings.deadline ∧
        w.cap = min settings.pollInterval (start + settings.deadline - w.start)) ∧
      (∀ n, (run n).1 = .ended (.failed .timeout) ↔
        ∃ k < n, (run k).1 = .waiting ∧ start + settings.deadline ≤ (run k).2.now) ∧
      ∀ n, (run n).2.waits.length ≤ 2 ∧ (2 < n → ∃ verdict, (run n).1 = .ended verdict) := by
  intro settings switch c start run
  have hended : (run 3).1 = .ended (.failed .timeout) := by decide
  have hlasting : ∀ k, (run k).1 = .waiting → (run (k + 1)).1 = .waiting →
      (run k).2.now + .seconds 1 ≤ (run (k + 1)).2.now := by
    intro k hwaiting hnext
    rcases Nat.lt_or_ge k 2 with hk | hk
    · interval_cases k <;> decide
    · rw [show run (k + 1) = run 3 from Loop.run_of_not_waiting settings c _ (by decide) (by omega),
        hended] at hnext
      cases hnext
  have hbound : settings.deadline ⌈/⌉ Duration.seconds 1 = 2 := by decide
  obtain ⟨hwaits, -, -, -, htimeout, hmany⟩ :=
    Loop.run_deadline settings c ScriptedWaits.silent (by decide)
  refine ⟨by decide, hended, hbound, ?_, htimeout rfl, ?_⟩
  · intro n w hw
    obtain ⟨early, hcap, -⟩ := hwaits n w hw
    exact ⟨early, hcap⟩
  · rw [← hbound]
    exact hmany (.seconds 1) (by decide) (by decide) hlasting

end Powerline
