/-
The calls that the waits of a loop make. A wait is one call, or several if it is interrupted; all of
them get the bound that was computed when the wait began, however long the interrupted ones took. So
a loop's calls keep to its deadline exactly if each wait's last one does, and one that does not can
begin after the deadline.
-/
import Powerline.Proofs.Deadline

namespace Powerline

variable {τ : Type}

namespace Poll

/-! ## The bound -/

/-- A longer time has no fewer whole milliseconds, rounded up. -/
theorem ceilMillis_le {a b : Nat} (h : a ≤ b) : a ⌈/⌉ 1000000 ≤ b ⌈/⌉ 1000000 := by
  rw [Nat.ceilDiv_eq_add_pred_div, Nat.ceilDiv_eq_add_pred_div]
  omega

/-- The bound in milliseconds is no more than the time rounded up to whole ones. -/
theorem timeoutMillis_le {d left : Nat} (h : d ≤ left) :
    timeoutMillis (some d) ≤ ((left ⌈/⌉ 1000000 : Nat) : Int) := by
  have hmicros : (d / 1000 + 999) / 1000 ≤ left ⌈/⌉ 1000000 := by
    rw [Nat.ceilDiv_eq_add_pred_div]
    omega
  have hcut : timeoutMillis (some d) ≤ (((d / 1000 + 999) / 1000 : Nat) : Int) := by
    simp only [timeoutMillis]
    exact Int.min_le_left _ _
  exact hcut.trans (Int.ofNat_le.2 hmicros)

/-- A call that begins before an instant, bounded by what is then left, in whole milliseconds. -/
def Call.Timely (deadline : Duration) (call : Call τ) : Prop :=
  call.start < deadline ∧ call.timeout ≤ (((deadline - call.start) ⌈/⌉ 1000000 : Nat) : Int)

/-- What an earlier call with the same bound inherits. -/
theorem Call.Timely.of_le {deadline : Duration} {call later : Call τ} (h : later.Timely deadline)
    (start : call.start ≤ later.start) (timeout : call.timeout = later.timeout) :
    call.Timely deadline := by
  have hleft : deadline - later.start ≤ deadline - call.start := Nat.sub_le_sub_left start deadline
  exact ⟨start.trans_lt h.1, timeout ▸ h.2.trans (Int.ofNat_le.2 (ceilMillis_le hleft))⟩

/-! ## The calls of one wait -/

/-- How long a wait has been interrupted when it makes its last call. -/
def interruption : List (Step τ) → Duration
  | [] => 0
  | step :: steps =>
    if step.answer = .failed interrupted then step.elapsed + interruption steps else 0

/-- The calls until one is not interrupted: all with the same bound, the last of them when the
interruptions are over. -/
theorem settle_calls (es : List Entry) (timeout : Int) (steps : List (Step τ)) (w : World τ)
    (line : τ) :
    ∃ made, (settle es timeout steps w line).2.1.calls = made ++ w.calls ∧
      (∀ call ∈ made, call.entries = es ∧ call.timeout = timeout ∧ w.clock ≤ call.start ∧
        call.start ≤ w.clock + interruption steps) ∧
      ∃ call ∈ made, call.start = w.clock + interruption steps := by
  induction steps generalizing w line with
  | nil => exact ⟨[⟨w.clock, es, timeout, line⟩], rfl, by simp [interruption], by simp [interruption]⟩
  | cons step steps ih =>
    by_cases hagain : step.answer = .failed interrupted
    · obtain ⟨made, hcalls, hall, last, hlast, hstart⟩ :=
        ih (w.after ⟨w.clock, es, timeout, line⟩ step.elapsed steps) (step.effect line)
      have hclock : (w.after ⟨w.clock, es, timeout, line⟩ step.elapsed steps).clock =
        w.clock + step.elapsed := rfl
      rw [hclock, Nat.add_assoc] at hstart
      refine ⟨made ++ [⟨w.clock, es, timeout, line⟩], ?_, ?_, last, by simp [hlast], ?_⟩
      · rw [List.append_assoc]
        simp only [settle, hagain, if_true]
        exact hcalls
      · intro call hcall
        rw [interruption, if_pos hagain]
        rcases List.mem_append.1 hcall with hlater | hfirst
        · obtain ⟨hes, ht, hfrom, hto⟩ := hall call hlater
          rw [hclock] at hfrom hto
          exact ⟨hes, ht, (Nat.le_add_right _ _).trans hfrom, Nat.add_assoc .. ▸ hto⟩
        · obtain rfl := List.mem_singleton.1 hfirst
          exact ⟨rfl, rfl, le_rfl, Nat.le_add_right _ _⟩
      · rw [interruption, if_pos hagain]
        exact hstart
    · refine ⟨[⟨w.clock, es, timeout, line⟩], ?_, ?_, ?_⟩
      · rcases hs : step.answer with errno | events
        · have herrno : errno ≠ interrupted := by
            rintro rfl
            exact hagain hs
          simp only [settle, hs, if_neg herrno]
          rfl
        · simp only [settle, hs]
          rfl
      · simp [interruption, hagain]
      · simp [interruption, hagain]

end Poll

/-- Nothing but the cap bounds a wait for what a connection is interested in. -/
theorem Connection.bound_interest [Line τ] {σ : Type} (c : Connection τ σ) (cap : Duration) :
    (c.interest {}).bound (some cap) = some cap := by
  unfold Connection.interest
  split <;> rfl

namespace Loop

variable [Line τ]

/-! ## The calls of one turn -/

/-- When the wait of the next turn makes its last call, if the turn waits. -/
def lastCall (l : Loop (Poll.World τ) τ) : Duration := l.now + Poll.interruption l.world.steps

/-- A call that the wait of the next turn makes: for what the wait is for, with the bound computed when
it begins, and as late as the interruptions make it. -/
structure Calls (l : Loop (Poll.World τ) τ) (call : Poll.Call τ) : Prop where
  early : l.now < l.deadline
  entries : call.entries = Poll.entries l.upcoming.wanted
  timeout : call.timeout = Poll.timeoutMillis (some l.upcoming.cap)
  since : l.now ≤ call.start
  latest : call.start ≤ l.lastCall

theorem world_turn (l : Loop (Poll.World τ) τ) :
    l.turn.2.world = if l.now < l.deadline then l.waited.2.1 else l.world := by
  have hturning := l.turning
  generalize l.turn.1 = verdict, l.turn.2 = l' at hturning ⊢
  cases hturning with
  | late late => rw [if_neg (Nat.not_lt.2 late)]; rfl
  | unready early wait => rw [if_pos early]; rfl
  | broken early wait tick => rw [if_pos early]; rfl
  | refused early wait tick address => rw [if_pos early]; rfl
  | ticked early wait tick address => rw [if_pos early]; rfl

theorem calls_turn (l : Loop (Poll.World τ) τ) :
    ∃ made, l.turn.2.world.calls = made ++ l.world.calls ∧ (∀ call ∈ made, l.Calls call) ∧
      (l.now < l.deadline → ∃ call ∈ made, call.start = l.lastCall) := by
  rw [world_turn]
  by_cases early : l.now < l.deadline
  · rw [if_pos early]
    obtain ⟨made, hcalls, hall, hlast⟩ := Poll.settle_calls (Poll.entries l.upcoming.wanted)
      (Poll.timeoutMillis (l.upcoming.wanted.bound (some l.upcoming.cap))) l.world.steps l.world
      l.connection.line
    refine ⟨made, hcalls, fun call hcall => ?_, fun _ => hlast⟩
    obtain ⟨hentries, htimeout, hfrom, hto⟩ := hall call hcall
    exact ⟨early, hentries, htimeout.trans (congrArg _ (Connection.bound_interest _ _)), hfrom, hto⟩
  · rw [if_neg early]
    exact ⟨[], rfl, by simp, fun h => absurd h early⟩

/-! ## The calls of a run -/

variable (settings : SwitchSettings) (c : Connection τ Switch) (world : Poll.World τ)

/-- The loop that still waits has the deadline and the interval it began with. -/
theorem paced_of_waiting {k : Nat} (h : (Loop.run settings c world k).1 = .waiting) :
    (Loop.run settings c world k).2.Paced (world.clock + settings.deadline)
      settings.pollInterval := by
  by_cases shown : (world.clock + settings.deadline) / 1000000000 ≤ Exchange.lastSecond
  · exact run_paced shown k
  · have hbegin : Exchange.begin? settings world.clock c = none :=
      if_pos (Nat.lt_of_not_le shown)
    have hclock : Surroundings.clock τ world = (world.clock, world) := rfl
    simp only [Loop.run, hclock, hbegin] at h
    cases h

theorem world_run_zero : (Loop.run settings c world 0).2.world = world := by
  have hclock : Surroundings.clock τ world = (world.clock, world) := rfl
  rcases hx : Exchange.begin? settings world.clock c with _ | x <;>
    simp only [Loop.run, hclock, hx, turns]

/-- A run has made the calls of its turns: as many as each wait needed, the last of them when the
interruptions were over. -/
theorem calls_run (n : Nat) :
    let run := Loop.run settings c world
    ∃ made, (run n).2.world.calls = made ++ world.calls ∧
      (∀ call ∈ made, ∃ k < n, (run k).1 = .waiting ∧ (run k).2.Calls call) ∧
      ∀ k < n, (run k).1 = .waiting → (run k).2.now < (run k).2.deadline →
        ∃ call ∈ made, (run k).2.Calls call ∧ call.start = (run k).2.lastCall := by
  intro run
  induction n with
  | zero =>
    have hworld : (run 0).2.world = world := world_run_zero settings c world
    exact ⟨[], by rw [hworld, List.nil_append], by simp, by simp⟩
  | succ n ih =>
    obtain ⟨made, hcalls, hall, hlast⟩ := ih
    have hsucc : run (n + 1) = _ := run_succ settings c world n
    by_cases hwaiting : (run n).1 = .waiting
    · rw [if_pos hwaiting] at hsucc
      obtain ⟨more, hmore, hallMore, hlastMore⟩ := (run n).2.calls_turn
      refine ⟨more ++ made, ?_, fun call hcall => ?_, fun k hk hwaits early => ?_⟩
      · rw [hsucc, List.append_assoc, ← hcalls]
        exact hmore
      · rcases List.mem_append.1 hcall with hnow | hbefore
        · exact ⟨n, Nat.lt_succ_self n, hwaiting, hallMore call hnow⟩
        · obtain ⟨k, hk, hrest⟩ := hall call hbefore
          exact ⟨k, Nat.lt_succ_of_lt hk, hrest⟩
      · rcases Nat.lt_succ_iff_lt_or_eq.1 hk with hk | rfl
        · obtain ⟨call, hcall, hrest⟩ := hlast k hk hwaits early
          exact ⟨call, List.mem_append_right _ hcall, hrest⟩
        · obtain ⟨call, hcall, hstart⟩ := hlastMore early
          exact ⟨call, List.mem_append_left _ hcall, hallMore call hcall, hstart⟩
    · rw [if_neg hwaiting] at hsucc
      refine ⟨made, by rw [hsucc]; exact hcalls, fun call hcall => ?_, fun k hk hwaits early => ?_⟩
      · obtain ⟨k, hk, hrest⟩ := hall call hcall
        exact ⟨k, Nat.lt_succ_of_lt hk, hrest⟩
      · rcases Nat.lt_succ_iff_lt_or_eq.1 hk with hk | rfl
        · exact hlast k hk hwaits early
        · exact absurd hwaits hwaiting

/-- Whether polls keep to the deadline. Each call that a run makes belongs to the wait of a turn that
began before the deadline, and has the bound computed at that time, which is no more than what was
then left in whole milliseconds. The calls all begin before the deadline and are bounded by what is
left when they begin exactly if this holds of the last call of each wait, which begins when the
interruptions of the wait are over; so it holds of all if no interruption takes time, and it is for
interruptions alone that it may fail. -/
theorem run_polls (n : Nat) :
    let deadline := world.clock + settings.deadline
    let run := Loop.run settings c world
    ∃ made, (run n).2.world.calls = made ++ world.calls ∧
      (∀ call ∈ made, ∃ k < n, (run k).1 = .waiting ∧ (run k).2.Calls call ∧
        (run k).2.now < deadline ∧
        call.timeout ≤ (((deadline - (run k).2.now) ⌈/⌉ 1000000 : Nat) : Int)) ∧
      ((∀ call ∈ made, call.Timely deadline) ↔
        ∀ k < n, (run k).1 = .waiting → (run k).2.now < deadline →
          (run k).2.lastCall < deadline ∧ Poll.timeoutMillis (some (run k).2.upcoming.cap) ≤
            (((deadline - (run k).2.lastCall) ⌈/⌉ 1000000 : Nat) : Int)) ∧
      ((∀ k < n, (run k).1 = .waiting → Poll.interruption (run k).2.world.steps = 0) →
        ∀ call ∈ made, call.Timely deadline) := by
  intro deadline run
  obtain ⟨made, hcalls, hall, hlast⟩ := calls_run settings c world n
  have hdeadline : ∀ k, (run k).1 = .waiting → (run k).2.deadline = deadline := fun k h =>
    (paced_of_waiting settings c world h).limit
  -- the bound computed when a wait begins
  have hcap : ∀ k, (run k).1 = .waiting → Poll.timeoutMillis (some (run k).2.upcoming.cap) ≤
      (((deadline - (run k).2.now) ⌈/⌉ 1000000 : Nat) : Int) := by
    intro k hwaiting
    exact Poll.timeoutMillis_le (hdeadline k hwaiting ▸ Nat.min_le_right _ _)
  have hiff : (∀ call ∈ made, call.Timely deadline) ↔
      ∀ k < n, (run k).1 = .waiting → (run k).2.now < deadline →
        (run k).2.lastCall < deadline ∧ Poll.timeoutMillis (some (run k).2.upcoming.cap) ≤
          (((deadline - (run k).2.lastCall) ⌈/⌉ 1000000 : Nat) : Int) := by
    constructor
    · intro htimely k hk hwaiting early
      obtain ⟨call, hcall, hof, hstart⟩ := hlast k hk hwaiting (hdeadline k hwaiting ▸ early)
      have h := htimely call hcall
      rwa [Poll.Call.Timely, hstart, hof.timeout] at h
    · intro hlater call hcall
      obtain ⟨k, hk, hwaiting, hof⟩ := hall call hcall
      have htimely := hlater k hk hwaiting (hdeadline k hwaiting ▸ hof.early)
      have hlast : ({ call with start := (run k).2.lastCall } : Poll.Call τ).Timely deadline :=
        ⟨htimely.1, hof.timeout ▸ htimely.2⟩
      exact hlast.of_le hof.latest rfl
  refine ⟨made, hcalls, fun call hcall => ?_, hiff, fun hnone => hiff.2 fun k hk hwaiting early => ?_⟩
  · obtain ⟨k, hk, hwaiting, hof⟩ := hall call hcall
    exact ⟨k, hk, hwaiting, hof, hdeadline k hwaiting ▸ hof.early, hof.timeout ▸ hcap k hwaiting⟩
  · have hnow : (run k).2.lastCall = (run k).2.now := by
      rw [lastCall, hnone k hk hwaiting, Nat.add_zero]
    rw [hnow]
    exact ⟨early, hcap k hwaiting⟩

/-- A wait with one second left is interrupted after a second and a half and then made again for as
long as before: the switch is done, by a call that began half a second after the deadline. -/
theorem run_polls_interrupted :
    let settings : SwitchSettings := { deadlineSecs := 1 }
    let switch : Switch :=
      { address := [0x04, 0x6E], command := [0x06, 0x62], maxRetries := 3, setClock := false,
        monitored := .A }
    let byte (b : UInt8) : Poll.Step ScriptedLine :=
      { effect := fun line => { line with reads := line.reads ++ [.byte b] }, answer := .ready [1] }
    let world : Poll.World ScriptedLine :=
      { steps := [{ answer := .ready [0] }, { answer := .ready [4] }, byte 0x72, byte 0x55,
          byte 0x68, { elapsed := .millis 1500, answer := .failed Poll.interrupted }, byte 0x55] }
    let run := Loop.run settings (Connection.fresh ({} : ScriptedLine) switch Switch.reactions) world 6
    run.1 = .ended .done ∧
      run.2.world.calls.head?.map (fun call => (call.start, call.timeout)) =
        some (.millis 1500, 1000) ∧
      settings.deadline < .millis 1500 := by
  decide

end Loop

end Powerline
