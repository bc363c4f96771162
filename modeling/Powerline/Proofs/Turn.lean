/-
The turns of a loop. A turn comes too late for its deadline, or waits; the wait fails, or the
connection ticks on what it found; and the tick fails, ends the exchange, or leaves it to the next
turn. A run makes one turn after the other until one of them gives a verdict.
-/
import Powerline.Exchange
import Powerline.Proofs.Connection
import Mathlib.Tactic

namespace Powerline

variable {τ ω : Type} [Line τ] [Surroundings ω τ]

/-! ## One turn -/

namespace Loop

/-- What the clock shows when the next turn begins. -/
def now (l : Loop ω τ) : Duration := (Surroundings.clock τ l.world).1

/-- The wait of the next turn, if it makes one. -/
def upcoming (l : Loop ω τ) : Wait τ :=
  ⟨l.now, l.connection.interest {}, min l.interval (l.deadline - l.now), l.connection.line⟩

/-- What comes of that wait. -/
def waited (l : Loop ω τ) : Except IoFault Readiness × ω × τ :=
  Surroundings.wait l.upcoming.wanted l.upcoming.cap (Surroundings.clock τ l.world).2 l.connection.line

/-- The connection that ticks on what the wait found. -/
def woken (l : Loop ω τ) : Connection τ Switch :=
  { l.connection with
    line := l.waited.2.2
    host := { l.connection.host with localTime := Surroundings.localTime τ l.waited.2.1 } }

/-- The loop once it has waited, with what has become of its connection. -/
def after (l : Loop ω τ) (connection : Connection τ Switch) : Loop ω τ :=
  { l with world := l.waited.2.1, waits := l.upcoming :: l.waits, connection }

/-- What a turn does: its verdict, if it gives one, and the loop after it. -/
inductive Turning (l : Loop ω τ) : Option Verdict → Loop ω τ → Prop where
  -- the deadline is reached, and nothing is done
  | late (late : l.deadline ≤ l.now) :
      Turning l (some (.failed .timeout)) { l with world := (Surroundings.clock τ l.world).2 }
  | unready {fault : IoFault} (early : l.now < l.deadline) (wait : l.waited.1 = .error fault) :
      Turning l (some (.failed (.io fault)))
        (l.after { l.connection with line := l.waited.2.2 })
  | broken {found : Readiness} {fault : Fault} {c : Connection τ Switch}
      (early : l.now < l.deadline) (wait : l.waited.1 = .ok found)
      (tick : l.woken.tick found = (.error fault, c)) : Turning l (some (.failed fault)) (l.after c)
  -- the loop's own frame is refused
  | refused {found : Readiness} {fault : Fault} {c c' : Connection τ Switch}
      (early : l.now < l.deadline) (wait : l.waited.1 = .ok found)
      (tick : l.woken.tick found = (.ok (), c))
      (address : Exchange.sendAddress c = (.error fault, c')) :
      Turning l (some (.failed fault)) (l.after c')
  | ticked {found : Readiness} {c c' : Connection τ Switch}
      (early : l.now < l.deadline) (wait : l.waited.1 = .ok found)
      (tick : l.woken.tick found = (.ok (), c))
      (address : Exchange.sendAddress c = (.ok (), c')) :
      Turning l (if c'.host.isDone then some .done else none) (l.after c')

theorem turn_of_late {l : Loop ω τ} (late : l.deadline ≤ l.now) :
    l.turn = (some (.failed .timeout), { l with world := (Surroundings.clock τ l.world).2 }) := by
  have hhead : l.toExchange.head (Surroundings.clock τ l.world).1 = none := by
    have hnone : l.deadline - (Surroundings.clock τ l.world).1 = 0 := Nat.sub_eq_zero_of_le late
    simp only [Exchange.head, hnone, if_true]
  simp only [turn, hhead]

theorem head_of_early {l : Loop ω τ} (early : l.now < l.deadline) :
    l.toExchange.head (Surroundings.clock τ l.world).1 =
      some (l.upcoming.wanted, l.upcoming.cap) := by
  have hsome : l.deadline - (Surroundings.clock τ l.world).1 ≠ 0 := Nat.sub_ne_zero_of_lt early
  simp only [Exchange.head, if_neg hsome]
  rfl

/-- Before its deadline a turn waits, and goes on with what the wait found. -/
theorem turn_of_early {l : Loop ω τ} (early : l.now < l.deadline) :
    l.turn =
      match l.waited.1 with
      | .error fault =>
        (some (.failed (.io fault)), l.after { l.connection with line := l.waited.2.2 })
      | .ok found =>
        match l.woken.tick found with
        | (.error fault, c) => (some (.failed fault), l.after c)
        | (.ok (), c) =>
          match Exchange.sendAddress c with
          | (.error fault, c') => (some (.failed fault), l.after c')
          | (.ok (), c') => (if c'.host.isDone then some .done else none, l.after c') := by
  have hhead := head_of_early early
  have hwaited : Surroundings.wait l.upcoming.wanted l.upcoming.cap (Surroundings.clock τ l.world).2
      l.connection.line = l.waited := rfl
  simp only [turn, hhead, hwaited]
  rcases hw : l.waited with ⟨fault | found, world, line⟩
  · simp only [after, hw]
    rfl
  · have hwoken : l.woken = { l.connection with
        line, host := { l.connection.host with localTime := Surroundings.localTime τ world } } := by
      simp only [woken, hw]
    simp only [Exchange.resume, ← hwoken]
    rcases l.woken.tick found with ⟨fault | _, c⟩
    · simp only [after, hw]
      rfl
    · rcases hs : Exchange.sendAddress c with ⟨fault | _, c'⟩ <;> simp only [hs, after, hw] <;> rfl

theorem turning (l : Loop ω τ) : Turning l l.turn.1 l.turn.2 := by
  by_cases late : l.deadline ≤ l.now
  · rw [turn_of_late late]
    exact .late late
  have early : l.now < l.deadline := Nat.lt_of_not_le late
  have hturn := turn_of_early early
  rcases wait : l.waited.1 with fault | found <;> simp only [wait] at hturn
  · rw [hturn]
    exact .unready early wait
  rcases tick : l.woken.tick found with ⟨fault | _, c⟩ <;> simp only [tick] at hturn
  · rw [hturn]
    exact .broken early wait tick
  rcases address : Exchange.sendAddress c with ⟨fault | _, c'⟩ <;> simp only [address] at hturn
  · rw [hturn]
    exact .refused early wait tick address
  · rw [hturn]
    exact .ticked early wait tick address

/-- What the wait, the tick and the loop's own submission keep of the connection, failing or not, a
turn keeps. -/
theorem turn_keeps {P : Connection τ Switch → Prop} {l : Loop ω τ} (h : P l.connection)
    (wait : P { l.connection with line := l.waited.2.2 })
    (tick : ∀ found, P (l.woken.tick found).2)
    (address : ∀ c, P c → P (Exchange.sendAddress c).2) : P l.turn.2.connection := by
  have hturning := l.turning
  generalize l.turn.1 = verdict, l.turn.2 = l' at hturning ⊢
  cases hturning with
  | late late => exact h
  | unready early waited => exact wait
  | @broken found fault c early waited ticked =>
    have hc := tick found
    rwa [ticked] at hc
  | @refused found fault c c' early waited ticked addressed =>
    have hc := tick found
    rw [ticked] at hc
    have hc' := address c hc
    rwa [addressed] at hc'
  | @ticked found c c' early waited ticked addressed =>
    have hc := tick found
    rw [ticked] at hc
    have hc' := address c hc
    rwa [addressed] at hc'

/-- A turn changes no reactions. -/
theorem reactions_turn (l : Loop ω τ) : l.turn.2.connection.reactions = l.connection.reactions := by
  refine turn_keeps (P := fun c => c.reactions = l.connection.reactions) rfl rfl ?_ ?_
  · intro found
    exact Connection.reactions_tick found l.woken
  · intro c hc
    rw [← hc]
    unfold Exchange.sendAddress Connection.submit
    split
    · rcases c.toDesk.submit .verified c.host.address with ⟨_ | _, _⟩ <;> rfl
    · rfl

/-! ## The byte of a turn -/

/-- The byte that the next turn feeds, if it feeds one. -/
def incoming (l : Loop ω τ) : Option UInt8 :=
  let (now, world) := Surroundings.clock τ l.world
  match l.toExchange.head now with
  | none => none
  | some (wanted, cap) =>
    match Surroundings.wait wanted cap world l.connection.line with
    | (.error _, _, _) => none
    | (.ok found, _, line) => { l.connection with line }.incoming found

theorem incoming_of_late {l : Loop ω τ} (late : l.deadline ≤ l.now) : l.incoming = none := by
  have hnone : l.deadline - (Surroundings.clock τ l.world).1 = 0 := Nat.sub_eq_zero_of_le late
  simp only [incoming, Exchange.head, hnone, if_true]

theorem incoming_of_unready {l : Loop ω τ} {fault : IoFault} (early : l.now < l.deadline)
    (wait : l.waited.1 = .error fault) : l.incoming = none := by
  have hhead := head_of_early early
  have hwaited : Surroundings.wait l.upcoming.wanted l.upcoming.cap (Surroundings.clock τ l.world).2
      l.connection.line = l.waited := rfl
  simp only [incoming, hhead, hwaited]
  rcases hw : l.waited with ⟨fault' | found, world, line⟩
  · rfl
  · rw [hw] at wait
    cases wait

theorem incoming_of_waited {l : Loop ω τ} {found : Readiness} (early : l.now < l.deadline)
    (wait : l.waited.1 = .ok found) : l.incoming = l.woken.incoming found := by
  have hhead := head_of_early early
  have hwaited : Surroundings.wait l.upcoming.wanted l.upcoming.cap (Surroundings.clock τ l.world).2
      l.connection.line = l.waited := rfl
  simp only [incoming, hhead, hwaited, woken]
  rcases hw : l.waited with ⟨fault | found', world, line⟩ <;> rw [hw] at wait <;> cases wait
  rfl

/-! ## Turn after turn -/

/-- A loop ends at the first turn that gives a verdict. -/
theorem turns_eq_some_iff {n : Nat} {l l' : Loop ω τ}
    {verdict : Verdict} :
    l.turns n = (some verdict, l') ↔
      ∃ k < n, (l.turns k).1 = none ∧ (l.turns k).2.turn = (some verdict, l') := by
  -- the induction is on the turns still to be made, after a first one that either ends the loop or
  -- leads to the loop of which the rest speaks
  induction n generalizing l with
  | zero => simp [turns]
  | succ n ih =>
    constructor
    · intro h
      rcases ht : l.turn with ⟨_ | v, m⟩ <;> rw [turns, ht] at h
      · obtain ⟨k, hk, hnone, hlast⟩ := ih.1 h
        refine ⟨k + 1, by omega, ?_, ?_⟩ <;> rw [turns, ht]
        · exact hnone
        · exact hlast
      · exact ⟨0, by omega, rfl, ht.trans h⟩
    · rintro ⟨_ | k, hk, hnone, hlast⟩
      · rw [turns, show l.turn = _ from hlast]
      · rcases ht : l.turn with ⟨_ | v, m⟩ <;> rw [turns, ht] at hnone hlast
        · rw [turns, ht]
          exact ih.2 ⟨k, by omega, hnone, hlast⟩
        · cases hnone

/-- The last turn of a loop that has not ended before. -/
theorem turns_succ (n : Nat) (l : Loop ω τ) :
    l.turns (n + 1) =
      match l.turns n with
      | (some verdict, m) => (some verdict, m)
      | (none, m) => m.turn := by
  induction n generalizing l with
  | zero => rcases ht : l.turn with ⟨_ | verdict, m⟩ <;> simp only [turns, ht]
  | succ n ih =>
    rw [turns]
    rcases ht : l.turn with ⟨_ | verdict, m⟩
    · simp only [ih m]
      rw [turns, ht]
    · rw [turns, ht]

/-- What every turn keeps, a loop keeps. -/
theorem turns_keeps {P : Loop ω τ → Prop} (turn : ∀ l, P l → P l.turn.2) (n : Nat) {l : Loop ω τ}
    (h : P l) : P (l.turns n).2 := by
  induction n with
  | zero => exact h
  | succ n ih =>
    rw [turns_succ]
    rcases ht : l.turns n with ⟨_ | verdict, m⟩ <;> rw [ht] at ih
    · exact turn m ih
    · exact ih

end Loop

/-! ## Runs -/

omit [Line τ] [Surroundings ω τ] in
theorem Exchange.connection_begin? {settings : SwitchSettings} {now : Duration}
    {c : Connection τ Switch} {x : Exchange τ} (h : Exchange.begin? settings now c = some x) :
    x.connection = c := by
  simp only [Exchange.begin?] at h
  split at h
  · cases h
  · cases h; rfl

/-- The verdict of an outcome, if it has one. -/
def Outcome.verdict? : Outcome → Option Verdict
  | .ended verdict => some verdict
  | .clockOverflow | .waiting => none

/-- The outcome of a loop whose turns came to a verdict, or to none yet. -/
def Outcome.ofVerdict? : Option Verdict → Outcome
  | some verdict => .ended verdict
  | none => .waiting

@[simp] theorem Outcome.verdict?_ofVerdict? (verdict : Option Verdict) :
    (ofVerdict? verdict).verdict? = verdict := by
  cases verdict <;> rfl

/-- A run never starts if the clock cannot show its deadline, and otherwise it is the turns of one
loop. -/
theorem Loop.run_cases (settings : SwitchSettings)
    (c : Connection τ Switch) (world : ω) :
    ∃ l : Loop ω τ, l.connection = c ∧
      ((∀ n, Loop.run settings c world n = (.clockOverflow, l)) ∨
        ∀ n, Loop.run settings c world n = (.ofVerdict? (l.turns n).1, (l.turns n).2)) := by
  unfold Loop.run
  rcases Surroundings.clock τ world with ⟨now, world⟩
  rcases hx : Exchange.begin? settings now c with _ | x <;> simp only [hx]
  · exact ⟨_, rfl, .inl fun _ => rfl⟩
  · refine ⟨{ toExchange := x, world }, Exchange.connection_begin? hx, .inr fun n => ?_⟩
    rcases Loop.turns n { toExchange := x, world } with ⟨_ | verdict, l⟩ <;> rfl

namespace Loop

variable (settings : SwitchSettings) (c : Connection τ Switch) (world : ω)

/-- A run goes on by a turn as long as it waits, and then stays as it is. -/
theorem run_succ (n : Nat) :
    let run := Loop.run settings c world
    run (n + 1) =
      if (run n).1 = .waiting then (.ofVerdict? (run n).2.turn.1, (run n).2.turn.2) else run n := by
  intro run
  obtain ⟨l, -, hrun⟩ := Loop.run_cases settings c world
  change (∀ n, run n = _) ∨ ∀ n, run n = _ at hrun
  rcases hrun with hrun | hrun
  · rw [hrun, hrun, if_neg (by simp)]
  · rw [hrun, hrun, turns_succ]
    rcases l.turns n with ⟨_ | verdict, m⟩
    · exact (if_pos rfl).symm
    · exact (if_neg (by simp [Outcome.ofVerdict?])).symm

theorem run_of_not_waiting {k n : Nat} (h : (Loop.run settings c world k).1 ≠ .waiting)
    (hkn : k ≤ n) : Loop.run settings c world n = Loop.run settings c world k := by
  induction n, hkn using Nat.le_induction with
  | base => rfl
  | succ n hkn ih => rw [run_succ, ih, if_neg h]

/-- A run that waits after a turn waited before it. -/
theorem run_succ_waiting {n : Nat} :
    let run := Loop.run settings c world
    (run (n + 1)).1 = .waiting →
      (run n).1 = .waiting ∧ (run n).2.turn.1 = none ∧ (run (n + 1)).2 = (run n).2.turn.2 := by
  intro run h
  have hsucc : run (n + 1) = _ := run_succ settings c world n
  rw [hsucc] at h ⊢
  split at h
  · rename_i hwaiting
    rw [if_pos hwaiting]
    refine ⟨hwaiting, ?_, rfl⟩
    rcases ht : (run n).2.turn.1 with _ | verdict
    · rfl
    · rw [ht] at h
      cases h
  · rename_i hended
    exact absurd h hended

/-- A run ends at the first turn that gives a verdict. -/
theorem run_eq_ended_iff {n : Nat} {verdict : Verdict} :
    let run := Loop.run settings c world
    (run n).1 = .ended verdict ↔
      ∃ k < n, (run k).1 = .waiting ∧ (run k).2.turn.1 = some verdict := by
  intro run
  have hsucc : ∀ k, run (k + 1) = _ := run_succ settings c world
  have hended : ∀ v : Option Verdict, Outcome.ofVerdict? v = .ended verdict ↔ v = some verdict := by
    rintro (_ | v) <;> simp [Outcome.ofVerdict?]
  constructor
  · induction n with
    | zero =>
      intro h
      obtain ⟨l, -, hrun⟩ := Loop.run_cases settings c world
      change (∀ n, run n = _) ∨ ∀ n, run n = _ at hrun
      rcases hrun with hrun | hrun <;> rw [hrun] at h <;> cases h
    | succ n ih =>
      intro h
      rw [hsucc] at h
      split at h
      · rename_i hwaiting
        exact ⟨n, by omega, hwaiting, (hended _).1 h⟩
      · obtain ⟨k, hk, hturn⟩ := ih h
        exact ⟨k, by omega, hturn⟩
  · rintro ⟨k, hk, hwaiting, hturn⟩
    have hnext : (run (k + 1)).1 = .ended verdict := by
      rw [hsucc, if_pos hwaiting]
      exact (hended _).2 hturn
    have hstays := run_of_not_waiting settings c world (k := k + 1) (n := n) (by
      rw [hnext]
      simp) hk
    rw [show run n = _ from hstays]
    exact hnext

/-- The turn after which a run is over. -/
theorem exists_last_turn {n : Nat} {verdict : Verdict} :
    let run := Loop.run settings c world
    (run n).1 = .ended verdict →
      ∃ k < n, (run k).1 = .waiting ∧ (run k).2.turn.1 = some verdict ∧ run (k + 1) = run n ∧
        (run n).2 = (run k).2.turn.2 := by
  intro run hn
  obtain ⟨k, hk, hwaiting, hturn⟩ := (run_eq_ended_iff settings c world).1 hn
  have hnext : run (k + 1) = (.ended verdict, (run k).2.turn.2) := by
    rw [show run (k + 1) = _ from (run_succ settings c world k).trans (if_pos hwaiting), hturn]
    rfl
  have hlast : run n = run (k + 1) := by
    refine run_of_not_waiting settings c world ?_ hk
    rw [show Loop.run settings c world (k + 1) = _ from hnext]
    simp
  exact ⟨k, hk, hwaiting, hturn, hlast.symm, by rw [hlast, hnext]⟩

theorem connection_run_zero : (Loop.run settings c world 0).2.connection = c := by
  obtain ⟨l, hl, hrun⟩ := Loop.run_cases settings c world
  rcases hrun with hrun | hrun <;> rw [hrun]
  · exact hl
  · exact hl

/-- What every turn of a run keeps of its connection, the run keeps. -/
theorem run_keeps {P : Connection τ Switch → Prop} (h : P c)
    (turn : ∀ k, (Loop.run settings c world k).1 = .waiting →
      P (Loop.run settings c world k).2.connection →
      P (Loop.run settings c world k).2.turn.2.connection) (n : Nat) :
    P (Loop.run settings c world n).2.connection := by
  induction n with
  | zero => rwa [connection_run_zero]
  | succ n ih =>
    rw [run_succ]
    split
    · rename_i hwaiting
      exact turn n hwaiting ih
    · exact ih

/-- The loop before its first turn. -/
def begun : Loop ω τ where
  connection := c
  deadline := (Surroundings.clock τ world).1 + settings.deadline
  interval := settings.pollInterval
  world := (Surroundings.clock τ world).2

/-- If the clock can show the deadline, a run is the turns of the loop that it begins. -/
theorem run_eq_turns
    (shown : ((Surroundings.clock τ world).1 + settings.deadline) / 1000000000 ≤ Exchange.lastSecond)
    (n : Nat) :
    Loop.run settings c world n =
      (.ofVerdict? ((begun settings c world).turns n).1, ((begun settings c world).turns n).2) := by
  have hbegin : Exchange.begin? settings (Surroundings.clock τ world).1 c =
      some (begun settings c world).toExchange := by
    simp only [Exchange.begin?, if_neg (Nat.not_lt.2 shown)]
    rfl
  have hbegun : Loop.mk (begun settings c world).toExchange (Surroundings.clock τ world).2 [] =
      begun settings c world := rfl
  simp only [run, hbegin, hbegun]
  rcases (begun settings c world).turns n with ⟨_ | verdict, l⟩ <;> rfl

end Loop

end Powerline
