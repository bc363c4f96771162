/-
What a loop asks of each poll. All calls of a wait watch the one handle of the line, always to read and
to write exactly while a frame is outstanding when the wait begins; and they are bounded. So no frame
waits for a line that nobody watches, and an idle line that could be written wakes nobody.
-/
import Powerline.Proofs.Interruption

namespace Powerline

variable {τ σ : Type} [Line τ]

namespace Poll

theorem maxTimeout_eq : (maxTimeout : Int) = 2 ^ 31 - 1 := by decide

/-- A wait that is to end has a bound that can be given to a call. -/
theorem timeoutMillis_some (d : Duration) :
    0 ≤ timeoutMillis (some d) ∧ timeoutMillis (some d) ≤ 2 ^ 31 - 1 := by
  rw [← maxTimeout_eq]
  simp only [timeoutMillis]
  exact ⟨le_min (Int.natCast_nonneg _) (Int.natCast_nonneg _), Int.min_le_right _ _⟩

end Poll

/-- What a connection is interested in is one entry: reading and writing the line are watched
together. -/
theorem Connection.entries_interest (c : Connection τ σ) :
    Poll.entries (c.interest {}) = [⟨Line.handle c.line,
      if c.outbox.isPending then Poll.readEvent ||| Poll.writeEvent else Poll.readEvent⟩] := by
  cases hp : c.outbox.isPending <;>
    simp [interest, hp, Interest.addRead, Interest.addWrite, Poll.entries, Poll.register]

namespace Loop

/-- A call of the wait of the next turn asks for what its connection is interested in, for no longer
than a call can be asked to wait. -/
theorem Calls.asks {l : Loop (Poll.World τ) τ} {call : Poll.Call τ} (h : l.Calls call) :
    call.entries = [⟨Line.handle l.connection.line,
      if l.connection.outbox.isPending then Poll.readEvent ||| Poll.writeEvent
      else Poll.readEvent⟩] ∧ 0 ≤ call.timeout ∧ call.timeout ≤ 2 ^ 31 - 1 := by
  rw [h.entries, h.timeout]
  exact ⟨l.connection.entries_interest, Poll.timeoutMillis_some _⟩

/-- The calls that a run makes turn by turn, newest first. -/
theorem calls_run_eq_flatMap (settings : SwitchSettings) (c : Connection τ Switch)
    (world : Poll.World τ) :
    let run := Loop.run settings c world
    ∃ made : Nat → List (Poll.Call τ),
      (∀ n, (run n).2.world.calls = (List.range n).reverse.flatMap made ++ world.calls) ∧
      (∀ k, made k ≠ [] ↔ (run k).1 = .waiting ∧ (run k).2.now < (run k).2.deadline) ∧
      ∀ k, ∀ call ∈ made k, (run k).2.Calls call := by
  intro run
  choose polled hcalls hmem hlast using (calls_turn : ∀ l : Loop (Poll.World τ) τ, _)
  refine ⟨fun k => if (run k).1 = .waiting then polled (run k).2 else [], ?_, ?_, ?_⟩
  · intro n
    induction n with
    | zero => exact congrArg Poll.World.calls (world_run_zero settings c world)
    | succ n ih =>
      have hsucc : run (n + 1) = _ := run_succ settings c world n
      rw [hsucc, List.range_succ, List.reverse_concat, List.flatMap_cons, List.append_assoc, ← ih]
      split
      · exact hcalls (run n).2
      · rfl
  · intro k
    by_cases hwaiting : (run k).1 = .waiting
    · simp only [hwaiting, if_true, true_and]
      constructor
      · intro hsome
        obtain ⟨call, hcall⟩ := List.exists_mem_of_ne_nil _ hsome
        exact (hmem (run k).2 call hcall).early
      · intro early
        obtain ⟨call, hcall, -⟩ := hlast (run k).2 early
        exact List.ne_nil_of_mem hcall
    · simp [hwaiting]
  · intro k call hcall
    simp only at hcall
    split at hcall
    · exact hmem (run k).2 call hcall
    · cases hcall

/-- What a run asks of its polls, whatever the connection was left as before it, whatever its reactions
do and whatever the calls answer. The calls of the run are those of its turns; a turn makes some
exactly if it still waits and is before its deadline; and each call of a turn has one entry: the
line's handle, watched to read, and to write too exactly if a frame is outstanding when the turn
begins. No call waits without bound. -/
theorem run_asks (settings : SwitchSettings) (c : Connection τ Switch) (world : Poll.World τ) :
    let run := Loop.run settings c world
    ∃ made : Nat → List (Poll.Call τ),
      (∀ n, (run n).2.world.calls = (List.range n).reverse.flatMap made ++ world.calls) ∧
      (∀ k, made k ≠ [] ↔ (run k).1 = .waiting ∧ (run k).2.now < (run k).2.deadline) ∧
      ∀ k, ∀ call ∈ made k,
        call.entries = [⟨Line.handle (run k).2.connection.line,
          if (run k).2.connection.outbox.isPending then Poll.readEvent ||| Poll.writeEvent
          else Poll.readEvent⟩] ∧
        call.timeout ≠ -1 ∧ 0 ≤ call.timeout ∧ call.timeout ≤ 2 ^ 31 - 1 := by
  intro run
  obtain ⟨made, hcalls, hsome, hmade⟩ := calls_run_eq_flatMap settings c world
  refine ⟨made, hcalls, hsome, fun k call hcall => ?_⟩
  obtain ⟨hentries, hnonneg, hmax⟩ := (hmade k call hcall).asks
  exact ⟨hentries, by omega, hnonneg, hmax⟩

/-- A run over a line that has nothing to say: the first turn polls it to be read only and queues the
address frame, the second one to be written as well, and the third, with the frame out and its echo
due, to be read only again. -/
theorem run_asks_address :
    let settings : SwitchSettings := {}
    let switch : Switch :=
      { address := [0x04, 0x6E], command := [0x06, 0x62], maxRetries := 3, setClock := false,
        monitored := .A }
    let c := Connection.fresh ({} : ScriptedLine) switch Switch.reactions
    let world : Poll.World ScriptedLine :=
      { steps := [{ answer := .ready [0] }, { answer := .ready [4] }, { answer := .ready [0] }] }
    let run := Loop.run settings c world
    (run 3).1 = .waiting ∧ (run 3).2.connection.line.taken = [0x04, 0x6E] ∧
      (run 3).2.world.calls.map (fun call => (call.entries, call.timeout)) =
        [([⟨42, 1⟩], 1000), ([⟨42, 5⟩], 1000), ([⟨42, 1⟩], 1000)] ∧
      ∃ made : Nat → List (Poll.Call ScriptedLine),
        (run 3).2.world.calls = made 2 ++ (made 1 ++ made 0) ∧ (∀ k < 3, made k ≠ []) ∧
        ∀ k < 3, ∀ call ∈ made k,
          call.entries = [⟨42, if k = 1 then 5 else 1⟩] ∧ call.timeout ≠ -1 := by
  intro settings switch c world run
  obtain ⟨made, hcalls, hsome, hmade⟩ := run_asks settings c world
  refine ⟨by decide, by decide, by decide, made, ?_, ?_, ?_⟩
  · have hnone : world.calls = [] := rfl
    simpa [List.range_succ, hnone] using hcalls 3
  · intro k hk
    refine (hsome k).2 ?_
    interval_cases k <;> decide
  · intro k hk call hcall
    obtain ⟨hentries, hbounded, -⟩ := hmade k call hcall
    refine ⟨hentries.trans ?_, hbounded⟩
    interval_cases k <;> decide

end Loop

end Powerline
