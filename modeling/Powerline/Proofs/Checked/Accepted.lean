/-
Which settings stop a run. Of all that a settings file can hold and a switch can be made of, only the
deadline can: if the clock cannot show it, the run stops before its first wait. Otherwise no
calculation is ever without a result, up to the largest deadline, interval and budget of retries.
-/
import Powerline.Proofs.Checked.Run
import Powerline.Proofs.Settings
import Powerline.Proofs.Switch.Turn
import Powerline.Script.Line
import Powerline.Script.Waits

namespace Powerline

variable {τ ω : Type}

/-! ## The byte counters -/

namespace Connection

/-- At most so many bytes are counted as received and as transmitted. -/
def Counts (received transmitted : Nat) (c : Connection τ Switch) : Prop :=
  c.received.toNat ≤ received ∧ c.transmitted.toNat ≤ transmitted

variable {r t : Nat} {c : Connection τ Switch}

theorem Counts.mono {r' t' : Nat} (h : c.Counts r t) (received : r ≤ r') (transmitted : t ≤ t') :
    c.Counts r' t' :=
  ⟨h.1.trans received, h.2.trans transmitted⟩

/-- A counter goes up by what is added to it, or starts again. -/
theorem toNat_add_le (counter : UInt64) (n : Nat) :
    (counter + UInt64.ofNat n).toNat ≤ counter.toNat + n := by
  rw [UInt64.toNat_add, UInt64.toNat_ofNat']
  have hsum := Nat.mod_le (counter.toNat + n % 2 ^ 64) (2 ^ 64)
  have hword := Nat.mod_le n (2 ^ 64)
  omega

variable [Line τ]

theorem Counts.drain (h : c.Counts r t) (step : c.toDesk.InStep) : c.drain.2.Counts r (t + 7) := by
  have hdraining := draining step.unfinished
  generalize c.drain.1 = result, c.drain.2 = c' at hdraining ⊢
  obtain ⟨hreceived, htransmitted⟩ := h
  cases hdraining with
  | idle free => exact ⟨hreceived, Nat.le_add_right_of_le htransmitted⟩
  | failed pending nothing => exact ⟨hreceived, Nat.le_add_right_of_le htransmitted⟩
  | @partly frame n pending took pos more =>
    refine ⟨hreceived, (toNat_add_le _ _).trans ?_⟩
    have hlength := step.length_pending_le pending
    omega
  | @last frame n pending took unfinished rest =>
    refine ⟨hreceived, (toNat_add_le _ _).trans ?_⟩
    have hlength := step.length_pending_le pending
    omega

/-- A transmission writes one frame at most. -/
theorem Counts.transmit (h : c.Counts r t) (step : c.toDesk.InStep) (waited writable : Bool) :
    (c.transmit waited writable).2.Counts r (t + 7) := by
  have hrests : ∀ c : Connection τ Switch, c.Counts r t ∧ c.toDesk.InStep → c.Counts r (t + 7) :=
    fun _ h => h.1.mono le_rfl (Nat.le_add_right _ _)
  refine ends_self.1 (transmit_ends (P := fun c => c.Counts r t ∧ c.toDesk.InStep) hrests hrests
    (fun _ h => h) (fun _ h => ends_self.2 (h.1.drain h.2)) waited writable ⟨h, step⟩)

theorem Counts.reception (h : c.Counts r t) (found : Readiness) :
    (c.reception found).2.Counts (r + 1) t := by
  have hsame : c.Counts (r + 1) t := h.mono (Nat.le_succ r) le_rfl
  unfold Connection.reception receive
  split
  · rcases Line.readByte c.line with ⟨e | _ | b, line⟩
    · exact hsame
    · exact hsame
    · simp only [feed_eq]
      exact ⟨(toNat_add_le c.received 1).trans (Nat.succ_le_succ h.1), h.2⟩
  · exact hsame

/-- A tick reads one byte at most, and writes one frame at most. -/
theorem Counts.tick (h : c.Counts r t) (step : Switch.OnDesk Desk.InStep c) (found : Readiness) :
    (c.tick found).2.Counts (r + 1) (t + 7) := by
  have hread := h.reception found
  have hstep := Switch.kept_inStep.connection.reception found step
  rw [tick_eq]
  rcases hr : c.reception found with ⟨fault | _, after⟩ <;> rw [hr] at hread hstep
  · exact hread.mono le_rfl (Nat.le_add_right _ _)
  · exact hread.transmit hstep.2 _ _

end Connection

theorem Connection.Counts.sendAddress {r t : Nat} {c : Connection τ Switch} (h : c.Counts r t) :
    (Exchange.sendAddress c).2.Counts r t := by
  unfold Exchange.sendAddress Connection.submit
  split
  · rcases c.toDesk.submit .verified c.host.address with ⟨_ | _, d⟩
    · exact h
    · exact h
  · exact h

namespace Loop

variable [Line τ] [Surroundings ω τ]

theorem counts_turn {r t : Nat} {l : Loop ω τ} (h : l.connection.Counts r t)
    (step : Switch.OnDesk Desk.InStep l.connection) :
    l.turn.2.connection.Counts (r + 1) (t + 7) := by
  have hsame : l.connection.Counts (r + 1) (t + 7) := h.mono (Nat.le_succ r) (Nat.le_add_right _ _)
  have hstep : Switch.OnDesk Desk.InStep l.woken := ⟨step.1, step.2.time _⟩
  have hwoken : l.woken.Counts r t := h
  exact turn_keeps (P := fun c => c.Counts (r + 1) (t + 7)) hsame hsame
    (fun found => hwoken.tick hstep found) fun _ hc => hc.sendAddress

/-- Every turn reads one byte at most, and writes one frame at most. -/
theorem run_counts {settings : SwitchSettings} {switch : Switch}
    (h : Switch.ofSettings settings = .ok switch) (line : τ) (world : ω) (n : Nat) :
    (Loop.run settings (.fresh line switch Switch.reactions) world n).2.connection.Counts n
      (7 * n) := by
  induction n with
  | zero =>
    rw [connection_run_zero]
    exact ⟨le_rfl, le_rfl⟩
  | succ n ih =>
    rw [run_succ]
    split
    · rename_i hwaiting
      exact counts_turn ih (run_before_turn h line world n hwaiting).1
    · exact ih.mono (Nat.le_succ n) (by omega)

end Loop

/-! ## Settings files -/

namespace Command

/-- The switch is one that the settings ask for, those of the file or the factory's. -/
theorem ofSettings_of_prepare {file : Option File} {settings : SwitchSettings} {switch : Switch}
    (h : prepare file = .ok (settings, switch)) : Switch.ofSettings settings = .ok switch := by
  have hbuilt : ∀ found : SwitchSettings,
      (do
        let switch ← (Switch.ofSettings found).mapError fun fault => ⟨.building, fault⟩
        return (found, switch)) = (.ok (settings, switch) : Except Failure _) →
      Switch.ofSettings settings = .ok switch := by
    intro found hfound
    rcases hs : Switch.ofSettings found with fault | made <;> rw [hs] at hfound <;> cases hfound
    exact hs
  unfold prepare at h
  cases file with
  | none => exact hbuilt {} h
  | some file =>
    rcases hf : file.settings with fault | found <;> simp only [hf] at h
    · cases h
    · exact hbuilt found h

/-- A file that has some of the settings, each once, gives these and the factory's for the others. -/
theorem prepare_written (path : String) (s : SwitchSettings) {given nested : List String}
    (known : given ⊆ SwitchSettings.fieldNames) (knownNested : nested ⊆ LineSettings.fieldNames)
    (once : given.Nodup) (onceNested : "serial" ∈ given → nested.Nodup) {switch : Switch}
    (made : Switch.ofSettings (s.overlay given nested) = .ok switch) :
    prepare (some ⟨path, some (s.written given nested).render.toUTF8.data.toList⟩) =
      .ok (s.overlay given nested, switch) := by
  have hparse := Json.parse?_render (s.legible_written given nested)
  have hread : SwitchSettings.parseBytes (s.written given nested).render.toUTF8.data.toList =
      .ok (s.overlay given nested) := by
    rw [SwitchSettings.parseBytes, Json.decodeBytes_toUTF8, Json.decode_eq _ hparse,
      s.ofJson_written known knownNested once onceNested]
    rfl
  simp only [prepare, File.settings, hread, made, bind, Except.bind, Except.mapError, pure,
    Except.pure]

end Command

/-! ## Where a run stops -/

namespace Exchange

variable {settings : SwitchSettings} {now : Duration} {c : Connection τ Switch}

/-- Whole seconds are added to whole seconds. -/
theorem begin?_eq (settings : SwitchSettings) (now : Duration) (c : Connection τ Switch) :
    begin? settings now c =
      if lastSecond < now / 1000000000 + settings.deadlineSecs.toNat then none
      else some
        { connection := c, deadline := now + settings.deadline, interval := settings.pollInterval } := by
  have hsum : (now + settings.deadline) / 1000000000 =
      now / 1000000000 + settings.deadlineSecs.toNat :=
    Nat.add_mul_div_left now settings.deadlineSecs.toNat (by decide)
  rw [← hsum]
  rfl

theorem begin?_eq_none_iff : begin? settings now c = none ↔
    lastSecond < now / 1000000000 + settings.deadlineSecs.toNat := by
  rw [begin?_eq]
  split
  · rename_i late
    exact iff_of_true rfl late
  · rename_i shown
    exact iff_of_false nofun shown

/-- An exchange that is begun has its deadline on the clock, and its interval in milliseconds of 64
bits. -/
theorem ranged_of_begin? {x : Exchange τ} (h : begin? settings now c = some x) :
    x.connection = c ∧ x.deadline / 1000000000 < 2 ^ 64 ∧ x.interval / 1000000000 < 2 ^ 64 := by
  simp only [begin?] at h
  split at h
  · cases h
  rename_i hshown
  cases h
  refine ⟨rfl, ?_, ?_⟩
  · have hlast : lastSecond < 2 ^ 64 := by decide
    exact (Nat.le_of_not_lt hshown).trans_lt hlast
  · have hword := settings.pollIntervalMs.toNat_lt
    refine lt_of_le_of_lt ?_ hword
    apply Nat.div_le_of_le_mul
    exact Nat.mul_le_mul_right _ (by decide)

end Exchange

namespace Loop

variable [Line τ] [Surroundings ω τ]

section
variable {settings : SwitchSettings} {switch : Switch} {line : τ} {world : ω}

/-- Where the clock cannot show the deadline, both stop. -/
theorem run?_of_overflow {c : Connection τ Switch}
    (h : Exchange.begin? settings (Surroundings.clock τ world).1 c = none) (n : Nat) :
    run? settings c world n = none ∧ (run settings c world n).1 = .clockOverflow := by
  constructor
  · simp only [run?, h, Option.bind_eq_bind, Option.bind_none]
  · simp only [run, h]

/-- Where it can, the run is in range from its first turn on. -/
theorem run?_of_shown (made : Switch.ofSettings settings = .ok switch)
    (valid : ∀ w : ω, (Surroundings.localTime τ w).Valid) {x : Exchange τ}
    (h : Exchange.begin? settings (Surroundings.clock τ world).1
      (.fresh line switch Switch.reactions) = some x) (n : Nat) :
    let run := run settings (.fresh line switch Switch.reactions) world n
    run? settings (.fresh line switch Switch.reactions) world n = some run ∧
      (run.1 = .waiting ∨ ∃ verdict, run.1 = .ended verdict) := by
  intro run
  have word : switch.plan.maxRetries < 2 ^ 32 := by
    obtain ⟨_, _, -, -, rfl⟩ := Switch.eq_of_ofSettings made
    exact settings.maxRetries.toNat_lt
  obtain ⟨hconnection, deadline, interval⟩ := Exchange.ranged_of_begin? h
  have hranged : Ranged switch.plan
      ({ toExchange := x, world := (Surroundings.clock τ world).2 } : Loop ω τ) := by
    refine ⟨?_, deadline, interval⟩
    rw [hconnection]
    exact ⟨rfl, Desk.InSession.fresh made⟩
  have hturns := turns?_eq word valid n hranged
  simp only [run, run?, Loop.run, h, Option.bind_eq_bind, Option.bind_some, hturns]
  rcases turns n ({ toExchange := x, world := (Surroundings.clock τ world).2 } : Loop ω τ) with
    ⟨_ | verdict, l⟩
  · exact ⟨rfl, .inl rfl⟩
  · exact ⟨rfl, .inr ⟨verdict, rfl⟩⟩

end

/-- What can stop the run of an accepted file, in checked arithmetic, over any line and in any
surroundings whose wall clock shows valid moments. Its frames are made without loss. The run stops
exactly if the clock, in whole seconds, cannot show the deadline; it does so before the first wait, and
the run in arithmetic without bounds says the same. Otherwise both are one and the same run, after any
number of turns, which waits still or has ended with a verdict: the caps of its waits, the retries, the
offsets into a frame and the numbers of the clock frames are never out of range, whatever the interval
and the budget of retries. The two byte counters cannot reach their 64 bits before so many turns, since
none of them counts more than one byte received and seven transmitted. -/
theorem run_stops_iff {file : Option Command.File} {settings : SwitchSettings} {switch : Switch}
    (h : Command.prepare file = .ok (settings, switch))
    (valid : ∀ w : ω, (Surroundings.localTime τ w).Valid) (line : τ) (world : ω) :
    let connection := Connection.fresh line switch Switch.reactions
    let last := (Surroundings.clock τ world).1 / 1000000000 + settings.deadlineSecs.toNat
    settings.frames? = some (.ok (switch.address, switch.command)) ∧
      ∀ n, let run := run settings connection world n
        (run? settings connection world n = none ↔ Exchange.lastSecond < last) ∧
        (run.1 = .clockOverflow ↔ Exchange.lastSecond < last) ∧
        (last ≤ Exchange.lastSecond → run? settings connection world n = some run ∧
          (run.1 = .waiting ∨ ∃ verdict, run.1 = .ended verdict)) ∧
        run.2.connection.received.toNat ≤ n ∧ run.2.connection.transmitted.toNat ≤ 7 * n := by
  intro connection last
  have made := Command.ofSettings_of_prepare h
  have hframes : settings.frames = .ok (switch.address, switch.command) := by
    obtain ⟨address, command, haddress, hcommand, rfl⟩ := Switch.eq_of_ofSettings made
    rw [SwitchSettings.frames, haddress, hcommand]
  refine ⟨settings.frames?_eq.trans (congrArg some hframes), fun n => ?_⟩
  intro run
  cases hbegin : Exchange.begin? settings (Surroundings.clock τ world).1 connection with
  | none =>
    have late : Exchange.lastSecond < last := Exchange.begin?_eq_none_iff.1 hbegin
    obtain ⟨hstops, hoverflow⟩ := run?_of_overflow hbegin n
    refine ⟨iff_of_true hstops late, iff_of_true hoverflow late, ?_, run_counts made line world n⟩
    intro shown
    exact absurd late (Nat.not_lt.2 shown)
  | some x =>
    have shown : ¬ Exchange.lastSecond < last := by
      intro late
      rw [Exchange.begin?_eq_none_iff.2 late] at hbegin
      cases hbegin
    obtain ⟨hsame, hruns⟩ := run?_of_shown made valid hbegin n
    refine ⟨iff_of_false ?_ shown, iff_of_false ?_ shown, fun _ => ⟨hsame, hruns⟩,
      run_counts made line world n⟩
    · rw [hsame]
      simp
    · intro hoverflow
      rcases hruns with hwaiting | ⟨verdict, hended⟩
      · rw [hoverflow] at hwaiting
        cases hwaiting
      · rw [hoverflow] at hended
        cases hended

/-- The file with the largest deadline that can be written: the run stops before its first wait, though
the interface is there and all is well with it. -/
theorem run_stops_largest :
    let file : Command.File :=
      ⟨"switch.json", some "\x7b\"deadline_secs\":18446744073709551615\x7d".toUTF8.data.toList⟩
    let settings : SwitchSettings := { deadlineSecs := 18446744073709551615 }
    let switch : Switch :=
      { address := [0x04, 0x6E], command := [0x06, 0x62], maxRetries := 3, setClock := false,
        monitored := .A }
    let line : ScriptedLine := { reads := [.byte 0x72, .byte 0x55, .byte 0x68, .byte 0x55] }
    let connection := Connection.fresh line switch Switch.reactions
    let readable : ScriptedWait ScriptedLine := { finding := .ok { readable := [42] } }
    let world : ScriptedWaits ScriptedLine :=
      { waits := [{ finding := .ok {} }, { finding := .ok { writable := [42] } }, readable, readable,
          readable, readable] }
    Command.prepare (some file) = .ok (settings, switch) ∧
      run? settings connection world 6 = none ∧
      run? { settings with deadlineSecs := 9223372036854775807 } connection world 6 ≠ none ∧
      (run settings connection world 6).1 = .clockOverflow ∧
      (run settings connection world 6).2.waits.length = 0 ∧
      (run { settings with deadlineSecs := 9223372036854775807 } connection world 6).1 =
        .ended .done := by
  intro file settings switch line connection readable world
  have htext : (settings.written ["deadline_secs"] []).render =
      "\x7b\"deadline_secs\":18446744073709551615\x7d" := by
    decide
  have hfile : Command.prepare (some ⟨"switch.json",
      some (settings.written ["deadline_secs"] []).render.toUTF8.data.toList⟩) =
        .ok (settings, switch) :=
    Command.prepare_written "switch.json" settings (by decide) (by decide) (by decide) (by decide)
      (by decide)
  rw [htext] at hfile
  exact ⟨hfile, by decide, by decide, by decide, by decide, by decide⟩

/-- The file with the largest deadline that the clock can show as it stands at zero, the largest
interval and budget of retries, the last unit and the highest dim level: after any number of turns the
run is that in arithmetic without bounds. -/
theorem run_stops_iff_limits :
    let settings : SwitchSettings :=
      { unit := 16, function := .dim, dim := 22, deadlineSecs := 9223372036854775807,
        pollIntervalMs := 18446744073709551615, setClock := true, maxRetries := 4294967295 }
    let file : Command.File :=
      ⟨"switch.json", some settings.render.toUTF8.data.toList⟩
    let switch : Switch :=
      { address := [0x04, 0x6C], command := [0xB6, 0x64], maxRetries := 4294967295, setClock := true,
        monitored := .A }
    let line : ScriptedLine := { reads := [.byte 0xA5, .byte 0x00] }
    let connection := Connection.fresh line switch Switch.reactions
    let readable : ScriptedWait ScriptedLine := { finding := .ok { readable := [42] } }
    let world : ScriptedWaits ScriptedLine := { waits := [readable, readable] }
    Command.prepare (some file) = .ok (settings, switch) ∧
      (∀ w : ScriptedWaits ScriptedLine, (Surroundings.localTime ScriptedLine w).Valid) ∧
      settings.frames? = some (.ok (switch.address, switch.command)) ∧
      (run settings connection world 2).1 = .waiting ∧
      (run settings connection world 2).2.connection.host.retries = 1 ∧
      ∀ n, run? settings connection world n = some (run settings connection world n) := by
  intro settings file switch line connection readable world
  have hfile : Command.prepare (some file) = .ok (settings, switch) :=
    Command.prepare_written "switch.json" settings (List.Subset.refl SwitchSettings.fieldNames)
      (List.Subset.refl LineSettings.fieldNames) (by decide) (by decide) (by decide)
  have hvalid : ∀ w : ScriptedWaits ScriptedLine, (Surroundings.localTime ScriptedLine w).Valid :=
    fun _ => Moment.valid_ofUnixMillis _
  obtain ⟨hframes, hrun⟩ := run_stops_iff hfile hvalid line world
  have hshown : (Surroundings.clock ScriptedLine world).1 / 1000000000 +
      settings.deadlineSecs.toNat ≤ Exchange.lastSecond := by
    decide
  refine ⟨hfile, hvalid, hframes, by decide, by decide, fun n => ?_⟩
  obtain ⟨-, -, hsame, -⟩ := hrun n
  exact (hsame hshown).1

end Loop

end Powerline
