/-
The bound of a poll in whole milliseconds. The bound of the wait is cut to whole microseconds before it
is rounded up, so it is rounded up as it should be unless what it has over whole milliseconds is less
than a microsecond: such a wait is cut short by that, and one of less than a microsecond is none.
-/
import Powerline.Proofs.Interest

namespace Powerline

variable {τ : Type}

/-- The longest span that can be told: 64 bits of seconds, and the nanoseconds short of one more. -/
def Duration.longest : Duration := .seconds (2 ^ 64 - 1) + 999999999

/-! ## The shorter bound -/

namespace Interest

theorem bound_eq_none_iff (w : Interest) (cap : Option Duration) :
    w.bound cap = none ↔ w.timeout = none ∧ cap = none := by
  unfold bound
  cases w.timeout <;> cases cap <;> simp

/-- A wait is bounded by the shorter of the bounds that are set. -/
theorem bound_eq_some_iff (w : Interest) (cap : Option Duration) (d : Duration) :
    w.bound cap = some d ↔ IsLeast {t | w.timeout = some t ∨ cap = some t} d := by
  unfold bound
  rcases w.timeout with _ | a <;> rcases cap with _ | b <;>
    simp only [Option.some.injEq, reduceCtorEq, or_false, false_or]
  · simp [IsLeast]
  · rw [Set.ofPred_eq_eq_singleton', isLeast_singleton.isLeast_iff_eq]
  · rw [Set.ofPred_eq_eq_singleton', isLeast_singleton.isLeast_iff_eq]
  · have hpair : {t | a = t ∨ b = t} = ({a, b} : Set Duration) := by
      ext t
      simp [eq_comm]
    rw [hpair, isLeast_pair.isLeast_iff_eq]

end Interest

namespace Poll

/-! ## Rounding up -/

theorem isLeast_ceilMillis (d : Nat) : IsLeast {n | d ≤ Duration.millis n} (d ⌈/⌉ 1000000) := by
  have hpos : 0 < 1000000 := by decide
  constructor
  · exact (ceilDiv_le_iff_le_mul hpos).1 le_rfl
  · intro n hn
    exact (ceilDiv_le_iff_le_mul hpos).2 hn

/-- A bound that a poll cuts short: over whole milliseconds it has some nanoseconds that come to no
microsecond. One that is too long for a poll is cut in any case. -/
def CutShort (d : Nat) : Prop :=
  0 < d % 1000000 ∧ d % 1000000 < 1000 ∧ d < Duration.millis maxTimeout

instance (d : Nat) : Decidable (CutShort d) := by unfold CutShort; infer_instance

/-- What a poll is cut short by is one millisecond. -/
theorem timeoutMillis_add_cut (d : Nat) :
    timeoutMillis (some d) + (if CutShort d then 1 else 0) =
      ((min (d ⌈/⌉ 1000000) maxTimeout : Nat) : Int) := by
  have hmax : maxTimeout = 2147483647 := rfl
  rw [Nat.ceilDiv_eq_add_pred_div]
  simp only [timeoutMillis]
  by_cases hcut : CutShort d
  · rw [if_pos hcut]
    unfold CutShort Duration.millis at hcut
    omega
  · rw [if_neg hcut]
    unfold CutShort Duration.millis at hcut
    omega

theorem timeoutMillis_mono {d longer : Nat} (h : d ≤ longer) :
    timeoutMillis (some d) ≤ timeoutMillis (some longer) := by
  simp only [timeoutMillis]
  omega

/-- Only a bound of less than a microsecond is none. -/
theorem timeoutMillis_eq_zero_iff (d : Nat) : timeoutMillis (some d) = 0 ↔ d < 1000 := by
  have hmax : maxTimeout = 2147483647 := rfl
  simp only [timeoutMillis]
  omega

theorem timeoutMillis_eq_neg_one_iff (bound : Option Duration) :
    timeoutMillis bound = -1 ↔ bound = none := by
  rcases bound with _ | d
  · simp [timeoutMillis]
  · have hnonneg := (timeoutMillis_some d).1
    simp only [reduceCtorEq, iff_false]
    omega

/-! ## The bound of a wait -/

/-- What the polls of a wait are bounded by: nothing exactly if nothing bounds the wait, and otherwise
the least whole number of milliseconds that is no shorter, as far as a poll can be told it, unless
the wait is cut short. One that is cut short has a millisecond less, and so none if it is bounded by
less than a microsecond. In any case the numbers on the way have room for it, and a longer bound is no
less. -/
theorem wait_cutShort_iff (w : Interest) (cap : Option Duration) (world : World τ) (line : τ) :
    let given := timeoutMillis (w.bound cap)
    (∃ made, (wait w cap world line).2.1.calls = made ++ world.calls ∧ made ≠ [] ∧
      ∀ call ∈ made, call.timeout = given) ∧
    (given = -1 ↔ w.timeout = none ∧ cap = none) ∧
    ∀ d : Nat, IsLeast {t | w.timeout = some t ∨ cap = some t} d →
      (∃ least : Nat, IsLeast {n | d ≤ Duration.millis n} least ∧
        (given = min (least : Int) (2 ^ 31 - 1) ↔ ¬CutShort d) ∧
        (CutShort d → given = (least : Int) - 1)) ∧
      (given = 0 ↔ d < 1000) ∧ 0 ≤ given ∧ given ≤ 2 ^ 31 - 1 ∧
      (d ≤ Duration.longest → d / 1000 < 2 ^ 128) ∧
      ∀ longer, d ≤ longer → given ≤ timeoutMillis (some longer) := by
  intro given
  refine ⟨?_, ?_, fun d hd => ?_⟩
  · obtain ⟨made, hcalls, hall, call, hcall, -⟩ :=
      settle_calls (entries w) given world.steps world line
    exact ⟨made, hcalls, List.ne_nil_of_mem hcall, fun call hcall => (hall call hcall).2.1⟩
  · rw [timeoutMillis_eq_neg_one_iff, Interest.bound_eq_none_iff]
  · have hgiven : given = timeoutMillis (some d) :=
      congrArg timeoutMillis ((w.bound_eq_some_iff cap d).2 hd)
    obtain ⟨hnonneg, hmost⟩ := timeoutMillis_some d
    have hcut := timeoutMillis_add_cut d
    have hmax := maxTimeout_eq
    rw [hgiven]
    refine ⟨⟨d ⌈/⌉ 1000000, isLeast_ceilMillis d, ?_, fun hshort => ?_⟩,
      timeoutMillis_eq_zero_iff d, hnonneg, hmost, fun hlongest => ?_,
      fun longer => timeoutMillis_mono⟩
    · by_cases hshort : CutShort d
      · rw [if_pos hshort] at hcut
        simp only [hshort, not_true_eq_false, iff_false]
        omega
      · rw [if_neg hshort] at hcut
        simp only [hshort, not_false_eq_true, iff_true]
        omega
    · have hroom : d ⌈/⌉ 1000000 ≤ maxTimeout := (isLeast_ceilMillis d).2 hshort.2.2.le
      rw [if_pos hshort] at hcut
      omega
    · unfold Duration.longest Duration.seconds at hlongest
      omega

/-- A wait bounded by two milliseconds and a nanosecond is polled for two milliseconds. -/
theorem wait_cutShort_iff_twoMillis :
    let w : Interest := { read := [42], timeout := some 2000001 }
    let cap : Option Duration := some (.seconds 1)
    (∃ made, (wait w cap ({} : World Unit) ()).2.1.calls = made ++ [] ∧ made ≠ [] ∧
      ∀ call ∈ made, call.timeout = 2) ∧
    ∃ least : Nat, IsLeast {n | 2000001 ≤ Duration.millis n} least ∧ (2 : Int) = least - 1 := by
  intro w cap
  obtain ⟨hcalls, -, hbound⟩ := wait_cutShort_iff w cap ({} : World Unit) ()
  have hshorter : IsLeast {t | w.timeout = some t ∨ cap = some t} 2000001 :=
    (w.bound_eq_some_iff cap 2000001).1 (by decide)
  obtain ⟨⟨least, hleast, -, hcut⟩, -⟩ := hbound 2000001 hshorter
  exact ⟨hcalls, least, hleast, hcut (by decide)⟩

/-- A wait bounded by a nanosecond is not waited for at all: its poll is to return at once, though the
least whole number of milliseconds that is no shorter is one. -/
theorem wait_cutShort_nanosecond :
    let w : Interest := { read := [42], timeout := some 1 }
    (wait w none ({} : World Unit) ()).2.1.calls.map (·.timeout) = [0] ∧
      IsLeast {n | 1 ≤ Duration.millis n} 1 := by
  have hleast := isLeast_ceilMillis 1
  rw [Nat.ceilDiv_eq_add_pred_div] at hleast
  exact ⟨by decide, hleast⟩

end Poll

end Powerline
