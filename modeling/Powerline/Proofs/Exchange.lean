/-
What holds along an exchange. The desk of a switch moves by the loop's own submission, by inbound
bytes and by the bytes written; a property that these keep until the first failure holds at every
turn of every loop, whatever the line and the surroundings do.
-/
import Powerline.Proofs.Switch.Reactions
import Powerline.Proofs.Turn

namespace Powerline

variable {τ ω : Type}

/-- The loop queues the address frame if nothing is outstanding as it understands it, and otherwise
does nothing. -/
theorem Exchange.sendAddress_cases {c : Connection τ Switch} (h : c.host.address ≠ []) :
    Exchange.sendAddress c = (.ok (), c) ∨
      c.host.stage = .start ∧ c.host.clockInFlight = false ∧ c.outbox.pending = none ∧
        c.outbox.echo.armed = false ∧
        Exchange.sendAddress c = (.ok (), { c with
          toDesk := (c.toDesk.queue .verified c.host.address).withHost c.host.addressSent }) := by
  unfold Exchange.sendAddress
  split
  · rename_i hidle
    simp only [Exchange.isIdle, Switch.isBusy, Bool.and_eq_true, decide_eq_true_eq,
      Bool.not_eq_true', Outbox.isPending, Option.isSome_eq_false_iff,
      Option.isNone_iff_eq_none] at hidle
    obtain ⟨hstage, ⟨hfree, hecho⟩, hclock⟩ := hidle
    right
    refine ⟨hstage, hclock, hfree, hecho, ?_⟩
    rw [Connection.submit, Desk.submit_free .verified hfree h]
    rfl
  · exact .inl rfl

namespace Switch

/-- What keeps `P` at the desk of a switch as long as nothing fails, and leaves `Q` after the first
failure: the time, an inbound byte, the bytes written, and the address frame. -/
structure Kept (P Q : Desk Switch → Prop) : Prop where
  unfinished : ∀ d, P d → d.outbox.Unfinished
  sendable : ∀ d, P d → d.host.Sendable
  fails : ∀ d, P d → Q d
  time : ∀ d t, P d → P (d.withHost { d.host with localTime := t })
  hear : ∀ d b r d', P d → Hearing b (d.note (.read b)) r d' → Ends P Q (r, d')
  advanced : ∀ d n frame, P d → d.outbox.pending = some frame →
    d.outbox.sent + n < frame.length → P (d.advanced n)
  drained : ∀ d frame, P d → d.outbox.pending = some frame →
    P (((d.released frame).note (.reacted .drained)).note (.finished .drained (.ok ())))
  address : ∀ d, P d → d.host.stage = .start → d.host.clockInFlight = false →
    d.outbox.pending = none → d.outbox.echo.armed = false →
    P ((d.queue .verified d.host.address).withHost d.host.addressSent)

/-- A property of the desk, of a connection whose reactions are those of a switch. -/
def OnDesk (P : Desk Switch → Prop) (c : Connection τ Switch) : Prop :=
  c.reactions = reactions ∧ P c.toDesk

namespace Kept

variable {P Q : Desk Switch → Prop}

/-- The loop's own submission finds the outbox free. -/
theorem sendAddress (kept : Kept P Q) {c : Connection τ Switch} (h : OnDesk P c) :
    (Exchange.sendAddress c).1 = .ok () ∧ OnDesk P (Exchange.sendAddress c).2 := by
  obtain ⟨hr, hd⟩ := h
  rcases Exchange.sendAddress_cases (kept.sendable _ hd).address with
    hs | ⟨hstage, hclock, hfree, hecho, hs⟩ <;> rw [hs]
  · exact ⟨rfl, hr, hd⟩
  · exact ⟨rfl, hr, kept.address _ hd hstage hclock hfree hecho⟩

variable [Line τ]

theorem drain (kept : Kept P Q) {c : Connection τ Switch} (h : OnDesk P c) :
    Ends (OnDesk P) (OnDesk Q) c.drain := by
  obtain ⟨hr, hd⟩ := h
  have hdraining := Connection.draining (c := c) (kept.unfinished _ hd)
  unfold Ends
  generalize c.drain.1 = result, c.drain.2 = c' at hdraining
  cases hdraining with
  | idle free => exact ⟨hr, hd⟩
  | failed pending nothing => exact ⟨hr, kept.fails _ hd⟩
  | partly pending took pos more => exact ⟨hr, kept.advanced _ _ _ hd pending more⟩
  | last pending took unfinished rest =>
    -- a switch does not react to the release, which only leaves its entries
    rw [hr]
    exact ⟨rfl, kept.drained _ _ hd pending⟩

theorem connection (kept : Kept P Q) :
    Connection.Kept (τ := τ) (OnDesk P) (OnDesk Q) where
  fails _ h := ⟨h.1, kept.fails _ h.2⟩
  readByte _ h := h
  feed c b h := by
    have hsend : (c.toDesk.note (.read b)).host.Sendable := kept.sendable c.toDesk h.2
    have hends := kept.hear _ b _ _ h.2 (hear_hearing hsend b)
    rw [Connection.feed_eq, h.1]
    unfold Ends at hends ⊢
    revert hends
    cases ((c.toDesk.note (.read b)).hear b reactions).1 with
    | ok _ => exact fun hp => ⟨rfl, hp⟩
    | error _ => exact fun hq => ⟨rfl, hq⟩
  probe _ h := h
  drain _ h := kept.drain h

end Kept

end Switch

/-! ## Turns -/

/-- `P` while an exchange goes on and when it is done, `Q` when it has failed. -/
def Holds {α : Type} (P Q : α → Prop) (verdict : Option Verdict) (a : α) : Prop :=
  match verdict with
  | some (.failed _) => Q a
  | some .done | none => P a

/-- What follows from `P` anyway holds in any case. -/
theorem Holds.fails {α : Type} {P Q : α → Prop} {verdict : Option Verdict} {a : α}
    (fails : ∀ a, P a → Q a) (h : Holds P Q verdict a) : Q a := by
  rcases verdict with _ | _ | fault
  · exact fails a h
  · exact fails a h
  · exact h

namespace Switch.Kept

variable {P Q : Desk Switch → Prop} [Line τ]

variable [Surroundings ω τ]

theorem turn (kept : Kept P Q) {l : Loop ω τ} (h : OnDesk P l.connection) :
    Holds (OnDesk P) (OnDesk Q) l.turn.1 l.turn.2.connection := by
  have hwoken : OnDesk P l.woken := ⟨h.1, kept.time _ _ h.2⟩
  have hturning := l.turning
  generalize l.turn.1 = verdict, l.turn.2 = l' at hturning ⊢
  cases hturning with
  | late late => exact ⟨h.1, kept.fails _ h.2⟩
  | unready early wait => exact ⟨h.1, kept.fails _ h.2⟩
  | @broken found fault c early wait tick =>
    have htick := kept.connection.tick found hwoken
    rw [tick] at htick
    exact htick
  | @refused found fault c c' early wait tick address =>
    have htick := kept.connection.tick found hwoken
    rw [tick] at htick
    obtain ⟨hok, -⟩ := kept.sendAddress htick
    rw [address] at hok
    cases hok
  | @ticked found c c' early wait tick address =>
    have htick := kept.connection.tick found hwoken
    rw [tick] at htick
    obtain ⟨-, hsent⟩ := kept.sendAddress htick
    rw [address] at hsent
    split
    · exact hsent
    · exact hsent

theorem turns (kept : Kept P Q) (n : Nat) {l : Loop ω τ} (h : OnDesk P l.connection) :
    Holds (OnDesk P) (OnDesk Q) (l.turns n).1 (l.turns n).2.connection := by
  induction n generalizing l with
  | zero => exact h
  | succ n ih =>
    have hturn := kept.turn h
    unfold Loop.turns
    rcases hl : l.turn with ⟨_ | verdict, l'⟩ <;> rw [hl] at hturn
    · exact ih hturn
    · exact hturn

end Switch.Kept

/-! ## What a verdict says of the stage -/

/-- A switch is done if and only if the verdict says so; a failure says nothing. -/
def Verdict.Tells (verdict : Option Verdict) (s : Switch) : Prop :=
  (verdict = some .done → s.stage = .done) ∧ (verdict = none → s.stage ≠ .done)

section
variable {s : Switch}

theorem Verdict.tells_failed (fault : Fault) (s : Switch) : Tells (some (.failed fault)) s := by
  constructor <;> rintro ⟨⟩

theorem Verdict.tells_done (h : s.stage = .done) : Tells (some .done) s := by
  constructor
  · intro _
    exact h
  · rintro ⟨⟩

theorem Verdict.tells_none (h : s.stage ≠ .done) : Tells none s := by
  constructor
  · rintro ⟨⟩
  · intro _
    exact h

end

section
variable [Line τ] [Surroundings ω τ]

theorem Loop.turn_tells (l : Loop ω τ) : Verdict.Tells l.turn.1 l.turn.2.connection.host := by
  have hturning := l.turning
  generalize l.turn.1 = verdict, l.turn.2 = l' at hturning ⊢
  cases hturning with
  | late late => exact Verdict.tells_failed _ _
  | unready early wait => exact Verdict.tells_failed _ _
  | broken early wait tick => exact Verdict.tells_failed _ _
  | refused early wait tick address => exact Verdict.tells_failed _ _
  | @ticked found c c' early wait tick address =>
    by_cases hdone : c'.host.isDone = true
    · rw [if_pos hdone]
      exact Verdict.tells_done (beq_iff_eq.1 hdone)
    · rw [if_neg hdone]
      apply Verdict.tells_none
      intro hstage
      exact hdone (beq_iff_eq.2 hstage)

theorem Loop.turns_tells (n : Nat) (l : Loop ω τ) (h : l.connection.host.stage ≠ .done) :
    Verdict.Tells (l.turns n).1 (l.turns n).2.connection.host := by
  induction n generalizing l with
  | zero => exact Verdict.tells_none h
  | succ n ih =>
    have hturn := l.turn_tells
    unfold Loop.turns
    rcases hl : l.turn with ⟨_ | verdict, l'⟩ <;> rw [hl] at hturn
    · exact ih l' (hturn.2 rfl)
    · exact hturn

end

/-! ## Runs -/

/-- What holds at a fresh desk and is kept holds after any number of turns: `P` at the head of the
loop and when it is done, `Q` when it has failed. -/
theorem Switch.Kept.run [Line τ] [Surroundings ω τ] {P Q : Desk Switch → Prop} (kept : Kept P Q)
    (settings : SwitchSettings) (line : τ) (switch : Switch) (world : ω) (n : Nat)
    (h : P { host := switch }) :
    let r := Loop.run settings (.fresh line switch reactions) world n
    Holds P Q r.1.verdict? r.2.connection.toDesk := by
  obtain ⟨l, hl, hrun⟩ := Loop.run_cases settings (.fresh line switch reactions) world
  have hdesk : OnDesk P l.connection := by rw [hl]; exact ⟨rfl, h⟩
  rcases hrun with hrun | hrun <;> rw [hrun]
  · exact hdesk.2
  · have hturns := kept.turns n hdesk
    simp only [Outcome.verdict?_ofVerdict?]
    rcases ht : l.turns n with ⟨_ | _ | fault, l'⟩ <;> rw [ht] at hturns
    · exact hturns.2
    · exact hturns.2
    · exact hturns.2

/-- At every point of a run before its first failure, `P` holds of a connection that still reacts as a
switch does. -/
theorem Switch.Kept.run_of_not_failed [Line τ] [Surroundings ω τ] {P Q : Desk Switch → Prop}
    (kept : Kept P Q) (settings : SwitchSettings) (line : τ) (switch : Switch) (world : ω)
    (h : P { host := switch }) :
    let run := Loop.run settings (.fresh line switch reactions) world
    ∀ n, (∀ fault, (run n).1 ≠ .ended (.failed fault)) → OnDesk P (run n).2.connection := by
  intro run n ok
  have hrun : Holds P Q (run n).1.verdict? (run n).2.connection.toDesk :=
    kept.run settings line switch world n h
  refine ⟨?_, ?_⟩
  · exact Loop.run_keeps (P := fun c => c.reactions = reactions) settings _ world rfl
      (fun k _ hr => (run k).2.reactions_turn.trans hr) n
  · rcases hv : (run n).1 with (_ | fault) | _ | _ <;> rw [hv] at hrun
    · exact hrun
    · exact absurd hv (ok fault)
    · exact hrun
    · exact hrun

/-- A run that starts with a switch not yet done ends with a verdict that tells of its stage. -/
theorem Loop.run_tells [Line τ] [Surroundings ω τ] (settings : SwitchSettings) (line : τ)
    (switch : Switch) (world : ω) (n : Nat) (h : switch.stage ≠ .done) :
    let r := Loop.run settings (.fresh line switch Switch.reactions) world n
    Verdict.Tells r.1.verdict? r.2.connection.host := by
  obtain ⟨l, hl, hrun⟩ := Loop.run_cases settings (.fresh line switch Switch.reactions) world
  have hstage : l.connection.host.stage ≠ .done := by rw [hl]; exact h
  rcases hrun with hrun | hrun <;> rw [hrun]
  · exact Verdict.tells_none hstage
  · simpa only [Outcome.verdict?_ofVerdict?] using Loop.turns_tells n l hstage

end Powerline
