/-
How a line cuts the frames into pieces makes no difference. As long as it takes a byte at least of
what it is offered and tells truly how many it took, drains bring about the same releases with the
same reactions to them as if each frame went out whole; the bytes on the wire and their count are
those of the frames released, one after the other.
-/
import Powerline.Proofs.Conservation
import Powerline.Proofs.Slot

namespace Powerline

variable {ρ τ υ σ : Type}

/-- A truthful line whose writes never fail: it takes a byte at least of what it is offered. -/
structure Line.Steady [Line τ] (taken : τ → List UInt8) : Prop extends Line.Truthful taken where
  takes : ∀ (offered : List UInt8) (line : τ), offered ≠ [] →
    ∃ n > 0, (Line.write offered line).1 = .ok n

/-! ## Frame by frame -/

/-- Whether an event is the end of a reaction to a release. -/
def Event.isReturn : Event → Bool
  | finished .drained _ => true
  | _ => false

namespace Desk

/-- How often a reaction to a release has come to its end. -/
def returns (d : Desk σ) : Nat := d.history.countP Event.isReturn

/-- The desk when the outstanding frame is all written and the reaction to its release is over. -/
def completed (frame : Frame) (r : Reactions σ) (d : Desk σ) : Desk σ :=
  ((d.released frame).react .drained r).2

/-- The bytes still to be written until so many frames are released, and the desk when the reaction to
the last release is over; none if nothing is outstanding before that. -/
def releases (r : Reactions σ) : Nat → Desk σ → Option (List UInt8 × Desk σ)
  | 0, d => some ([], d)
  | n + 1, d => d.outbox.pending.bind fun frame =>
    (releases r n (d.completed frame r)).map fun (wire, last) => (d.outbox.unsent ++ wire, last)

theorem returns_note (event : Event) (d : Desk σ) :
    (d.note event).returns = d.returns + if event.isReturn then 1 else 0 := by
  simp [returns, note, List.countP_cons]

/-- A reaction cannot end another one. -/
theorem returns_run {α : Type} (r : Reaction σ α) (d : Desk σ) : (r.run d).2.returns = d.returns := by
  refine r.run_keeps (P := fun d' => d'.returns = d.returns) ?_ (fun _ _ h => h) d rfl
  intro d' mode frame h
  rcases d'.submit_cases mode frame with ⟨-, -, hs⟩ | ⟨fault, hs⟩ <;> rw [hs]
  · exact h
  · exact h

theorem returns_completed (frame : Frame) (r : Reactions σ) (d : Desk σ) :
    (d.completed frame r).returns = d.returns + 1 := by
  simp only [completed, react, returns_note, returns_run, released]
  rfl

/-- Whatever the reaction queues, nothing of it is written yet. -/
theorem sent_completed (frame : Frame) (r : Reactions σ) (d : Desk σ) :
    (d.completed frame r).outbox.sent = 0 := by
  refine (r.toOccasion .drained).run_keeps (P := fun d' => d'.outbox.sent = 0) ?_
    (fun _ _ h => h) _ rfl
  intro d' mode frame h
  rcases d'.submit_cases mode frame with ⟨-, -, hs⟩ | ⟨fault, hs⟩ <;> rw [hs]
  · rfl
  · exact h

theorem sent_of_releases {r : Reactions σ} {n : Nat} {d last : Desk σ} {wire : List UInt8}
    (hn : 0 < n) (h : d.releases r n = some (wire, last)) : last.outbox.sent = 0 := by
  induction n generalizing d wire with
  | zero => exact absurd hn (Nat.lt_irrefl 0)
  | succ n ih =>
    obtain ⟨frame, -, h⟩ := Option.bind_eq_some_iff.1 h
    obtain ⟨⟨rest, last'⟩, hrest, heq⟩ := Option.map_eq_some_iff.1 h
    cases heq
    rcases Nat.eq_zero_or_pos n with rfl | hpos
    · cases hrest
      exact sent_completed frame r d
    · exact ih hpos hrest

end Desk

/-! ## Piece by piece -/

namespace Connection

/-- The same connection over another line. -/
def onLine (line : υ) (c : Connection τ σ) : Connection υ σ := c.viewed fun _ => line

/-- `x` is `c` once these bytes are out, at this desk. -/
structure Sent (taken : τ → List UInt8) (wire : List UInt8) (d : Desk σ) (c x : Connection τ σ) :
    Prop where
  desk : x.toDesk = d
  reactions : x.reactions = c.reactions
  out : taken x.line = taken c.line ++ wire
  transmitted : x.transmitted = c.transmitted + UInt64.ofNat wire.length

variable {taken : τ → List UInt8} {wire wire' : List UInt8} {d d' : Desk σ} {c x y : Connection τ σ}

theorem Sent.refl (taken : τ → List UInt8) (c : Connection τ σ) : Sent taken [] c.toDesk c c :=
  ⟨rfl, rfl, (List.append_nil _).symm, (UInt64.add_zero _).symm⟩

theorem Sent.trans (h : Sent taken wire d c x) (h' : Sent taken wire' d' x y) :
    Sent taken (wire ++ wire') d' c y where
  desk := h'.desk
  reactions := h'.reactions.trans h.reactions
  out := by rw [h'.out, h.out, List.append_assoc]
  transmitted := by
    rw [h'.transmitted, h.transmitted, List.length_append, UInt64.ofNat_add, UInt64.add_assoc]

variable [Line τ]

/-- The connection after so many drains, of which each goes on where the one before stopped, failed or
not. -/
def drains (k : Nat) (c : Connection τ σ) : Connection τ σ := c.performAll (List.replicate k .drain)

theorem drains_succ (k : Nat) (c : Connection τ σ) : c.drains (k + 1) = c.drain.2.drains k := rfl

theorem drains_add (j k : Nat) (c : Connection τ σ) : c.drains (j + k) = (c.drains j).drains k := by
  simp only [drains, performAll, List.replicate_add, List.foldl_append]

theorem drains_of_idle (free : c.outbox.pending = none) (k : Nat) : c.drains k = c := by
  induction k with
  | zero => rfl
  | succ k ih => rw [drains_succ, drain_idle free, ih]

/-- The drains of `c`, made until so many reactions to releases have come to their end, stop at `x`. -/
def Reaches (n : Nat) (c x : Connection τ σ) : Prop :=
  ∃ k, c.drains k = x ∧ x.returns = c.returns + n ∧ ∀ j < k, (c.drains j).returns < c.returns + n

/-- A drain takes a piece of the frame, or what is left of it. -/
theorem drain_sent (steady : Line.Steady taken) (unfinished : c.outbox.Unfinished) {frame : Frame}
    (hp : c.outbox.pending = some frame) :
    (∃ n > 0, c.outbox.sent + n < frame.length ∧
      Sent taken (c.outbox.unsent.take n) (c.toDesk.advanced n) c c.drain.2) ∨
      Sent taken c.outbox.unsent (c.toDesk.completed frame c.reactions) c c.drain.2 := by
  have hunsent : c.outbox.unsent = frame.drop c.outbox.sent := Outbox.unsent_of_some hp
  have hlength : (frame.drop c.outbox.sent).length = frame.length - c.outbox.sent := List.length_drop
  rw [hunsent]
  have hdraining := draining unfinished
  generalize c.drain.1 = result, c.drain.2 = c' at hdraining ⊢
  cases hdraining with
  | idle free => rw [hp] at free; cases free
  | @failed f reason pending nothing =>
    obtain rfl : frame = f := Option.some.inj (hp.symm.trans pending)
    have hlt := unfinished frame hp
    obtain ⟨n, hpos, hn⟩ := steady.takes (frame.drop c.outbox.sent) c.line
      (List.ne_nil_of_length_pos (by omega))
    have hzero := nothing n hn
    omega
  | @partly f n pending took pos more =>
    obtain rfl : frame = f := Option.some.inj (hp.symm.trans pending)
    obtain ⟨hle, htaken⟩ := steady.write_ok _ _ n took
    have hcount : ((frame.drop c.outbox.sent).take n).length = n := List.length_take_of_le hle
    exact .inl ⟨n, pos, more, rfl, rfl, htaken, by rw [hcount]⟩
  | @last f n pending took _ rest =>
    obtain rfl : frame = f := Option.some.inj (hp.symm.trans pending)
    obtain ⟨hle, htaken⟩ := steady.write_ok _ _ n took
    rw [List.take_of_length_le (by omega)] at htaken
    exact .inr ⟨rfl, rfl, htaken, by rw [hlength]⟩

/-- Drains bring the outstanding frame out, and no other release before its own. -/
theorem drains_completed (steady : Line.Steady taken) (unfinished : c.outbox.Unfinished)
    {frame : Frame} (hp : c.outbox.pending = some frame) :
    ∃ k, Sent taken c.outbox.unsent (c.toDesk.completed frame c.reactions) c (c.drains k) ∧
      ∀ j < k, (c.drains j).returns = c.returns := by
  -- the induction is on the bytes of the frame that are still to be written
  induction hm : c.outbox.unsent.length using Nat.strong_induction_on generalizing c with
  | _ m ih =>
    rcases drain_sent steady unfinished hp with ⟨n, hpos, hmore, hpiece⟩ | hlast
    · have hdesk := hpiece.desk
      have hunsent : c.drain.2.outbox.unsent = c.outbox.unsent.drop n := by
        simp [hdesk, Desk.advanced, Outbox.unsent, hp]
      have hlength : c.outbox.unsent.length = frame.length - c.outbox.sent := by
        simp [Outbox.unsent, hp]
      have hcompleted : c.drain.2.toDesk.completed frame c.drain.2.reactions =
          c.toDesk.completed frame c.reactions := by
        rw [hdesk, hpiece.reactions]
        rfl
      obtain ⟨k, hsent, hbefore⟩ := ih c.drain.2.outbox.unsent.length
        (by rw [hunsent, List.length_drop]; omega)
        (by rw [hdesk]; exact Desk.unfinished_advanced hp hmore)
        (by rw [hdesk]; exact hp) rfl
      refine ⟨k + 1, ?_, ?_⟩
      · have hall := hpiece.trans hsent
        rwa [hunsent, List.take_append_drop, hcompleted] at hall
      · rintro (_ | j) hj
        · rfl
        · rw [drains_succ, hbefore j (by omega), hdesk]
          rfl
    · refine ⟨1, hlast, fun j hj => ?_⟩
      obtain rfl : j = 0 := by omega
      rfl

/-! ## Until so many releases -/

theorem reaches_zero_iff : c.Reaches 0 x ↔ x = c := by
  constructor
  · rintro ⟨k, rfl, -, hbefore⟩
    -- no drain is made: the count is reached at the start
    obtain rfl : k = 0 := by
      by_contra hk
      exact absurd (hbefore 0 (by omega)) (Nat.lt_irrefl _)
    rfl
  · rintro rfl
    exact ⟨0, rfl, rfl, nofun⟩

theorem not_reaches_of_idle (free : c.outbox.pending = none) (n : Nat) : ¬ c.Reaches (n + 1) x := by
  rintro ⟨k, rfl, hcount, -⟩
  rw [drains_of_idle free] at hcount
  omega

/-- The first release is on the way to the later ones. -/
theorem reaches_succ_iff {k n : Nat} (first : (c.drains k).returns = c.returns + 1)
    (before : ∀ j < k, (c.drains j).returns = c.returns) :
    c.Reaches (n + 1) x ↔ (c.drains k).Reaches n x := by
  constructor
  · rintro ⟨m, rfl, hcount, hbefore⟩
    have hkm : k ≤ m := by
      by_contra hlt
      have hearly := before m (by omega)
      omega
    obtain ⟨i, rfl⟩ := Nat.exists_eq_add_of_le hkm
    refine ⟨i, (drains_add k i c).symm, by omega, fun j hj => ?_⟩
    have hlater := hbefore (k + j) (by omega)
    rw [drains_add] at hlater
    omega
  · rintro ⟨i, rfl, hcount, hbefore⟩
    refine ⟨k + i, drains_add k i c, by omega, fun j hj => ?_⟩
    rcases Nat.lt_or_ge j k with hjk | hkj
    · have hearly := before j hjk
      omega
    · obtain ⟨j', rfl⟩ := Nat.exists_eq_add_of_le hkj
      have hlater := hbefore j' (by omega)
      rw [drains_add]
      omega

/-- Over a steady line the drains reach so many releases exactly if the desk gets there frame by
frame, and then at the same desk with the same bytes. -/
theorem reaches_releases (steady : Line.Steady taken) (n : Nat) (sound : c.outbox.Sound) :
    ((∃ x, c.Reaches n x) ↔ (c.toDesk.releases c.reactions n).isSome) ∧
      ∀ x, c.Reaches n x → ∃ wire, c.toDesk.releases c.reactions n = some (wire, x.toDesk) ∧
        Sent taken wire x.toDesk c x := by
  induction n generalizing c with
  | zero =>
    refine ⟨⟨fun _ => rfl, fun _ => ⟨c, reaches_zero_iff.2 rfl⟩⟩, fun x hx => ?_⟩
    obtain rfl := reaches_zero_iff.1 hx
    exact ⟨[], rfl, Sent.refl taken x⟩
  | succ n ih =>
    cases hp : c.outbox.pending with
    | none =>
      have hnone : c.toDesk.releases c.reactions (n + 1) = none := by simp [Desk.releases, hp]
      have hnever : ∀ x, ¬ c.Reaches (n + 1) x := fun x => not_reaches_of_idle hp n
      simp [hnone, hnever]
    | some frame =>
      -- the frame that is outstanding comes first, and leads to the desk of which the rest speaks
      obtain ⟨k, hsent, hbefore⟩ := drains_completed steady sound.unfinished hp
      have hfirst : (c.drains k).returns = c.returns + 1 := by
        rw [hsent.desk, Desk.returns_completed]
      have hsound : (c.drains k).outbox.Sound := by
        rw [hsent.desk]
        exact Desk.kept_sound.react .drained c.reactions (Desk.kept_sound.released _ frame sound hp)
      have hreleases : c.toDesk.releases c.reactions (n + 1) =
          ((c.drains k).toDesk.releases (c.drains k).reactions n).map
            fun (wire, last) => (c.outbox.unsent ++ wire, last) := by
        simp only [Desk.releases, hp, Option.bind_some, hsent.desk, hsent.reactions]
      obtain ⟨hexists, hall⟩ := ih hsound
      simp only [reaches_succ_iff hfirst hbefore]
      refine ⟨?_, fun x hx => ?_⟩
      · rw [hexists, hreleases, Option.isSome_map]
      · obtain ⟨wire, hrest, hout⟩ := hall x hx
        exact ⟨c.outbox.unsent ++ wire, by rw [hreleases, hrest]; rfl, hsent.trans hout⟩

variable [Line υ] [Line ρ]

/-- Pieces make no difference. Take a connection as any operations leave it, put over two steady lines,
and drain each until `n` reactions to releases have come to their end, whether they failed or not.
Both get there or neither does; and there both lines have taken the same bytes, and the desks are the
same: the journal with every reaction and its result, the outbox, of which nothing is written yet, the
echo that is due, and the host's state. So is the count of bytes written. -/
theorem reaches_pieces {taken : τ → List UInt8} {taken' : υ → List UInt8}
    (steady : Line.Steady taken) (steady' : Line.Steady taken') (line : ρ) (host : σ)
    (reactions : Reactions σ) (ops : List (Operation σ)) (a : τ) (b : υ) (n : Nat) :
    let c := (Connection.fresh line host reactions).performAll ops
    ((∃ x, (c.onLine a).Reaches n x) ↔ ∃ y, (c.onLine b).Reaches n y) ∧
      ∀ x y, (c.onLine a).Reaches n x → (c.onLine b).Reaches n y →
        (∃ wire, taken x.line = taken a ++ wire ∧ taken' y.line = taken' b ++ wire) ∧
          x.toDesk = y.toDesk ∧ x.transmitted = y.transmitted ∧ (0 < n → x.outbox.sent = 0) := by
  intro c
  have hsound : c.outbox.Sound :=
    performAll_keeps (P := fun c : Connection ρ σ => c.outbox.Sound)
      (fun _ op h => perform_sound op h) ops _ Outbox.Sound.empty
  obtain ⟨hexists, hall⟩ := reaches_releases (c := c.onLine a) steady n hsound
  obtain ⟨hexists', hall'⟩ := reaches_releases (c := c.onLine b) steady' n hsound
  refine ⟨hexists.trans hexists'.symm, fun x y hx hy => ?_⟩
  obtain ⟨wire, hreleases, hx⟩ := hall x hx
  obtain ⟨wire', hreleases', hy⟩ := hall' y hy
  -- both are the one end of the releases from the common desk
  obtain ⟨rfl, hdesk⟩ : wire = wire' ∧ x.toDesk = y.toDesk :=
    Prod.mk.inj (Option.some.inj (hreleases.symm.trans hreleases'))
  refine ⟨⟨wire, hx.out, hy.out⟩, hdesk, ?_, fun hn => Desk.sent_of_releases hn hreleases⟩
  exact hx.transmitted.trans hy.transmitted.symm

end Connection

/-! ## A line that takes pieces -/

/-- A line that takes of each write one byte and as many more as is settled beforehand, write by
write. -/
structure PieceLine where
  more : Nat → Nat
  writes : Nat := 0
  taken : List UInt8 := []

instance : Line PieceLine where
  handle _ := 3
  readByte line := (.ok none, line)
  write offered line :=
    let n := min (line.more line.writes + 1) offered.length
    (.ok n, { line with writes := line.writes + 1, taken := line.taken ++ offered.take n })

theorem PieceLine.steady : Line.Steady PieceLine.taken where
  write_ok offered line n h := by
    cases h
    exact ⟨Nat.min_le_right _ _, rfl⟩
  write_error _ _ _ h := by cases h
  readByte _ := rfl
  probe _ := rfl
  takes offered line h := by
    have hpos : 0 < offered.length := List.length_pos_of_ne_nil h
    exact ⟨_, by omega, rfl⟩

/-- A frame whose release brings another one and then a failure: byte by byte, or each frame at once,
the second release leaves the same. -/
theorem Connection.reaches_pieces_bytewise :
    let reactions : Reactions Bool :=
      { drained := .host fun again =>
          if again then .setHost false (.send .verified [0x06, 0x62])
          else .abort (.callback "no more") }
    let c := (Connection.fresh ({ more := id } : PieceLine) true reactions).performAll
      [.submit .verified [0x04, 0x6E]]
    let bytewise : PieceLine := { more := fun _ => 0 }
    let whole : PieceLine := { more := fun _ => 7 }
    Line.Steady PieceLine.taken ∧
      (∃ x, (c.onLine bytewise).Reaches 2 x) ∧ (∃ y, (c.onLine whole).Reaches 2 y) ∧
      ∀ x y, (c.onLine bytewise).Reaches 2 x → (c.onLine whole).Reaches 2 y →
        (∃ wire, x.line.taken = wire ∧ y.line.taken = wire) ∧ x.toDesk = y.toDesk ∧
          x.transmitted = y.transmitted ∧ x.outbox.sent = 0 := by
  intro reactions c bytewise whole
  have hreached : ∃ x, (c.onLine bytewise).Reaches 2 x := ⟨_, 4, rfl, by decide, by decide⟩
  obtain ⟨hiff, hall⟩ := Connection.reaches_pieces PieceLine.steady PieceLine.steady
    ({ more := id } : PieceLine) true reactions [.submit .verified [0x04, 0x6E]] bytewise whole 2
  refine ⟨PieceLine.steady, hreached, hiff.1 hreached, fun x y hx hy => ?_⟩
  obtain ⟨hwire, hdesk, hcount, hsent⟩ := hall x y hx hy
  exact ⟨hwire, hdesk, hcount, hsent (by decide)⟩

end Powerline
