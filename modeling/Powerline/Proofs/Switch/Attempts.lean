/-
The attempts at a frame. Each time the outbox takes a frame an attempt begins, and the bytes taken for
echoes until the next one are its echoes; the journal tells them all. A switch's budget is about the
longest stretch of attempts at one frame, and of those that failed.
-/
import Powerline.Proofs.Journal
import Powerline.Proofs.Switch.Turn

namespace Powerline

/-! ## Stretches of a list -/

/-- No stretch of the list in which everything has a property is longer than so many. -/
def StretchesLe {α : Type} (p : α → Prop) (most : Nat) (l : List α) : Prop :=
  ∀ stretch, stretch <:+: l → (∀ a ∈ stretch, p a) → stretch.length ≤ most

namespace StretchesLe

variable {α : Type} {p : α → Prop} {most : Nat} {l : List α}

theorem nil : StretchesLe p most [] := by
  intro stretch hstretch _
  rw [List.infix_nil.1 hstretch]
  exact Nat.zero_le _

theorem tail {a : α} (h : StretchesLe p most (a :: l)) : StretchesLe p most l :=
  fun stretch hstretch => h stretch (hstretch.trans (List.suffix_cons a l).isInfix)

/-- One more at the head lengthens only the stretch that stands there. -/
theorem cons {a : α} (h : StretchesLe p most l)
    (head : p a → ∀ stretch, stretch <+: l → (∀ x ∈ stretch, p x) → stretch.length < most) :
    StretchesLe p most (a :: l) := by
  intro stretch hstretch hall
  rcases List.infix_cons_iff.1 hstretch with hhead | hinner
  · rcases List.prefix_cons_iff.1 hhead with rfl | ⟨rest, rfl, hrest⟩
    · exact Nat.zero_le _
    · exact head (hall a List.mem_cons_self) rest hrest fun x hx => hall x (List.mem_cons_of_mem a hx)
  · exact h stretch hinner hall

/-- One that has not the property lengthens none. -/
theorem cons_of_not {a : α} (h : StretchesLe p most l) (ha : ¬ p a) : StretchesLe p most (a :: l) :=
  h.cons fun hp => absurd hp ha

/-- A stretch at the head goes no further than the first that has not the property. -/
theorem length_le_at_head {recent older stretch : List α} (h : stretch <+: recent ++ older)
    (hall : ∀ a ∈ stretch, p a) (stop : ∀ a ∈ older.head?, ¬ p a) :
    stretch.length ≤ recent.length := by
  by_contra hlong
  have hlt : recent.length < stretch.length := Nat.lt_of_not_le hlong
  have hlt' : recent.length < (recent ++ older).length := hlt.trans_le h.length_le
  have hget : stretch[recent.length] = (recent ++ older)[recent.length] := h.getElem hlt
  rw [List.getElem_append_right le_rfl] at hget
  refine stop stretch[recent.length] ?_ (hall _ (List.getElem_mem hlt))
  rw [hget, Option.mem_def, List.head?_eq_getElem?]
  simp

end StretchesLe

/-! ## Attempts -/

/-- A frame that the outbox took, with the bytes taken for echoes since then and until it took the next
one. -/
structure Attempt where
  frame : Frame
  echoes : List UInt8
  deriving DecidableEq, Repr

namespace Attempt

/-- Its one echo is not the frame's sum. -/
def Failed (a : Attempt) : Prop := ∃ b, a.echoes = [b] ∧ b ≠ a.frame.checksum

/-- One more echo for the newest of the attempts, which comes first. -/
def answer (b : UInt8) : List Attempt → List Attempt
  | [] => []
  | newest :: older => { newest with echoes := newest.echoes ++ [b] } :: older

/-- The attempts of events told newest first, newest first. -/
def ofHistory : List Event → List Attempt
  | [] => []
  | event :: before =>
    match event.accepted?, event.echo? with
    | some frame, _ => ⟨frame, []⟩ :: ofHistory before
    | none, some b => answer b (ofHistory before)
    | none, none => ofHistory before

theorem map_frame_answer (b : UInt8) (attempts : List Attempt) :
    (answer b attempts).map frame = attempts.map frame := by
  cases attempts <;> rfl

end Attempt

/-- Attempts at a frame, each of which got one of these bytes for its echo. -/
def Frame.failures (frame : Frame) (wrong : List UInt8) : List Attempt :=
  wrong.map fun b => ⟨frame, [b]⟩

theorem Frame.failed_of_mem_failures {frame : Frame} {wrong : List UInt8}
    (differed : ∀ b ∈ wrong, b ≠ frame.checksum) {a : Attempt} (h : a ∈ frame.failures wrong) :
    a.frame = frame ∧ a.Failed := by
  obtain ⟨b, hb, rfl⟩ := List.mem_map.1 h
  exact ⟨rfl, b, rfl, differed b hb⟩

namespace Desk

section
variable {σ : Type}

/-- The attempts, newest first. -/
def latest (d : Desk σ) : List Attempt := Attempt.ofHistory d.history

/-- The attempts in order. -/
def attempts (d : Desk σ) : List Attempt := d.latest.reverse

theorem latest_note {event : Event} (ha : event.accepted? = none) (he : event.echo? = none)
    (d : Desk σ) : (d.note event).latest = d.latest := by
  simp only [latest, note, Attempt.ofHistory, ha, he]

@[simp] theorem latest_queue (mode : Mode) (frame : Frame) (d : Desk σ) :
    (d.queue mode frame).latest = ⟨frame, []⟩ :: d.latest := rfl

@[simp] theorem latest_withHost (host : σ) (d : Desk σ) : (d.withHost host).latest = d.latest := rfl

/-- A byte heard while an echo is due is an echo of the newest attempt. -/
theorem latest_attending_of_armed {d : Desk σ} (h : d.outbox.echo.armed = true) (b : UInt8)
    (occasion : Occasion) : (d.attending b occasion).latest = Attempt.answer b d.latest := by
  have hecho : (Event.heard b (d.outbox.echo.classify b).1).echo? = some b := by
    rw [Echo.classify_of_armed h]
    split <;> rfl
  have haccepted : (Event.heard b (d.outbox.echo.classify b).1).accepted? = none := rfl
  unfold attending classified
  rw [latest_note rfl rfl]
  simp only [latest, note, Attempt.ofHistory, hecho, haccepted]

theorem latest_classified_of_not_armed {d : Desk σ} (h : d.outbox.echo.armed = false) (b : UInt8) :
    (d.classified b).latest = d.latest := by
  unfold classified
  refine latest_note rfl ?_ _
  rw [Echo.classify_of_not_armed h]
  cases Opcode.ofByte b <;> rfl

theorem latest_attending_of_not_armed {d : Desk σ} (h : d.outbox.echo.armed = false) (b : UInt8)
    (occasion : Occasion) : (d.attending b occasion).latest = d.latest :=
  (latest_note rfl rfl _).trans (latest_classified_of_not_armed h b)

/-- The attempts in order, of a frame's newest one and the failed ones before it. -/
theorem attempts_of_latest {d : Desk σ} {frame : Frame} {wrong : List UInt8} {older : List Attempt}
    (h : d.latest = ⟨frame, []⟩ :: (frame.failures wrong ++ older)) :
    d.attempts = older.reverse ++ frame.failures wrong.reverse ++ [⟨frame, []⟩] := by
  simp [attempts, h, Frame.failures]

/-- The attempts are at the accepted frames. -/
theorem map_frame_attempts (d : Desk σ) : d.attempts.map Attempt.frame = d.accepted := by
  obtain ⟨outbox, host, history⟩ := d
  simp only [attempts, latest, accepted, journal]
  induction history with
  | nil => rfl
  | cons event before ih =>
    cases ha : event.accepted? <;> cases he : event.echo? <;>
      simp_all [Attempt.ofHistory, Attempt.map_frame_answer, List.filterMap_append]

end

end Desk

theorem Switch.Transmitting.latest {d d' : Desk Switch} (h : Switch.Transmitting d d') :
    d'.latest = d.latest := by
  cases h <;> rfl

end Powerline
