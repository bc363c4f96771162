/-
The grammar of a session: the address frame's exchange and then the function frame's, and before,
between and after them any number of answers to requests for the time. An exchange is a frame, the
same frame again after each wrong echo, and the release byte after the right one.
-/
import Powerline.Proofs.Journal
import Powerline.Proofs.Switch.Plan
import Mathlib.Computability.Language

open scoped Computability

namespace Powerline

/-! ## One exchange -/

namespace Frame

/-- A frame sent, and sent again after each of these echoes. -/
def tries (frame : Frame) (wrong : List UInt8) : List Sending :=
  ⟨[], frame⟩ :: wrong.map fun b => ⟨[b], frame⟩

/-- The exchanges of a frame: it is sent again so often at most, each time after a wrong echo, and
released after the right one. -/
def exchange (budget : Nat) (frame : Frame) : Language Sending :=
  {word | ∃ wrong : List UInt8, wrong.length ≤ budget ∧ (∀ b ∈ wrong, b ≠ frame.checksum) ∧
    word = frame.tries wrong ++ [⟨[frame.checksum], [release]⟩]}

theorem tries_concat (frame : Frame) (wrong : List UInt8) (b : UInt8) :
    frame.tries (wrong ++ [b]) = frame.tries wrong ++ [⟨[b], frame⟩] := by
  simp [tries]

theorem mem_exchange {budget : Nat} {frame : Frame} (wrong : List UInt8)
    (hlen : wrong.length ≤ budget) (hwrong : ∀ b ∈ wrong, b ≠ frame.checksum) :
    frame.tries wrong ++ [⟨[frame.checksum], [release]⟩] ∈ frame.exchange budget :=
  ⟨wrong, hlen, hwrong, rfl⟩

theorem exchange_nonempty (budget : Nat) (frame : Frame) : ∃ word, word ∈ frame.exchange budget :=
  ⟨_, mem_exchange [] (Nat.zero_le _) (fun _ h => by cases h)⟩

/-- An exchange ends in the last sending of the frame and its release. -/
theorem eq_of_mem_exchange {budget : Nat} {frame : Frame} {word : List Sending}
    (h : word ∈ frame.exchange budget) :
    ∃ front answers, word = front ++ [⟨answers, frame⟩, ⟨[frame.checksum], [release]⟩] := by
  obtain ⟨wrong, -, -, rfl⟩ := h
  rcases List.eq_nil_or_concat wrong with rfl | ⟨before, b, rfl⟩
  · exact ⟨[], [], rfl⟩
  · refine ⟨frame.tries before, [b], ?_⟩
    rw [List.concat_eq_append, tries_concat, List.append_assoc]
    rfl

/-- Nothing but the frame and its release is sent in an exchange. -/
theorem frame_of_mem_exchange {budget : Nat} {frame : Frame} {word : List Sending}
    (h : word ∈ frame.exchange budget) {s : Sending} (hs : s ∈ word) :
    s.frame = frame ∨ s.frame = [release] := by
  obtain ⟨wrong, -, -, rfl⟩ := h
  rcases List.mem_append.1 hs with hs | hs
  · left
    rcases List.mem_cons.1 hs with rfl | hs
    · rfl
    · obtain ⟨b, -, rfl⟩ := List.mem_map.1 hs
      rfl
  · right
    rw [List.mem_singleton.1 hs]

/-- It is sent so often at most. -/
theorem count_le_of_mem_exchange {budget : Nat} {frame : Frame} {word : List Sending}
    (hframe : frame ≠ [release]) (h : word ∈ frame.exchange budget) :
    (word.map Sending.frame).count frame ≤ budget + 1 := by
  obtain ⟨wrong, hlen, -, rfl⟩ := h
  have htries : ((frame.tries wrong).map Sending.frame).count frame ≤ wrong.length + 1 :=
    List.count_le_length.trans_eq (by simp [tries])
  have hrelease : ([[release]] : List Frame).count frame = 0 :=
    List.count_eq_zero.2 (by simpa using hframe)
  rw [List.map_append, List.count_append]
  exact (Nat.add_le_add htries hrelease.le).trans (Nat.succ_le_succ hlen)

end Frame

/-! ## A session -/

namespace Plan

variable {p : Plan} {word more : List Sending}

/-- The answers to one request for the time: the exchange of a clock frame, or the bare answer. -/
def aside (p : Plan) : Language Sending :=
  {word | (p.setClock = true ∧ ∃ t, word ∈ (Frame.clock t p.monitored).exchange p.maxRetries) ∨
    (p.setClock = false ∧ word = [⟨[], [Frame.timeAnswer]⟩])}

/-- The words of a whole session. -/
def session (p : Plan) : Language Sending :=
  p.aside∗ * p.address.exchange p.maxRetries * p.aside∗ * p.command.exchange p.maxRetries * p.aside∗

/-- The words of a session as far as a stage. -/
def upTo (p : Plan) : Stage → Language Sending
  | .start => p.aside∗
  | .sentAddress => p.aside∗ * p.address.exchange p.maxRetries * p.aside∗
  | .sentCommand | .done => p.session

theorem mem_aside_of_clock {t : Moment} (set : p.setClock = true)
    (h : word ∈ (Frame.clock t p.monitored).exchange p.maxRetries) : word ∈ p.aside :=
  .inl ⟨set, t, h⟩

theorem mem_aside_of_unset (unset : p.setClock = false) :
    [⟨[], [Frame.timeAnswer]⟩] ∈ p.aside :=
  .inr ⟨unset, rfl⟩

theorem append_mem_kstar {L : Language Sending} (hw : word ∈ L∗) (hm : more ∈ L) :
    word ++ more ∈ L∗ :=
  (kstar_mul_le_kstar : L∗ * L ≤ L∗) (Language.append_mem_mul hw hm)

theorem upTo_aside {s : Stage} (hw : word ∈ p.upTo s) (hm : more ∈ p.aside) :
    word ++ more ∈ p.upTo s := by
  cases s with
  | start => exact append_mem_kstar hw hm
  | sentAddress | sentCommand | done =>
    obtain ⟨front, hfront, back, hback, rfl⟩ := hw
    rw [List.append_assoc]
    exact Language.append_mem_mul hfront (append_mem_kstar hback hm)

theorem upTo_address (hw : word ∈ p.upTo .start)
    (hm : more ∈ p.address.exchange p.maxRetries) : word ++ more ∈ p.upTo .sentAddress := by
  have h := Language.append_mem_mul (Language.append_mem_mul hw hm) (Language.nil_mem_kstar p.aside)
  rwa [List.append_nil] at h

theorem upTo_command (hw : word ∈ p.upTo .sentAddress)
    (hm : more ∈ p.command.exchange p.maxRetries) : word ++ more ∈ p.upTo .sentCommand := by
  have h := Language.append_mem_mul (Language.append_mem_mul hw hm) (Language.nil_mem_kstar p.aside)
  rwa [List.append_nil] at h

/-- Every word as far as a stage begins a word of a whole session. -/
theorem isPrefix_of_mem_upTo {s : Stage} (h : word ∈ p.upTo s) :
    ∃ whole ∈ p.session, word <+: whole := by
  obtain ⟨a, ha⟩ := Frame.exchange_nonempty p.maxRetries p.address
  obtain ⟨c, hc⟩ := Frame.exchange_nonempty p.maxRetries p.command
  -- any exchange completes what is still to come of the session
  cases s with
  | start =>
    refine ⟨word ++ a ++ c, upTo_command (upTo_address h ha) hc, ?_⟩
    rw [List.append_assoc]
    exact List.prefix_append _ _
  | sentAddress => exact ⟨word ++ c, upTo_command h hc, List.prefix_append _ _⟩
  | sentCommand | done => exact ⟨word, h, List.prefix_refl _⟩

/-- The answers to requests for the time are neither of the two frames. -/
theorem length_ne_two_of_mem_aside (h : word ∈ p.aside∗) {s : Sending} (hs : s ∈ word) :
    s.frame.length ≠ 2 := by
  obtain ⟨asides, rfl, hasides⟩ := Language.mem_kstar.1 h
  obtain ⟨aside, haside, hs⟩ := List.mem_flatten.1 hs
  rcases hasides aside haside with ⟨-, t, hexchange⟩ | ⟨-, rfl⟩
  · rcases Frame.frame_of_mem_exchange hexchange hs with hframe | hframe
    · rw [hframe, Frame.length_clock]
      decide
    · rw [hframe]
      decide
  · rw [List.mem_singleton.1 hs]
    decide

/-- A whole session has the function frame's release right after its last sending, and after that only
answers to requests for the time. -/
theorem eq_of_mem_session (hw : p.WellFormed) (h : word ∈ p.session) :
    ∃ front answers back,
      word = front ++ ⟨answers, p.command⟩ :: ⟨[p.command.checksum], [Frame.release]⟩ :: back ∧
      p.command ∉ back.map Sending.frame := by
  obtain ⟨most, ⟨before, -, exchange, hexchange, rfl⟩, back, hback, rfl⟩ := h
  obtain ⟨front, answers, rfl⟩ := Frame.eq_of_mem_exchange hexchange
  refine ⟨before ++ front, answers, back, by simp, ?_⟩
  intro hmem
  obtain ⟨s, hs, hframe⟩ := List.mem_map.1 hmem
  exact length_ne_two_of_mem_aside hback hs (hframe ▸ hw.length_command)

/-- In a whole session either frame is sent once and as often again as the budget allows, at most. -/
theorem count_le_of_mem_session (hw : p.WellFormed) (h : word ∈ p.session) :
    (word.map Sending.frame).count p.address ≤ p.maxRetries + 1 ∧
      (word.map Sending.frame).count p.command ≤ p.maxRetries + 1 := by
  have hrelease : ∀ frame : Frame, frame.length = 2 → frame ≠ [Frame.release] := by
    rintro frame hframe rfl
    cases hframe
  have haside : ∀ {word}, word ∈ p.aside∗ → ∀ frame : Frame, frame.length = 2 →
      (word.map Sending.frame).count frame = 0 := by
    intro word hword frame hframe
    refine List.count_eq_zero.2 fun hmem => ?_
    obtain ⟨s, hs, rfl⟩ := List.mem_map.1 hmem
    exact length_ne_two_of_mem_aside hword hs hframe
  have hother : ∀ {word} {f g : Frame}, word ∈ f.exchange p.maxRetries → g.length = 2 → g ≠ f →
      (word.map Sending.frame).count g = 0 := by
    intro word f g hword hg hne
    refine List.count_eq_zero.2 fun hmem => ?_
    obtain ⟨s, hs, rfl⟩ := List.mem_map.1 hmem
    rcases Frame.frame_of_mem_exchange hword hs with hf | hf
    · exact hne hf
    · exact hrelease _ hg hf
  obtain ⟨most, ⟨before, ⟨first, ⟨front, hfront, address, haddress, rfl⟩, middle, hmiddle, rfl⟩,
    command, hcommand, rfl⟩, back, hback, rfl⟩ := h
  have hla := hw.length_address
  have hlc := hw.length_command
  have hne := hw.address_ne_command
  have ha := Frame.count_le_of_mem_exchange (hrelease _ hla) haddress
  have hc := Frame.count_le_of_mem_exchange (hrelease _ hlc) hcommand
  simp only [List.map_append, List.count_append, haside hfront _ hla, haside hmiddle _ hla,
    haside hback _ hla, haside hfront _ hlc, haside hmiddle _ hlc, haside hback _ hlc,
    hother hcommand hla hne, hother haddress hlc hne.symm]
  omega

end Plan

end Powerline
