/-
What a switch is set out to do and never changes: its two frames, its budget of retries, and how
it answers a request for the time. The frames of any accepted settings can be told apart from
each other and from everything else a switch sends.
-/
import Powerline.Switch
import Mathlib.Tactic

namespace Powerline

/-- The part of a switch that its reactions leave alone. -/
structure Plan where
  address : Frame
  command : Frame
  maxRetries : Nat
  setClock : Bool
  monitored : House

/-- The plan of a switch. -/
def Switch.plan (s : Switch) : Plan :=
  ⟨s.address, s.command, s.maxRetries, s.setClock, s.monitored⟩

namespace Plan

/-- Both frames are a header and a code; the function frame's header is neither that of an address
frame nor a byte that a switch sends by itself. -/
structure WellFormed (p : Plan) : Prop where
  address : ∃ code, p.address = [Frame.syncBit, code]
  command : ∃ header code, p.command = [header, code] ∧ header ≠ Frame.syncBit ∧
    header ≠ Frame.release ∧ header ≠ Frame.timeAnswer

namespace WellFormed

variable {p : Plan}

theorem length_address (h : p.WellFormed) : p.address.length = 2 := by
  obtain ⟨code, h⟩ := h.address
  rw [h]; rfl

theorem length_command (h : p.WellFormed) : p.command.length = 2 := by
  obtain ⟨header, code, h, -⟩ := h.command
  rw [h]; rfl

theorem address_ne_nil (h : p.WellFormed) : p.address ≠ [] := by
  obtain ⟨code, h⟩ := h.address
  rw [h]; exact List.cons_ne_nil _ _

theorem command_ne_nil (h : p.WellFormed) : p.command ≠ [] := by
  obtain ⟨header, code, h, -⟩ := h.command
  rw [h]; exact List.cons_ne_nil _ _

theorem address_ne_command (h : p.WellFormed) : p.address ≠ p.command := by
  obtain ⟨a, ha⟩ := h.address
  obtain ⟨header, code, hc, hsync, -⟩ := h.command
  rw [ha, hc]
  intro heq
  exact hsync (List.cons.inj heq).1.symm

/-- A frame of another length is neither of the two. -/
theorem foreign (h : p.WellFormed) (frame : Frame) (hlen : frame.length ≠ 2) :
    frame ≠ p.address ∧ frame ≠ p.command := by
  constructor
  · rintro rfl
    exact hlen h.length_address
  · rintro rfl
    exact hlen h.length_command

end WellFormed

end Plan

/-! ## Plans of settings -/

/-- The two bits of every function frame's header. -/
theorem Frame.functionHeader_bits (function : Function) (dim : UInt8) :
    Frame.functionHeader function dim &&& 0x06 = 0x06 := by
  unfold Frame.functionHeader
  generalize (if function.takesDim then dim else 0) <<< 3 = x
  generalize (if function = .extendedCode then Frame.extendedBit else 0) = y
  apply UInt8.toBitVec_inj.1
  ext i hi
  have : i < 8 := hi
  interval_cases i <;> simp [Frame.syncBit, Frame.functionBit]

/-- A fresh switch is that of the settings, with both frames encoded. -/
theorem Switch.eq_of_ofSettings {settings : SwitchSettings} {s : Switch}
    (h : Switch.ofSettings settings = .ok s) :
    ∃ address command, Frame.address settings.house settings.unit = .ok address ∧
      Frame.function settings.house settings.function settings.dim = .ok command ∧
      s = { address, command, maxRetries := settings.maxRetries.toNat,
            setClock := settings.setClock, monitored := settings.house } := by
  unfold Switch.ofSettings SwitchSettings.frames at h
  rcases ha : Frame.address settings.house settings.unit with fault | address <;> rw [ha] at h
  · cases h
  · rcases hc : Frame.function settings.house settings.function settings.dim with fault | command <;>
      rw [hc] at h <;> cases h
    exact ⟨address, command, rfl, rfl, rfl⟩

theorem Frame.eq_of_address {house : House} {unit : UInt8} {frame : Frame}
    (h : Frame.address house unit = .ok frame) : ∃ code, frame = [Frame.syncBit, code] := by
  unfold Frame.address at h
  rcases hn : unitNibble unit with fault | nibble <;> rw [hn] at h <;> cases h
  exact ⟨_, rfl⟩

theorem Frame.eq_of_function {house : House} {function : Function} {dim : UInt8} {frame : Frame}
    (h : Frame.function house function dim = .ok frame) :
    ∃ code, frame = [Frame.functionHeader function dim, code] := by
  unfold Frame.function at h
  split at h <;> cases h
  exact ⟨_, rfl⟩

theorem Switch.wellFormed_ofSettings {settings : SwitchSettings} {s : Switch}
    (h : Switch.ofSettings settings = .ok s) : s.plan.WellFormed := by
  obtain ⟨address, command, ha, hc, rfl⟩ := Switch.eq_of_ofSettings h
  obtain ⟨code, hcode⟩ := Frame.eq_of_function hc
  have hbits := Frame.functionHeader_bits settings.function settings.dim
  have hne : ∀ b : UInt8, b &&& 0x06 ≠ 0x06 →
      Frame.functionHeader settings.function settings.dim ≠ b := by
    intro b hb heq
    rw [heq] at hbits
    exact hb hbits
  exact ⟨Frame.eq_of_address ha, _, code, hcode, hne _ (by decide), hne _ (by decide),
    hne _ (by decide)⟩

end Powerline
