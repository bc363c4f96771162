/-
Arithmetic in words of so many bits, in which a calculation has no result if that does not fit, and
with it the frames: those of every unit and dim level, accepted or refused, and the clock frame of
every valid moment come out as they do in arithmetic without bounds.
-/
import Powerline.Proofs.Calendar
import Powerline.Frame.Clock
import Powerline.Settings

namespace Powerline

/-! ## Words -/

namespace Checked

variable {α : Type} {bits a b : Nat}

/-- A number of so many bits. -/
def word? (bits n : Nat) : Option Nat := if n < 2 ^ bits then some n else none

def add? (bits a b : Nat) : Option Nat := word? bits (a + b)

def multiply? (bits a b : Nat) : Option Nat := word? bits (a * b)

/-- A difference that is not negative. -/
def subtract? (a b : Nat) : Option Nat := if b ≤ a then some (a - b) else none

/-- A word moved up by less than its width, without the loss of a bit. -/
def shiftLeft? (bits a places : Nat) : Option Nat :=
  if places < bits then word? bits (a <<< places) else none

/-- A word moved down by less than its width. -/
def shiftRight? (bits a places : Nat) : Option Nat :=
  if places < bits then some (a >>> places) else none

/-- What comes from a place of a list on, if the list reaches to that place. -/
def from? (place : Nat) (l : List α) : Option (List α) :=
  if place ≤ l.length then some (l.drop place) else none

theorem word?_of_lt (h : a < 2 ^ bits) : word? bits a = some a := if_pos h

theorem add?_of_lt (h : a + b < 2 ^ bits) : add? bits a b = some (a + b) := if_pos h

theorem multiply?_of_lt (h : a * b < 2 ^ bits) : multiply? bits a b = some (a * b) := if_pos h

theorem subtract?_of_le (h : b ≤ a) : subtract? a b = some (a - b) := if_pos h

theorem shiftLeft?_of_lt (hb : b < bits) (h : a <<< b < 2 ^ bits) :
    shiftLeft? bits a b = some (a <<< b) := by
  rw [shiftLeft?, if_pos hb, word?_of_lt h]

theorem shiftRight?_of_lt (h : b < bits) : shiftRight? bits a b = some (a >>> b) := if_pos h

theorem from?_of_le {place : Nat} {l : List α} (h : place ≤ l.length) :
    from? place l = some (l.drop place) := if_pos h

end Checked

open Checked

/-! ## Codes -/

/-- The nibble of a house, from its letter's place in the table. -/
def House.nibble? (h : House) : Option UInt8 := codeTable[House.all.idxOf h]?

/-- The nibble of a unit number, from its place in the table. -/
def unitNibble? (unit : UInt8) : Option (Except Fault UInt8) :=
  if 1 ≤ unit ∧ unit ≤ 16 then do
    let place ← subtract? unit.toNat 1
    let nibble ← codeTable[place]?
    return .ok nibble
  else some (.error (.invalidFrame ("unit " ++ toString unit.toNat ++ " not in 1-16")))

/-- The table lists the nibbles of the houses in their order. -/
theorem House.nibble?_eq (h : House) : h.nibble? = some h.nibble := by
  have hmem : h ∈ House.all := by
    cases h <;> decide
  rw [House.nibble?, ← House.all_map_nibble, List.getElem?_map, List.getElem?_idxOf hmem]
  rfl

theorem House.nibble_lt (h : House) : h.nibble.toNat < 16 := by
  cases h <;> decide

theorem unitNibble?_eq (unit : UInt8) : unitNibble? unit = some (unitNibble unit) := by
  unfold unitNibble? unitNibble
  split
  · rename_i hunit
    obtain ⟨hpos, hle⟩ := hunit
    have hfirst : 1 ≤ unit.toNat := UInt8.le_iff_toNat_le.1 hpos
    have hlast : unit.toNat ≤ 16 := UInt8.le_iff_toNat_le.1 hle
    have hplace : unit.toNat - 1 < codeTable.length := by
      show unit.toNat - 1 < 16
      omega
    rw [subtract?_of_le hfirst]
    simp [hplace]
  · rfl

namespace Frame

/-! ## The two frames -/

/-- A high and a low nibble as one byte. -/
def pack? (high low : UInt8) : Option UInt8 := do
  let high ← shiftLeft? 8 high.toNat 4
  return UInt8.ofNat high ||| low

def address? (house : House) (unit : UInt8) : Option (Except Fault Frame) := do
  match ← unitNibble? unit with
  | .error fault => return .error fault
  | .ok nibble =>
    let code ← pack? (← house.nibble?) nibble
    return .ok [syncBit, code]

def function? (house : House) (function : Function) (dim : UInt8) : Option (Except Fault Frame) :=
  if dim > maxDim then
    some (.error (.invalidFrame
      ("dim " ++ toString dim.toNat ++ " exceeds " ++ toString maxDim.toNat)))
  else do
    let level ← shiftLeft? 8 (if function.takesDim then dim else 0).toNat 3
    let code ← pack? (← house.nibble?) function.code
    return .ok [UInt8.ofNat level ||| syncBit ||| functionBit |||
      (if function = .extendedCode then extendedBit else 0), code]

theorem ofNat_shiftLeft (b : UInt8) (places : Nat) (h : places < 8) :
    UInt8.ofNat (b.toNat <<< places) = b <<< UInt8.ofNat places := by
  apply UInt8.toNat_inj.1
  have hplaces : (UInt8.ofNat places).toNat % 8 = places := by
    rw [UInt8.toNat_ofNat']
    omega
  rw [UInt8.toNat_ofNat', UInt8.toNat_shiftLeft, hplaces]

theorem pack?_eq {high : UInt8} (low : UInt8) (h : high.toNat < 16) :
    pack? high low = some (pack high low) := by
  have hfits : high.toNat <<< 4 < 2 ^ 8 := by
    rw [Nat.shiftLeft_eq]
    omega
  unfold pack?
  rw [shiftLeft?_of_lt (by decide) hfits]
  show some (UInt8.ofNat (high.toNat <<< 4) ||| low) = _
  rw [ofNat_shiftLeft high 4 (by decide)]
  rfl

theorem address?_eq (house : House) (unit : UInt8) :
    address? house unit = some (address house unit) := by
  unfold address? address
  rw [unitNibble?_eq, house.nibble?_eq]
  rcases unitNibble unit with fault | nibble
  · rfl
  · simp only [Option.bind_eq_bind, Option.bind_some, pack?_eq nibble house.nibble_lt]
    rfl

/-- The highest dim level leaves the header's other bits free. -/
theorem function?_eq (house : House) (function : Function) (dim : UInt8) :
    function? house function dim = some (Frame.function house function dim) := by
  unfold function? Frame.function
  split
  · rfl
  · rename_i hdim
    have hlevel : (if function.takesDim then dim else 0).toNat <<< 3 < 2 ^ 8 := by
      have hmax : dim.toNat ≤ 22 := UInt8.le_iff_toNat_le.1 (UInt8.not_lt.1 hdim)
      rw [Nat.shiftLeft_eq]
      split
      · omega
      · decide
    rw [shiftLeft?_of_lt (by decide) hlevel, house.nibble?_eq]
    simp only [Option.bind_eq_bind, Option.bind_some, pack?_eq function.code house.nibble_lt]
    rw [ofNat_shiftLeft _ 3 (by decide)]
    rfl

end Frame

/-- Both frames; the address frame is made first, and a bad unit is the end of it. -/
def SwitchSettings.frames? (s : SwitchSettings) : Option (Except Fault (Frame × Frame)) := do
  match ← Frame.address? s.house s.unit with
  | .error fault => return .error fault
  | .ok address =>
    match ← Frame.function? s.house s.function s.dim with
    | .error fault => return .error fault
    | .ok command => return .ok (address, command)

theorem SwitchSettings.frames?_eq (s : SwitchSettings) : s.frames? = some s.frames := by
  unfold SwitchSettings.frames? SwitchSettings.frames
  rw [Frame.address?_eq, Frame.function?_eq]
  rcases Frame.address s.house s.unit with fault | address
  · rfl
  · rcases Frame.function s.house s.function s.dim with fault | command
    · rfl
    · rfl

/-! ## The clock frame -/

namespace Frame

/-- The clock frame, each of its numbers narrowed to a byte only if it fits there. -/
def clock? (t : Moment) (monitored : House) : Option Frame := do
  let yearDay ← word? 16 t.date.yearDay
  let weekday ← word? 8 t.date.weekday
  let second ← word? 8 (min t.second 59)
  let minute ← word? 8 (← add? 32 t.minute (← multiply? 32 60 (t.hour % 2)))
  let hour ← word? 8 (t.hour / 2)
  let low ← word? 8 (yearDay % 256)
  let high ← shiftLeft? 8 (← word? 8 (← shiftRight? 16 yearDay 8)) 7
  let bit ← shiftLeft? 8 1 weekday
  let house ← shiftLeft? 8 (← monitored.nibble?).toNat 4
  return [timeAnswer, UInt8.ofNat second, UInt8.ofNat minute, UInt8.ofNat hour, UInt8.ofNat low,
    UInt8.ofNat high ||| UInt8.ofNat bit, UInt8.ofNat house]

/-- No number of a valid moment is too large for its byte, and no bit is moved out of it. -/
theorem clock?_eq {t : Moment} (valid : t.Valid) (monitored : House) :
    clock? t monitored = some (clock t monitored) := by
  obtain ⟨hdate, hhour, hminute, hsecond, -⟩ := valid
  have hday := Date.yearDay_le hdate
  have hweekday := t.date.weekday_lt
  have hnibble := monitored.nibble_lt
  have yearDay : word? 16 t.date.yearDay = some _ := word?_of_lt (by omega)
  have weekday : word? 8 t.date.weekday = some _ := word?_of_lt (by omega)
  have second : word? 8 (min t.second 59) = some _ := word?_of_lt (by omega)
  have odd : multiply? 32 60 (t.hour % 2) = some _ := multiply?_of_lt (by omega)
  have sum : add? 32 t.minute (60 * (t.hour % 2)) = some _ := add?_of_lt (by omega)
  have minute : word? 8 (t.minute + 60 * (t.hour % 2)) = some _ := word?_of_lt (by omega)
  have hour : word? 8 (t.hour / 2) = some _ := word?_of_lt (by omega)
  have low : word? 8 (t.date.yearDay % 256) = some _ := word?_of_lt (by omega)
  have above : shiftRight? 16 t.date.yearDay 8 = some (t.date.yearDay / 256) := by
    rw [shiftRight?_of_lt (by decide), Nat.shiftRight_eq_div_pow]
  have ninth : word? 8 (t.date.yearDay / 256) = some _ := word?_of_lt (by omega)
  have high : shiftLeft? 8 (t.date.yearDay / 256) 7 = some ((t.date.yearDay / 256) <<< 7) := by
    apply shiftLeft?_of_lt (by decide)
    rw [Nat.shiftLeft_eq]
    omega
  have bit : shiftLeft? 8 1 t.date.weekday = some (1 <<< t.date.weekday) := by
    apply shiftLeft?_of_lt (by omega)
    exact (by decide : ∀ weekday < 7, 1 <<< weekday < 2 ^ 8) _ hweekday
  have house : shiftLeft? 8 monitored.nibble.toNat 4 = some (monitored.nibble.toNat <<< 4) := by
    apply shiftLeft?_of_lt (by decide)
    rw [Nat.shiftLeft_eq]
    omega
  have hninth : (UInt8.ofNat (t.date.yearDay / 256)).toNat = t.date.yearDay / 256 := by
    rw [UInt8.toNat_ofNat']
    omega
  have hbyte := ofNat_shiftLeft (UInt8.ofNat (t.date.yearDay / 256)) 7 (by decide)
  rw [hninth] at hbyte
  simp only [clock?, yearDay, weekday, second, odd, sum, minute, hour, low, above, ninth, high, bit,
    monitored.nibble?_eq, house, Option.bind_eq_bind, Option.bind_some]
  rw [hbyte, ofNat_shiftLeft monitored.nibble 4 (by decide)]
  rfl

end Frame

end Powerline
