/-
The code nibbles of the power line: house letters A to P, unit numbers 1 to 16 and the sixteen
functions. Letters and unit numbers share one scrambled table; a function's code is its place in
the list.
-/
import Powerline.Fault

namespace Powerline

/-- The nibble of the letter or unit at a place of the alphabet, counted from zero. -/
def codeTable : List UInt8 :=
  [0x6, 0xE, 0x2, 0xA, 0x1, 0x9, 0x5, 0xD, 0x7, 0xF, 0x3, 0xB, 0x0, 0x8, 0x4, 0xC]

/-! ## House letters -/

/-- The letter that all modules of one house share. -/
inductive House where
  | A | B | C | D | E | F | G | H | I | J | K | L | M | N | O | P
  deriving DecidableEq, Repr

namespace House

def all : List House := [A, B, C, D, E, F, G, H, I, J, K, L, M, N, O, P]

/-- The nibble sent for a house. -/
def nibble : House → UInt8
  | A => 0x6 | B => 0xE | C => 0x2 | D => 0xA | E => 0x1 | F => 0x9 | G => 0x5 | H => 0xD
  | I => 0x7 | J => 0xF | K => 0x3 | L => 0xB | M => 0x0 | N => 0x8 | O => 0x4 | P => 0xC

def letter : House → Char
  | A => 'A' | B => 'B' | C => 'C' | D => 'D' | E => 'E' | F => 'F' | G => 'G' | H => 'H'
  | I => 'I' | J => 'J' | K => 'K' | L => 'L' | M => 'M' | N => 'N' | O => 'O' | P => 'P'

def name (h : House) : String := h.letter.toString

theorem all_map_nibble : all.map nibble = codeTable := by decide

theorem nibble_injective : ∀ h k : House, h.nibble = k.nibble → h = k := by
  intro h k; cases h <;> cases k <;> decide

end House

/-! ## Unit numbers -/

/-- The nibble sent for a unit number, 1 to 16. -/
def unitNibble (unit : UInt8) : Except Fault UInt8 :=
  if 1 ≤ unit ∧ unit ≤ 16 then .ok (codeTable.getD (unit.toNat - 1) 0)
  else .error (.invalidFrame ("unit " ++ toString unit.toNat ++ " not in 1-16"))

/-! ## Functions -/

/-- What the addressed modules are told to do. -/
inductive Function where
  | allUnitsOff | allLightsOn | on | off | dim | bright | allLightsOff | extendedCode
  | hailRequest | hailAck | presetDim1 | presetDim2 | extendedData | statusOn | statusOff
  | statusRequest
  deriving DecidableEq, Repr

namespace Function

def all : List Function :=
  [allUnitsOff, allLightsOn, on, off, dim, bright, allLightsOff, extendedCode, hailRequest,
    hailAck, presetDim1, presetDim2, extendedData, statusOn, statusOff, statusRequest]

/-- The nibble sent for a function. -/
def code : Function → UInt8
  | allUnitsOff => 0 | allLightsOn => 1 | on => 2 | off => 3 | dim => 4 | bright => 5
  | allLightsOff => 6 | extendedCode => 7 | hailRequest => 8 | hailAck => 9 | presetDim1 => 10
  | presetDim2 => 11 | extendedData => 12 | statusOn => 13 | statusOff => 14
  | statusRequest => 15

/-- Whether the header's dim level means anything. -/
def takesDim : Function → Bool
  | dim | bright => true
  | _ => false

def name : Function → String
  | allUnitsOff => "all_units_off" | allLightsOn => "all_lights_on" | on => "on" | off => "off"
  | dim => "dim" | bright => "bright" | allLightsOff => "all_lights_off"
  | extendedCode => "extended_code" | hailRequest => "hail_request" | hailAck => "hail_ack"
  | presetDim1 => "preset_dim1" | presetDim2 => "preset_dim2" | extendedData => "extended_data"
  | statusOn => "status_on" | statusOff => "status_off" | statusRequest => "status_request"

end Function

end Powerline
