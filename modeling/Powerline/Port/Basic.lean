/-
Serial ports as a listing shows them: which are found, how each is described, and the order they
come in. Modems and adapters on the USB come first, then the ports on the board, then all else;
numbered ports stand in the order of their numbers.
-/
import Powerline.Text.Blank
import Powerline.Text.Hex

namespace Powerline

inductive Attachment where
  | usb (vendor product : UInt16) (title : Option String)
  | pci
  | bluetooth
  | unknown
  deriving DecidableEq, Repr

/-- A serial port. Vendor, product and title are known of USB devices only. -/
structure Port where
  name : String
  vendor : Option UInt16 := none
  product : Option UInt16 := none
  title : Option String := none
  deriving DecidableEq, Repr

namespace Port

def attached (name : String) : Attachment → Port
  | .usb vendor product title => { name, vendor := some vendor, product := some product, title }
  | .pci | .bluetooth | .unknown => { name }

/-- One line that describes a port: its name, and of a USB device the two identifiers and the
title. -/
def describe (p : Port) : String :=
  match p.vendor, p.product with
  | some vendor, some product =>
    Text.trimEnd (p.name ++ " [" ++ Text.hexWord vendor ++ ":" ++ Text.hexWord product ++ "] " ++
      p.title.getD "")
  | _, _ => p.name

/-! ## Order -/

/-- The last part of a path. -/
def baseName (name : String) : List Char :=
  (name.toList.reverse.takeWhile (· ≠ '/')).reverse

/-- The number that a text is, below 2^64 and perhaps with a plus sign in front. -/
def number? (text : List Char) : Option Nat :=
  let digits := match text with
    | '+' :: rest => rest
    | rest => rest
  if digits ≠ [] ∧ digits.all Char.isDigit then
    some (Nat.ofDigitChars 10 digits 0) |>.filter (· < 1 <<< 64)
  else none

def numberAfter? (stem : String) (base : List Char) : Option Nat :=
  if stem.toList.isPrefixOf base then number? (base.drop stem.toList.length) else none

/-- The stems of numbered ports, in the order of their ranks. -/
def stems : List String := ["ttyACM", "ttyUSB", "ttyS"]

/-- What ports are ordered by: the rank of the stem, the number behind it, the last part of the
name. -/
structure Key where
  rank : Nat
  number : Nat
  base : String
  deriving DecidableEq, Repr

/-- The first of the stems from a rank on that the name has, with a number behind it. A name without
one comes after all that have one. -/
def rankFrom (base : List Char) : Nat → List String → Nat × Nat
  | rank, [] => (rank, 0)
  | rank, stem :: rest =>
    match numberAfter? stem base with
    | some n => (rank, n)
    | none => rankFrom base (rank + 1) rest

def key (name : String) : Key :=
  let base := baseName name
  let (rank, number) := rankFrom base 0 stems
  { rank, number, base := String.ofList base }

/-- Whether a key comes before another or is the same. -/
def Key.le (a b : Key) : Bool :=
  -- texts compare by code points, which is also the order of their UTF-8 bytes
  a.rank < b.rank || a.rank == b.rank &&
    (a.number < b.number || a.number == b.number && decide (a.base ≤ b.base))

/-- Names in the order of their keys; equal keys keep the order they had. -/
def sortNames (names : List String) : List String :=
  names.mergeSort fun a b => (key a).le (key b)

/-! ## Listing -/

/-- Whether a file of the device folder is a port of a USB device. -/
def isUsbName (name : String) : Bool :=
  ["ttyUSB", "ttyACM"].any fun stem => stem.toList.isPrefixOf name.toList

/-- The ports among the files of the device folder, each once, in order. -/
def listing (names : List String) : List Port :=
  (((names.filter isUsbName).map ("/dev/" ++ ·)).eraseDups.mergeSort
    fun a b => (key a).le (key b)).map fun name => { name }

example : key "/dev/ttyS10" = ⟨2, 10, "ttyS10"⟩ := by decide
example : key "ttyUSB+07" = ⟨1, 7, "ttyUSB+07"⟩ := by decide
example : key "/dev/ttyACM" = ⟨3, 0, "ttyACM"⟩ := by decide

end Port

end Powerline
