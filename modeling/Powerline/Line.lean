/-
A serial line to the interface, read and written without blocking. Whatever does these four
things can carry a connection: a real port, a terminal, a script.
-/
import Powerline.Fault
import Powerline.Readiness

namespace Powerline

/-- A line of type `τ`. Reading gives one byte, or `none` where there was no byte to give; writing
tells how many bytes it took; the probe asks whether a write would be taken at once. A line that
cannot be probed says no, which leaves the write to the next wait. -/
class Line (τ : Type) where
  handle : τ → Handle
  readByte : τ → Except IoFault (Option UInt8) × τ
  write : List UInt8 → τ → Except IoFault Nat × τ
  probe : τ → Except IoFault Bool × τ := fun line => (.ok false, line)

end Powerline
