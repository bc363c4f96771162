/-
What a host loop waits for and what it finds: the handles to watch with an advisory bound on the
wait, and the handles found ready.
-/

namespace Powerline

/-- A device the host can watch for readiness. -/
abbrev Handle := Int32

/-- A span of time, or an instant of the clock that only goes forward, in nanoseconds. -/
abbrev Duration := Nat

namespace Duration

-- The literals stand on the left: multiplication recurs on its right factor, so a symbolic count
-- is stuck at once and never unrolls the literal.

def seconds (n : Nat) : Duration := 1000000000 * n

def millis (n : Nat) : Duration := 1000000 * n

end Duration

/-! ## What to wait for -/

/-- The handles to watch, in the order they were asked for, and a bound on the wait. -/
structure Interest where
  read : List Handle := []
  write : List Handle := []
  timeout : Option Duration := none
  deriving DecidableEq, Repr

namespace Interest

def addRead (h : Handle) (w : Interest) : Interest := { w with read := w.read ++ [h] }

def addWrite (h : Handle) (w : Interest) : Interest := { w with write := w.write ++ [h] }

def isEmpty (w : Interest) : Bool := w.read.isEmpty && w.write.isEmpty

/-- The shorter of the advisory bound and the host's own cap; none if neither is set. -/
def bound (cap : Option Duration) (w : Interest) : Option Duration :=
  match w.timeout, cap with
  | some a, some b => some (min a b)
  | some a, none => some a
  | none, b => b

end Interest

/-! ## What was found -/

/-- The handles found ready, each once, in the order they were marked. Two findings are equal only
if the order of marking is the same too. -/
structure Readiness where
  readable : List Handle := []
  writable : List Handle := []
  deriving DecidableEq, Repr

namespace Readiness

/-- Nothing ready: the wait ran out. -/
def none : Readiness := {}

def markReadable (h : Handle) (r : Readiness) : Readiness :=
  if r.readable.contains h then r else { r with readable := r.readable ++ [h] }

def markWritable (h : Handle) (r : Readiness) : Readiness :=
  if r.writable.contains h then r else { r with writable := r.writable ++ [h] }

/-- The finding with these handles marked, the readable ones first. -/
def of (readable writable : List Handle) : Readiness :=
  writable.foldl (fun r h => r.markWritable h) (readable.foldl (fun r h => r.markReadable h) none)

/-- Whether a handle can be read without blocking. -/
def isReadable (h : Handle) (r : Readiness) : Bool := r.readable.contains h

def isWritable (h : Handle) (r : Readiness) : Bool := r.writable.contains h

def isEmpty (r : Readiness) : Bool := r.readable.isEmpty && r.writable.isEmpty

/-! ## Marking -/

@[simp] theorem isReadable_markReadable (h k : Handle) (r : Readiness) :
    (r.markReadable k).isReadable h = (r.isReadable h || h == k) := by
  unfold markReadable isReadable; split <;> by_cases e : h = k <;> simp_all

@[simp] theorem isWritable_markReadable (h k : Handle) (r : Readiness) :
    (r.markReadable k).isWritable h = r.isWritable h := by
  unfold markReadable isWritable; split <;> rfl

@[simp] theorem isWritable_markWritable (h k : Handle) (r : Readiness) :
    (r.markWritable k).isWritable h = (r.isWritable h || h == k) := by
  unfold markWritable isWritable; split <;> by_cases e : h = k <;> simp_all

@[simp] theorem isReadable_markWritable (h k : Handle) (r : Readiness) :
    (r.markWritable k).isReadable h = r.isReadable h := by
  unfold markWritable isReadable; split <;> rfl

end Readiness

end Powerline
