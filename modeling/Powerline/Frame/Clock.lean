/-
The frame that sets the interface's clock. The parity of the hour rides on the minutes, the
ninth bit of the day of the year on the weekday's byte.
-/
import Powerline.Frame.Basic
import Powerline.Calendar.Moment

namespace Powerline.Frame

/-- The clock frame of a moment: the answer to a time request, the second, the minute with sixty
added in an odd hour, half the hour, the day of the year, one bit for the weekday (Sunday lowest),
and the monitored house in the high nibble. -/
def clock (t : Moment) (monitored : House) : Frame :=
  [timeAnswer,
    -- a leap second is shown as second 59
    UInt8.ofNat (min t.second 59),
    UInt8.ofNat (t.minute + 60 * (t.hour % 2)),
    UInt8.ofNat (t.hour / 2),
    UInt8.ofNat (t.date.yearDay % 256),
    -- the day's ninth bit stands above the weekday
    UInt8.ofNat (t.date.yearDay / 256) <<< 7 ||| UInt8.ofNat (1 <<< t.date.weekday),
    monitored.nibble <<< 4]

theorem length_clock (t : Moment) (h : House) : (clock t h).length = 7 := rfl

example : clock ⟨⟨2024, 12, 31⟩, 23, 59, 58, 0⟩ .A = [0x9B, 58, 119, 11, 0x6D, 0x84, 0x60] := by
  decide

end Powerline.Frame
