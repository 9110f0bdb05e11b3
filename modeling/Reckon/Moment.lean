/-!
# Moments of the calendar

A moment is a second of a day of the calendar, in universal time. It
names the directory in which a report is saved, so its timestamp has only
digits and letters in it and sorts as the moments do.

A count of seconds since the start of 1970 is turned into a moment by
counting days from the first of March of the year 0: the leap day is then
the last day of a year, and the calendar repeats every 400 years.
-/

namespace Reckon

/-- **A moment of the calendar.** -/
structure Moment where
  year : Nat
  month : Nat
  day : Nat
  hour : Nat
  minute : Nat
  second : Nat
deriving Repr, DecidableEq

namespace Moment

/-- A number of at least two digits. -/
def twoDigits (n : Nat) : String :=
  if n < 10 then "0" ++ toString n else toString n

/-- **The moment as a timestamp.** -/
def stamp (m : Moment) : String :=
  toString m.year ++ twoDigits m.month ++ twoDigits m.day ++ "T" ++ twoDigits m.hour ++
    twoDigits m.minute ++ twoDigits m.second ++ "Z"

/-- The days from the first of March of the year 0 to the start of 1970. -/
def daysTo1970 : Nat := 719468

/-- The days of 400 years. -/
def daysOf400Years : Nat := 146097

/-- The year within 400 of a day within them, if years start in March. -/
def marchYear (day : Nat) : Nat :=
  (day - day / 1460 + day / 36524 - day / 146096) / 365

/-- **The moment so many seconds after the start of 1970.** -/
def ofSeconds (seconds : Nat) : Moment :=
  let days := seconds / 86400 + daysTo1970
  let day := days % daysOf400Years
  let year := marchYear day
  let dayOfYear := day - (365 * year + year / 4 - year / 100)
  let marchMonth := (5 * dayOfYear + 2) / 153
  { year := 400 * (days / daysOf400Years) + year + if marchMonth < 10 then 0 else 1
    month := if marchMonth < 10 then marchMonth + 3 else marchMonth - 9
    day := dayOfYear - (153 * marchMonth + 2) / 5 + 1
    hour := seconds % 86400 / 3600
    minute := seconds % 3600 / 60
    second := seconds % 60 }

/-- **The calendar repeats every 400 years**, down to the second. -/
theorem ofSeconds_add_400_years (seconds n : Nat) :
    ofSeconds (seconds + 86400 * (daysOf400Years * n))
      = { ofSeconds seconds with year := (ofSeconds seconds).year + 400 * n } := by
  have hdays : (seconds + 86400 * (daysOf400Years * n)) / 86400 + daysTo1970
      = seconds / 86400 + daysTo1970 + daysOf400Years * n := by
    rw [Nat.add_mul_div_left _ _ (by decide), Nat.add_right_comm]
  have hhour : (seconds + 86400 * (daysOf400Years * n)) % 86400 = seconds % 86400 :=
    Nat.add_mul_mod_self_left ..
  have hminute : (seconds + 86400 * (daysOf400Years * n)) % 3600 = seconds % 3600 := by omega
  have hsecond : (seconds + 86400 * (daysOf400Years * n)) % 60 = seconds % 60 := by omega
  simp only [ofSeconds, hdays, hhour, hminute, hsecond, Nat.add_mul_mod_self_left,
    Nat.add_mul_div_left _ _ (show 0 < daysOf400Years by decide), Moment.mk.injEq, and_true]
  omega

example : ofSeconds (951868799 + 86400 * daysOf400Years) = ⟨2400, 2, 29, 23, 59, 59⟩ := by decide

end Moment

end Reckon
