import Transponder.Text.Ascii

/-!
# Instants

Points in time as milliseconds since the start of 1970, readings of a clock to the nanosecond, and
the text of both: the date of the Gregorian calendar, carried on into both directions, and the time
of day in UTC. A count of days is turned into a date by way of years that start in March, so that the
leap day is the last one of its year.
-/

namespace Transponder

/-- A point in time. -/
structure Instant where
  milliseconds : Int
deriving DecidableEq

/-- A date of the Gregorian calendar. -/
structure Date where
  year : Int
  month : Nat
  day : Nat
deriving DecidableEq

namespace Date

/-- The days from the first of March of the year zero to the start of 1970. -/
def epochDays : Int :=
  719468

/-- The days in the 400 years after which the calendar repeats. -/
def eraDays : Int :=
  146097

/-- The date a number of days after the start of 1970. -/
def ofDays (days : Int) : Date :=
  let shifted := days + epochDays
  let dayOfEra := shifted % eraDays
  let yearOfEra :=
    (dayOfEra - dayOfEra / 1460 + dayOfEra / 36524 - dayOfEra / 146096) / 365
  let dayOfYear := dayOfEra - (365 * yearOfEra + yearOfEra / 4 - yearOfEra / 100)
  let monthFromMarch := (5 * dayOfYear + 2) / 153
  let month := if monthFromMarch < 10 then monthFromMarch + 3 else monthFromMarch - 9
  { year := yearOfEra + 400 * (shifted / eraDays) + if month ≤ 2 then 1 else 0
    month := month.toNat
    day := (dayOfYear - (153 * monthFromMarch + 2) / 5 + 1).toNat }

/-- The number of days from the start of 1970 to a date. -/
def toDays (d : Date) : Int :=
  let year := if d.month ≤ 2 then d.year - 1 else d.year
  let yearOfEra := year % 400
  let monthFromMarch : Int := (d.month + 9) % 12
  let dayOfYear : Int := (153 * monthFromMarch + 2) / 5 + d.day - 1
  eraDays * (year / 400) + (365 * yearOfEra + yearOfEra / 4 - yearOfEra / 100 + dayOfYear) -
    epochDays

example : ofDays 0 = ⟨1970, 1, 1⟩ ∧ ofDays 11016 = ⟨2000, 2, 29⟩ ∧ toDays ⟨2000, 2, 29⟩ = 11016 ∧
    ofDays (-719529) = ⟨-1, 12, 31⟩ := by
  decide +kernel

/-- A number in at least `width` digits. -/
def padded (width n : Nat) : List Char :=
  let ds := Nat.toDigits 10 n
  List.replicate (width - ds.length) '0' ++ ds

/-- A year in at least four digits, with a sign if it is negative or needs more. -/
def yearChars (year : Int) : List Char :=
  let sign := if year < 0 then ['-'] else if 9999 < year then ['+'] else []
  sign ++ padded 4 year.natAbs

def chars (d : Date) : List Char :=
  yearChars d.year ++ '-' :: padded 2 d.month ++ '-' :: padded 2 d.day

end Date

/-- A reading of a clock: a second since the start of 1970, and the nanoseconds since that second
began. A leap second is counted with the second before it, which is twice as long then. -/
structure Moment where
  second : Int
  nanosecond : Fin 2000000000
deriving DecidableEq

namespace Moment

def secondsPerDay : Int :=
  86400

def nanosecondsPerSecond : Nat :=
  1000000000

/-- The reading that many nanoseconds after the start of 1970, none of them in a leap second. -/
def ofNanoseconds (n : Int) : Moment where
  second := n / 1000000000
  nanosecond := ⟨(n % 1000000000).toNat, by omega⟩

def secondOfDay (t : Moment) : Int :=
  t.second % secondsPerDay

/-- Whether the reading is within a leap second. -/
def isLeap (t : Moment) : Bool :=
  nanosecondsPerSecond ≤ t.nanosecond

/-- The nanoseconds from an earlier reading to a later one; there are less than none if the other
one is later. Of all leap seconds only one that a reading is in counts: the later seconds of its day
are a second further away from it. -/
def since (t earlier : Moment) : Int :=
  let leap : Int :=
    if earlier.secondOfDay < t.secondOfDay ∧ earlier.isLeap then 1
    else if t.secondOfDay < earlier.secondOfDay ∧ t.isLeap then -1
    else 0
  nanosecondsPerSecond * (t.second - earlier.second + leap) + (t.nanosecond - earlier.nanosecond)

theorem isLeap_ofNanoseconds (n : Int) : (ofNanoseconds n).isLeap = false := by
  have hlt : (n % 1000000000).toNat < 1000000000 := by omega
  exact decide_eq_false (Nat.not_le.mpr hlt)

/-- Outside leap seconds it is the difference of the nanoseconds. -/
theorem since_ofNanoseconds (m n : Int) : (ofNanoseconds m).since (ofNanoseconds n) = m - n := by
  have hm := isLeap_ofNanoseconds m
  have hn := isLeap_ofNanoseconds n
  simp only [since, hm, hn, Bool.false_eq_true, and_false, if_false]
  simp only [ofNanoseconds, nanosecondsPerSecond]
  omega

-- The middle of a leap second at the end of a day, 23:00 on that day, and 01:00 on the next one.
example : let leap : Moment := ⟨1435708799, 1500000000⟩
    leap.since ⟨1435705200, 0⟩ = 3600500000000 ∧
      (Moment.mk 1435712400 0).since leap = 3599500000000 := by
  decide

/-- A part of a second, in as few groups of three digits as it takes. -/
def fractionChars (nanosecond : Nat) : List Char :=
  if nanosecond = 0 then []
  else if nanosecond % 1000000 = 0 then '.' :: Date.padded 3 (nanosecond / 1000000)
  else if nanosecond % 1000 = 0 then '.' :: Date.padded 6 (nanosecond / 1000)
  else '.' :: Date.padded 9 nanosecond

/-- The date and the time of day in UTC, a second later within a leap second. -/
def chars (t : Moment) : List Char :=
  let inDay := (t.second % secondsPerDay).toNat
  let leap := t.nanosecond / nanosecondsPerSecond
  (Date.ofDays (t.second / secondsPerDay)).chars ++
    'T' :: Date.padded 2 (inDay / 3600) ++
    ':' :: Date.padded 2 (inDay / 60 % 60) ++
    ':' :: Date.padded 2 (inDay % 60 + leap) ++
    fractionChars (t.nanosecond % nanosecondsPerSecond) ++ ['Z']

def render (t : Moment) : String :=
  String.ofList t.chars

end Moment

namespace Instant

def millisecondsPerDay : Int :=
  86400000

/-- The first instant that has a date here. -/
def first : Instant :=
  ⟨Date.toDays ⟨-262143, 1, 1⟩ * millisecondsPerDay⟩

/-- The last instant that has a date here. -/
def last : Instant :=
  ⟨(Date.toDays ⟨262142, 12, 31⟩ + 1) * millisecondsPerDay - 1⟩

/-- The instant of a count of milliseconds, if it has a date. -/
def ofMilliseconds? (n : Int) : Option Instant :=
  if first.milliseconds ≤ n ∧ n ≤ last.milliseconds then some ⟨n⟩ else none

/-- The instant of a count of seconds, if it has a date. -/
def ofSeconds? (n : Int) : Option Instant :=
  ofMilliseconds? (1000 * n)

/-- The reading of a clock at an instant. -/
def moment (t : Instant) : Moment where
  second := t.milliseconds / 1000
  nanosecond := ⟨(t.milliseconds % 1000).toNat * 1000000, by omega⟩

instance : Coe Instant Moment :=
  ⟨moment⟩

/-- The date and the time of day; milliseconds are written only if there are any. -/
def render (t : Instant) : String :=
  t.moment.render

end Instant

example : (Instant.mk 1671620143123).render = "2022-12-21T10:55:43.123Z" ∧
    (Moment.mk 1483228799 1500000000).render = "2016-12-31T23:59:60.500Z" := by
  decide +kernel

end Transponder
