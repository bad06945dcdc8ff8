set_option autoImplicit false

namespace RequestSigning

/-- Whole seconds since the beginning of 1970. -/
abbrev UnixTime := Nat

/-- A moment of the proleptic Gregorian calendar in universal time. -/
structure DateTime where
  year : Nat
  month : Nat
  day : Nat
  hour : Nat
  minute : Nat
  second : Nat
  deriving Repr, DecidableEq

namespace DateTime

def isLeap (year : Nat) : Bool :=
  year % 4 = 0 && (year % 100 ≠ 0 || year % 400 = 0)

def daysInYear (year : Nat) : Nat :=
  if isLeap year then 366 else 365

def daysInMonth (year month : Nat) : Nat :=
  if month = 2 then (if isLeap year then 29 else 28)
  else if month = 4 ∨ month = 6 ∨ month = 9 ∨ month = 11 then 30
  else 31

/-- A real moment from 1970 on; there are no leap seconds. -/
def IsValid (t : DateTime) : Prop :=
  1970 ≤ t.year ∧ t.year ≤ 9999 ∧ 1 ≤ t.month ∧ t.month ≤ 12 ∧
  1 ≤ t.day ∧ t.day ≤ daysInMonth t.year t.month ∧ t.hour ≤ 23 ∧ t.minute ≤ 59 ∧ t.second ≤ 59

instance (t : DateTime) : Decidable t.IsValid := by
  unfold IsValid; infer_instance

/-- Days from the beginning of year 1 to the beginning of the year. -/
def daysBeforeYear (year : Nat) : Nat :=
  365 * (year - 1) + (year - 1) / 4 - (year - 1) / 100 + (year - 1) / 400

def daysBeforeMonth (year month : Nat) : Nat :=
  (List.range (month - 1)).foldl (fun days m => days + daysInMonth year (m + 1)) 0

def toUnixTime (t : DateTime) : UnixTime :=
  let days :=
    daysBeforeYear t.year - daysBeforeYear 1970 + daysBeforeMonth t.year t.month + (t.day - 1)
  days * 86400 + t.hour * 3600 + t.minute * 60 + t.second

/-- The year of a day counted from the beginning of `year`, and the day's place in it. -/
def splitYear (year days : Nat) : Nat × Nat :=
  if days < daysInYear year then (year, days) else splitYear (year + 1) (days - daysInYear year)
termination_by days
decreasing_by
  have : 0 < daysInYear year := by unfold daysInYear; split <;> omega
  omega

/-- The month of a day of the year, and the day's place in it, both counted from zero. -/
def splitMonth (year day : Nat) : List Nat → Nat × Nat
  | [] => (11, day)
  | month :: later =>
    if day < daysInMonth year (month + 1) then (month, day)
    else splitMonth year (day - daysInMonth year (month + 1)) later

def ofUnixTime (t : UnixTime) : DateTime :=
  let (year, dayOfYear) := splitYear 1970 (t / 86400)
  let (month, day) := splitMonth year dayOfYear (List.range 12)
  ⟨year, month + 1, day + 1, t / 3600 % 24, t / 60 % 60, t % 60⟩

/-- The last `width` decimal digits, with leading zeros. -/
def digits : Nat → Nat → List Char
  | 0, _ => []
  | width + 1, n => digits width (n / 10) ++ [Char.ofNat (48 + n % 10)]

/-- All decimal digits, at least `width` of them. -/
def padded (width n : Nat) : String :=
  let text := toString n
  String.ofList (List.replicate (width - text.length) '0') ++ text

/-- RFC 3339 with a numeric offset. -/
def rfc3339 (t : DateTime) : String :=
  s!"{padded 4 t.year}-{padded 2 t.month}-{padded 2 t.day}T{padded 2 t.hour}:{padded 2 t.minute}:{padded 2 t.second}+00:00"

def weekdayName (t : UnixTime) : String :=
  ["Thu", "Fri", "Sat", "Sun", "Mon", "Tue", "Wed"].getD (t / 86400 % 7) ""

def monthName (month : Nat) : String :=
  ["Jan", "Feb", "Mar", "Apr", "May", "Jun", "Jul", "Aug", "Sep", "Oct", "Nov", "Dec"].getD
    (month - 1) ""

/-- The form of a time in an HTTP header. -/
def httpDate (now : UnixTime) : String :=
  let t := ofUnixTime now
  s!"{weekdayName now}, {padded 2 t.day} {monthName t.month} {padded 4 t.year} {padded 2 t.hour}:{padded 2 t.minute}:{padded 2 t.second} GMT"

end DateTime

end RequestSigning
