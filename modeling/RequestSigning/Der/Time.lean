import RequestSigning.Calendar
import RequestSigning.Der.Value
set_option autoImplicit false

namespace RequestSigning.Der

/-- A moment, and which of the two types writes it. -/
inductive Time where
  | utc (moment : DateTime)
  | generalized (moment : DateTime)
  deriving Repr, DecidableEq

namespace Time

def moment : Time → DateTime
  | utc moment => moment
  | generalized moment => moment

/-- The value of a run of decimal digits. -/
def decimal? (bytes : Bytes) : Option Nat :=
  if bytes.all fun b => 48 ≤ b && b ≤ 57 then
    some (bytes.foldl (fun n b => n * 10 + (b.toNat - 48)) 0)
  else none

/-- Month to second in ten digits, and the letter Z. -/
def afterYear? (year : Nat) (bytes : Bytes) : Option DateTime := do
  guard (bytes.drop 10 = [90])
  let field := fun i => decimal? ((bytes.drop (2 * i)).take 2)
  let moment : DateTime := ⟨year, ← field 0, ← field 1, ← field 2, ← field 3, ← field 4⟩
  if moment.IsValid then some moment else none

/-- Two digits name a year from 1950 to 2049. -/
def utc? (content : Bytes) : Option Time := do
  let year ← decimal? (content.take 2)
  utc <$> afterYear? (if year < 50 then 2000 + year else 1900 + year) (content.drop 2)

def generalized? (content : Bytes) : Option Time := do
  let year ← decimal? (content.take 4)
  generalized <$> afterYear? year (content.drop 4)

def read : Reader Time := do
  let element ← Reader.any
  if element.tag = Tag.utcTime then utc? element.content
  else if element.tag = Tag.generalizedTime then generalized? element.content
  else failure

def digits (width n : Nat) : Bytes :=
  (DateTime.digits width n).map fun c => UInt8.ofNat c.toNat

def content (yearDigits : Nat) (t : DateTime) : Bytes :=
  digits yearDigits t.year ++ digits 2 t.month ++ digits 2 t.day ++ digits 2 t.hour ++
    digits 2 t.minute ++ digits 2 t.second ++ [90]

def encode : Time → Bytes
  | utc moment => Element.encode ⟨Tag.utcTime, content 2 moment⟩
  | generalized moment => Element.encode ⟨Tag.generalizedTime, content 4 moment⟩

end Time

end RequestSigning.Der
