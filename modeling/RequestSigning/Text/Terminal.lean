set_option autoImplicit false

namespace RequestSigning.Terminal

/-- Where a terminal stands in the text it is given: in what it shows, or in a sequence that it
obeys and does not show. -/
inductive Place where
  | text
  /-- After ESC. -/
  | escape
  | escapeIntermediate
  /-- In a control sequence, which its final character ends. -/
  | control
  /-- In a command to the system, which BEL ends. -/
  | command
  /-- In the head of a string to the device. -/
  | device
  | deviceParameter
  | deviceIntermediate
  /-- In a string that is not for the terminal. -/
  | string
  deriving Repr, DecidableEq

def isBetween (c low high : Char) : Bool :=
  low ≤ c && c ≤ high

/-- Tab, line feed, form feed and carriage return. -/
def isLayout (c : Char) : Bool :=
  c = '\t' || c = '\n' || c = '\x0c' || c = '\r'

/-- No control character of ASCII. -/
def isGraphic (c : Char) : Bool :=
  ' ' ≤ c && c ≠ '\x7f'

def isAscii (c : Char) : Bool :=
  c ≤ '\x7f'

/-- Ends a string where it stands as a byte inside a longer character, too. -/
def terminator : UInt8 := 0x9C

namespace Place

/-- Layout is obeyed inside a control sequence as well, and so it is shown. -/
def shows : Place → Char → Bool
  | text, c => isGraphic c || isLayout c
  | escape, c | escapeIntermediate, c | control, c => isLayout c
  | _, _ => false

/-- Where a character that is not shown leads. -/
def next (place : Place) (c : Char) : Place :=
  if c = '\x18' || c = '\x1a' then text
  else if c = '\x1b' then escape
  else match place with
  | text => text
  | escape =>
    if c = '[' then control
    else if c = ']' then command
    else if c = 'P' then device
    else if c = 'X' || c = '^' || c = '_' then string
    else if isBetween c ' ' '/' then escapeIntermediate
    else if isBetween c '0' '~' then text
    else escape
  | escapeIntermediate => if isBetween c '0' '~' then text else escapeIntermediate
  | control => if isBetween c '@' '~' then text else control
  | command => if c = '\x07' then text else command
  | device =>
    if isBetween c '@' '~' then string
    else if isBetween c '0' '?' then deviceParameter
    else if isBetween c ' ' '/' then deviceIntermediate
    else device
  | deviceParameter =>
    if isBetween c '@' '~' || isBetween c '<' '?' then string
    else if isBetween c ' ' '/' then deviceIntermediate
    else deviceParameter
  | deviceIntermediate => if isBetween c '0' '~' then string else deviceIntermediate
  | string => if (String.utf8EncodeChar c).contains terminator then text else string

end Place

/-- What is shown from a place on; `showing` is whether the character before was shown. Layout is
shown even inside a sequence, and so is what follows it: the sequence goes on at the next control
character, unless a character from beyond ASCII has ended it. -/
def shownFrom (place : Place) (showing : Bool) : List Char → List Char
  | [] => []
  | c :: rest =>
    if (if showing then .text else place).shows c then
      c :: shownFrom (if isAscii c then place else .text) true rest
    else shownFrom (place.next c) false rest

/-- What a terminal shows of a text. -/
def plain (text : String) : String :=
  String.ofList (shownFrom .text false text.toList)

end RequestSigning.Terminal
