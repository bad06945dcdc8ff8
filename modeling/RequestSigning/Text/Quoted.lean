import RequestSigning.Text.Invisible
set_option autoImplicit false

namespace RequestSigning.Quoted

/-- How a character stands between quotation marks. -/
def escape (c : Char) : List Char :=
  if c = Char.ofNat 0 then ['\\', '0']
  else if c = '\t' then ['\\', 't']
  else if c = '\r' then ['\\', 'r']
  else if c = '\n' then ['\\', 'n']
  else if c = '"' ∨ c = '\\' then ['\\', c]
  else if Invisible.isInvisible c then "\\u\x7b".toList ++ Nat.toDigits 16 c.toNat ++ ['\x7d']
  else [c]

/-- A text in quotation marks, so that all of it can be seen. -/
def quote (text : String) : String :=
  String.ofList ('"' :: text.toList.flatMap escape ++ ['"'])

/-- A character in apostrophes. Inside them an apostrophe is escaped, and a quotation mark is not. -/
def quoteChar (c : Char) : String :=
  let inner :=
    if c = Char.ofNat 39 then ['\\', c]
    else if c = '"' then [c]
    else escape c
  "'" ++ String.ofList inner ++ "'"

/-- Texts in brackets. -/
def quoteList (texts : List String) : String :=
  "[" ++ ", ".intercalate (texts.map quote) ++ "]"

end RequestSigning.Quoted
