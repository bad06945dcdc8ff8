import RequestSigning.Text.Hex
set_option autoImplicit false

namespace RequestSigning.JsonText

/-- How a character stands in a JSON string. -/
def escape (c : Char) : List Char :=
  if c = '"' ∨ c = '\\' then ['\\', c]
  else if c = '\n' then ['\\', 'n']
  else if c = '\r' then ['\\', 'r']
  else if c = '\t' then ['\\', 't']
  else if c.toNat = 8 then ['\\', 'b']
  else if c.toNat = 12 then ['\\', 'f']
  else if c.toNat < 32 then
    ['\\', 'u', '0', '0', Hex.digit (c.toNat / 16), Hex.digit (c.toNat % 16)]
  else [c]

def quote (text : String) : String :=
  String.ofList ('"' :: text.toList.flatMap escape ++ ['"'])

/-- The members of an object, a line each, two columns further in than the braces. -/
def object (column : Nat) (members : List (String × String)) : String :=
  let indent := String.ofList (List.replicate column ' ')
  "\x7b\n" ++ ",\n".intercalate (members.map fun (name, value) =>
    indent ++ "  " ++ quote name ++ ": " ++ value) ++ "\n" ++ indent ++ "\x7d"

end RequestSigning.JsonText
