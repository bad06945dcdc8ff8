set_option autoImplicit false

namespace RequestSigning.Http

inductive UriFault where
  | tooLong
  | empty
  | schemeTooLong
  | invalidCharacter
  | invalidAuthority
  | invalidFormat
  deriving Repr, DecidableEq

def UriFault.message : UriFault → String
  | .tooLong => "uri too long"
  | .empty => "empty string"
  | .schemeTooLong => "scheme too long"
  | .invalidCharacter => "invalid uri character"
  | .invalidAuthority => "invalid authority"
  | .invalidFormat => "invalid format"

end RequestSigning.Http
