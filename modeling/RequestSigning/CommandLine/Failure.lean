import RequestSigning.Error
set_option autoImplicit false

namespace RequestSigning.CommandLine

/-- Why a file cannot be read, in the words and by the number of the system. -/
structure FileFault where
  text : String
  number : Nat
  deriving Repr, DecidableEq

namespace FileFault

def message (fault : FileFault) : String :=
  s!"{fault.text} (os error {fault.number})"

def notFound : FileFault := ⟨"No such file or directory", 2⟩
def notPermitted : FileFault := ⟨"Permission denied", 13⟩
def notDirectory : FileFault := ⟨"Not a directory", 20⟩
def isDirectory : FileFault := ⟨"Is a directory", 21⟩
def nameTooLong : FileFault := ⟨"File name too long", 36⟩

end FileFault

/-- Why a run has failed: what it was at, and what went wrong, each followed by its own cause. -/
structure Failure where
  message : String
  causes : List String
  deriving Repr, DecidableEq

namespace Failure

/-- The failure of an activity by an error. -/
def during (activity : String) (error : Error) : Failure :=
  ⟨activity, error.message :: error.source?.toList⟩

/-- The lines of a cause stand under each other. -/
def indent (mark space cause : String) : String :=
  mark ++ ("\n" ++ space).intercalate (cause.splitOn "\n")

/-- A cause's number stands at the right of five columns. -/
def numbered (index : Nat) (cause : String) : String :=
  let number := toString index
  indent (String.ofList (List.replicate (5 - number.length) ' ') ++ number ++ ": ") "       " cause

/-- Several causes are numbered. -/
def causeLines : List String → List String
  | [] => []
  | [cause] => ["", "Caused by:", indent "    " "    " cause]
  | causes => "" :: "Caused by:" :: causes.mapIdx numbered

def text (failure : Failure) : String :=
  "\n".intercalate (("Error: " ++ failure.message) :: causeLines failure.causes)

end Failure

end RequestSigning.CommandLine
