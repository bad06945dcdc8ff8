import RequestSigning.Http.Uri.Fault
import RequestSigning.Text.Utf8
set_option autoImplicit false

namespace RequestSigning.Http

/-- Anything visible but `#`, `<`, `>`, `?` and the backquote, and all that is not ASCII. -/
def isPathChar (c : Char) : Bool :=
  let n := c.toNat
  (0x21 ≤ n && n ≤ 0x7E && n != 0x23 && n != 0x3C && n != 0x3E && n != 0x3F && n != 0x60) || 0x80 ≤ n

/-- Anything visible but the quotation mark, `#`, `<` and `>`, and all that is not ASCII. -/
def isQueryChar (c : Char) : Bool :=
  let n := c.toNat
  (0x21 ≤ n && n ≤ 0x7E && n != 0x22 && n != 0x23 && n != 0x3C && n != 0x3E) || 0x80 ≤ n

/-- A path, and a query where there is a question mark. The path is empty only before a query. -/
structure PathAndQuery where
  path : String
  query : Option String
  path_valid : path.toList.all isPathChar = true
  query_valid : ∀ text ∈ query, text.toList.all isQueryChar = true
  deriving DecidableEq

namespace PathAndQuery

def text (target : PathAndQuery) : String :=
  match target.query with
  | none => target.path
  | some query => target.path ++ "?" ++ query

def root : PathAndQuery := ⟨"/", none, by decide, by simp⟩

def asterisk : PathAndQuery := ⟨"*", none, by decide, by simp⟩

/-- A fragment is dropped unread. Nothing at all stands for the root. -/
def parse (bytes : Bytes) : Except UriFault PathAndQuery :=
  match Utf8.decode (bytes.takeWhile (· ≠ 35)) with
  | .error _ => .error .invalidCharacter
  | .ok [] => .ok root
  | .ok chars =>
    let path := String.ofList (chars.takeWhile (· ≠ '?'))
    let query := match chars.dropWhile (· ≠ '?') with
      | [] => none
      | _ :: query => some (String.ofList query)
    if h : path.toList.all isPathChar = true ∧ ∀ text ∈ query, text.toList.all isQueryChar = true then
      .ok ⟨path, query, h.1, h.2⟩
    else .error .invalidCharacter

end PathAndQuery

end RequestSigning.Http
