import RequestSigning.Digest.Sha256
import RequestSigning.Error
import RequestSigning.Http.Request
import RequestSigning.Signing.Names
import RequestSigning.Text.Base64
set_option autoImplicit false

namespace RequestSigning

theorem Base64.isHeaderValueByte_symbol (n : UInt8) :
    Http.isHeaderValueByte (Base64.symbol n) = true := by
  have all : ∀ i : Fin 256, Http.isHeaderValueByte (Base64.symbol (UInt8.ofNat i)) = true := by
    decide +kernel
  simpa using all ⟨n.toNat, n.toNat_lt⟩

/-- Base64 is a header value. -/
theorem Base64.all_isHeaderValueByte_encode (bytes : Bytes) :
    (Base64.encode bytes).all Http.isHeaderValueByte = true := by
  have padding : Http.isHeaderValueByte Base64.padding = true := by decide
  fun_induction Base64.encode bytes with
  | case1 a b c rest ih => simp only [List.all_cons, Base64.isHeaderValueByte_symbol, ih, Bool.and_self]
  | case2 a b => simp only [List.all_cons, Base64.isHeaderValueByte_symbol, padding, List.all_nil, Bool.and_self]
  | case3 a => simp only [List.all_cons, Base64.isHeaderValueByte_symbol, padding, List.all_nil, Bool.and_self]
  | case4 => rfl

namespace Signing

open Http

/-- Base64 of the digest of the bytes. -/
def digestText (bytes : Bytes) : HeaderValue :=
  ⟨Base64.encode (Sha256.digest bytes), Base64.all_isHeaderValueByte_encode _⟩

/-- Reads the body, notes its length and puts it back in one piece. A body that can not be
read is lost, and the headers stay as they are. -/
def computeBodyDigest (request : Request) : Except Error HeaderValue × Request :=
  match request.body.collect with
  | .error text => (.error (.bodyRead text), { request with body := [] })
  | .ok bytes =>
    (.ok (digestText bytes),
      { request with
        headers := request.headers.insert .contentLength (.ofNat bytes.length)
        body := Body.ofBytes bytes })

/-- Also puts the digest into its header. -/
def installBodyDigest (request : Request) : Except Error Unit × Request :=
  match computeBodyDigest request with
  | (.error error, request) => (.error error, request)
  | (.ok digest, request) =>
    (.ok (), { request with headers := request.headers.insert contentDigest digest })

end Signing

end RequestSigning
