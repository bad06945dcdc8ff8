import RequestSigning.Signing.Names
set_option autoImplicit false

namespace RequestSigning.Signing

open Http

/-- Decides from the method and the headers whether the body is signed. -/
structure BodyPredicate where
  holds : Method → Headers → Bool

namespace BodyPredicate

/-- The first value of the marker header is exactly `true`. -/
def isMarked (headers : Headers) : Bool :=
  (headers.get? bodyMarker).any fun value => value.bytes == [116, 114, 117, 101]

/-- For requests that are marked, and for POST, PUT and PATCH. -/
def stateChanging : BodyPredicate where
  holds method headers := isMarked headers || [Method.post, .put, .patch].contains method

/-- Only for requests that are marked. -/
def explicitOnly : BodyPredicate where
  holds _ headers := isMarked headers

instance : Inhabited BodyPredicate := ⟨stateChanging⟩

end BodyPredicate

end RequestSigning.Signing
