import RequestSigning.Http.Header
set_option autoImplicit false

namespace RequestSigning.Signing

/-- The name of a signed line that holds the method, path and query. -/
def requestTargetName : String := "(request-target)"

/-- The header for the digest of the body. -/
def contentDigest : Http.HeaderName :=
  ⟨"x-content-sha256", by decide, by decide, by decide⟩

/-- The header by which a request asks for its body to be signed. -/
def bodyMarker : Http.HeaderName :=
  ⟨"x-nosql-hash-body", by decide, by decide, by decide⟩

/-- The header for the token of the one on whose behalf a request is made. -/
def delegationToken : Http.HeaderName :=
  ⟨"opc-obo-token", by decide, by decide, by decide⟩

def defaultGenericNames : List String :=
  ["date", requestTargetName, "host"]

def defaultDelegationNames : List String :=
  defaultGenericNames ++ [delegationToken.text]

def defaultBodyNames : List String :=
  ["content-length", "content-type", contentDigest.text]

/-- The names to sign: the body's follow the general ones where the body is signed. -/
def signedNames (generic body : List String) (withBody : Bool) : List String :=
  generic ++ if withBody then body else []

end RequestSigning.Signing
