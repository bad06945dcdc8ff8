import Mathlib
import RequestSigning.Http.Request
set_option autoImplicit false

namespace RequestSigning.Http.Request

/-- The method, the address and the values of every header that is not `changed` are the same.
Nothing is said of the body. -/
structure SameBut (changed : List HeaderName) (before after : Request) : Prop where
  method : after.method = before.method
  uri : after.uri = before.uri
  values : ∀ name, name ∉ changed → after.headers.values name = before.headers.values name

namespace SameBut

variable {changed : List HeaderName} {before after : Request}

theorem get? (same : SameBut changed before after) {name : HeaderName} (outside : name ∉ changed) :
    after.headers.get? name = before.headers.get? name := by
  rw [Headers.get?, Headers.get?, same.values name outside]

theorem refl (changed : List HeaderName) (request : Request) : SameBut changed request request :=
  ⟨rfl, rfl, fun _ _ => rfl⟩

theorem trans {between : Request} (first : SameBut changed before between)
    (second : SameBut changed between after) : SameBut changed before after where
  method := second.method.trans first.method
  uri := second.uri.trans first.uri
  values name outside := (second.values name outside).trans (first.values name outside)

theorem insert {name : HeaderName} (inside : name ∈ changed) (value : HeaderValue)
    (request : Request) :
    SameBut changed request { request with headers := request.headers.insert name value } where
  method := rfl
  uri := rfl
  values other outside := by
    have : name ≠ other := fun same => outside (same ▸ inside)
    simp only [Headers.values_insert, this, ↓reduceIte]

end SameBut

end RequestSigning.Http.Request
