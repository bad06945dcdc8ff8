import RequestSigning.Http.Request
set_option autoImplicit false

namespace RequestSigning.Http.Body

/-- A body is read to its end where no frame fails, and else to the first one that does. -/
theorem collect_eq (body : Body) :
    body.collect =
      match body.failures with
      | [] => .ok body.bytes
      | text :: _ => .error text := by
  induction body with
  | nil => rfl
  | cons frame rest ih =>
    cases frame with
    | data bytes =>
      have kept : failures (.data bytes :: rest) = failures rest := rfl
      rw [collect, ih, kept]
      cases failures rest <;> rfl
    | pending => exact ih
    | trailers => exact ih
    | failure text => rfl

theorem collect_of_failures_eq_nil {body : Body} (readable : body.failures = []) :
    body.collect = .ok body.bytes := by
  rw [collect_eq, readable]

theorem collect_of_failures_eq_cons {body : Body} {text : String} {later : List String}
    (fails : body.failures = text :: later) : body.collect = .error text := by
  rw [collect_eq, fails]

theorem collect_eq_ok_iff {body : Body} {bytes : Bytes} :
    body.collect = .ok bytes ↔ body.failures = [] ∧ body.bytes = bytes := by
  rw [collect_eq]
  cases body.failures with
  | nil => simp
  | cons text later => simp

theorem collect_ofBytes (bytes : Bytes) : (ofBytes bytes).collect = .ok bytes := by
  simp [ofBytes, collect, Except.map]

end RequestSigning.Http.Body
