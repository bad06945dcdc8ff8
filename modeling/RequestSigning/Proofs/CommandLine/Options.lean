import RequestSigning.CommandLine.Options
import RequestSigning.Proofs.Except
import RequestSigning.Proofs.Http.Header
import RequestSigning.Proofs.Http.Uri
import RequestSigning.Proofs.Signing.Verification
set_option autoImplicit false

namespace RequestSigning.CommandLine.Options

open Http Signing

theorem isText_of_headerValue {text : String} {value : HeaderValue}
    (read : headerValue text = .ok value) : value.IsText := by
  rw [headerValue] at read
  split at read
  · rename_i valid
    cases read
    exact HeaderValue.isText_of_ofText? valid
  · cases read

theorem isText_of_header {text : String} {entry : HeaderName × HeaderValue}
    (read : header text = .ok entry) : entry.2.IsText := by
  rw [header] at read
  split at read
  · split at read
    · obtain ⟨value, valueRead, pair⟩ := Except.bind_eq_ok read
      cases pair
      exact isText_of_headerValue valueRead
    · cases read
  · cases read

theorem areTexts_of_foldlM {texts : List String} {before after : Headers}
    (all : before.AreTexts)
    (read : texts.foldlM (fun headers text => do
      let (name, value) ← header text
      return headers.append name value) before = .ok after) : after.AreTexts := by
  induction texts generalizing before with
  | nil =>
    cases read
    exact all
  | cons text texts ih =>
    rw [List.foldlM_cons] at read
    obtain ⟨next, step, read⟩ := Except.bind_eq_ok read
    obtain ⟨⟨name, value⟩, headerRead, appended⟩ := Except.bind_eq_ok step
    cases appended
    exact ih (all.append (isText_of_header headerRead) name) read

section request

variable {options : Options} {now : UnixTime} {request : Request}
variable {headers : Headers} {finish : Headers → Except Failure Request}

theorem areTexts_of_delegated {token : Option String} (texts : headers.AreTexts)
    (built : (match token with
      | some token => do
        let value ← headerValue token
        let headers ← pure (headers.insert Signing.delegationToken value)
        finish headers
      | none => do
        let headers ← pure headers
        finish headers) = .ok request) :
    ∃ delegated : Headers, delegated.AreTexts ∧ finish delegated = .ok request := by
  cases token with
  | none => exact ⟨headers, texts, built⟩
  | some token =>
    obtain ⟨value, valueRead, built⟩ := Except.bind_eq_ok built
    exact ⟨_, texts.insert (isText_of_headerValue valueRead) _, built⟩

theorem areTexts_of_dated (texts : headers.AreTexts)
    (built : (if headers.contains .date = true then do
        let headers ← pure headers
        finish headers
      else do
        let value ← headerValue (DateTime.httpDate now)
        let headers ← pure (headers.insert .date value)
        finish headers) = .ok request) :
    ∃ dated : Headers, dated.AreTexts ∧ finish dated = .ok request := by
  split at built
  · exact ⟨headers, texts, built⟩
  · obtain ⟨value, valueRead, built⟩ := Except.bind_eq_ok built
    exact ⟨_, texts.insert (isText_of_headerValue valueRead) _, built⟩

/-- The address is one that was read, and each header can be told as text. -/
theorem request_eq_ok (built : options.request now = .ok request) :
    request.uri.IsRead ∧ request.headers.AreTexts := by
  rw [Options.request] at built
  split at built
  · obtain ⟨uri, uriRead, built⟩ := Except.bind_eq_ok built
    obtain ⟨given, givenRead, built⟩ := Except.bind_eq_ok built
    have texts := areTexts_of_foldlM .empty givenRead
    obtain ⟨delegated, texts, built⟩ := areTexts_of_delegated texts built
    obtain ⟨dated, texts, built⟩ := areTexts_of_dated texts built
    cases built
    exact ⟨Uri.isRead_of_parse (Except.mapError_eq_ok uriRead), texts⟩
  · cases built

end request

/-- What a command signs with is sound. -/
theorem config_isSound (options : Options) : options.config.IsSound := by
  rw [config]
  cases options.profile with
  | default =>
    split
    · exact Signing.Config.IsSound.default.withoutBody
    · exact .default
  | delegation =>
    split
    · exact Signing.Config.IsSound.delegation.withoutBody
    · exact .delegation

end RequestSigning.CommandLine.Options
