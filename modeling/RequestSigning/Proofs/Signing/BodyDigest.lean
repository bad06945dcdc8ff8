import RequestSigning.Proofs.Http.Body
import RequestSigning.Proofs.Signing.Signer
set_option autoImplicit false

namespace RequestSigning.Signing

open Http

/-- The body is the bytes in one piece, and the length header has their number alone. -/
structure Carries (bytes : Bytes) (request : Request) : Prop where
  body : request.body = .ofBytes bytes
  length : (request.headers.values .contentLength).map HeaderValue.bytes =
    [Bytes.ofString (toString bytes.length)]

/-- The digest header has the digest of the bytes alone. -/
def ShowsDigest (bytes : Bytes) (request : Request) : Prop :=
  (request.headers.values contentDigest).map HeaderValue.bytes =
    [Base64.encode (Sha256.digest bytes)]

section headers

variable {bytes : Bytes} {request : Request}

theorem Carries.collect (carries : Carries bytes request) : request.body.collect = .ok bytes := by
  rw [carries.body, Body.collect_ofBytes]

theorem Carries.values (carries : Carries bytes request) :
    request.headers.values .contentLength = [.ofNat bytes.length] := by
  apply HeaderValue.bytes_injective.list_map
  rw [carries.length, List.map_singleton, HeaderValue.bytes_ofNat]

theorem ShowsDigest.values (shows : ShowsDigest bytes request) :
    request.headers.values contentDigest = [digestText bytes] :=
  HeaderValue.bytes_injective.list_map shows

end headers

/-- What can be asked of a request's body: to compute its digest, or to write that into its
header as well. -/
inductive DigestCall where
  | compute
  | install
  deriving DecidableEq

namespace DigestCall

/-- What is answered, which is the digest where that is computed, and what becomes of the
request. -/
def run : DigestCall → Request → Except Error (Option Bytes) × Request
  | compute, request =>
    let (result, request) := computeBodyDigest request
    (result.map fun digest => some digest.bytes, request)
  | install, request =>
    let (result, request) := installBodyDigest request
    (result.map fun _ => none, request)

/-- Calls on one request, one after another. -/
def runMany : List DigestCall → Request → List (Except Error (Option Bytes)) × Request
  | [], request => ([], request)
  | call :: calls, request =>
    let (result, request) := call.run request
    let (results, request) := runMany calls request
    (result :: results, request)

/-- What is answered about a body with these bytes. -/
def answer (bytes : Bytes) : DigestCall → Option Bytes
  | compute => some (Base64.encode (Sha256.digest bytes))
  | install => none

/-- What becomes of a request whose body has these bytes. -/
def settle (bytes : Bytes) (request : Request) : DigestCall → Request
  | compute =>
    { request with
      headers := request.headers.insert .contentLength (.ofNat bytes.length)
      body := .ofBytes bytes }
  | install =>
    { request with
      headers := (request.headers.insert .contentLength (.ofNat bytes.length)).insert
        contentDigest (digestText bytes)
      body := .ofBytes bytes }

/-- What calls have made of a request that had these bytes in its body. -/
structure Settled (calls : List DigestCall) (bytes : Bytes) (before after : Request) : Prop where
  carries : Carries bytes after
  digest : install ∈ calls → ShowsDigest bytes after
  kept : install ∉ calls →
    after.headers.values contentDigest = before.headers.values contentDigest
  rest : before.SameBut bodyHeaders after

section calls

variable {bytes : Bytes} {request before between after : Request} {earlier later : List DigestCall}

theorem run_of_ok (call : DigestCall) (collected : request.body.collect = .ok bytes) :
    call.run request = (.ok (call.answer bytes), call.settle bytes request) := by
  cases call with
  | compute =>
    simp only [run, computeBodyDigest, collected]
    rfl
  | install =>
    rw [run, installBodyDigest_of_ok collected]
    rfl

theorem run_of_error (call : DigestCall) {text : String}
    (failed : request.body.collect = .error text) :
    call.run request = (.error (.bodyRead text), { request with body := [] }) := by
  cases call with
  | compute =>
    simp only [run, computeBodyDigest, failed]
    rfl
  | install =>
    rw [run, installBodyDigest_of_error failed]
    rfl

theorem settled_settle (call : DigestCall) (bytes : Bytes) (request : Request) :
    Settled [call] bytes request (call.settle bytes request) := by
  have different : contentDigest ≠ .contentLength := by decide
  have outside {name : HeaderName} (apart : name ∉ bodyHeaders) :
      HeaderName.contentLength ≠ name ∧ contentDigest ≠ name := by
    rw [bodyHeaders, List.mem_pair, not_or] at apart
    exact ⟨Ne.symm apart.1, Ne.symm apart.2⟩
  cases call with
  | compute =>
    refine ⟨⟨rfl, ?_⟩, fun listed => absurd listed (by decide), fun _ => ?_,
      ⟨rfl, rfl, fun name apart => ?_⟩⟩
    · rw [settle, Headers.values_insert, if_pos rfl, List.map_singleton, HeaderValue.bytes_ofNat]
    · rw [settle, Headers.values_insert, if_neg different.symm]
    · rw [settle, Headers.values_insert, if_neg (outside apart).1]
  | install =>
    refine ⟨⟨rfl, ?_⟩, fun _ => ?_, fun unlisted => absurd List.mem_cons_self unlisted,
      ⟨rfl, rfl, fun name apart => ?_⟩⟩
    · rw [settle, Headers.values_insert, if_neg different, Headers.values_insert, if_pos rfl,
        List.map_singleton, HeaderValue.bytes_ofNat]
    · rw [ShowsDigest, settle, Headers.values_insert, if_pos rfl]
      rfl
    · rw [settle, Headers.values_insert, if_neg (outside apart).2, Headers.values_insert,
        if_neg (outside apart).1]

theorem Settled.trans (first : Settled earlier bytes before between)
    (second : Settled later bytes between after) :
    Settled (earlier ++ later) bytes before after where
  carries := second.carries
  digest listed := by
    by_cases again : install ∈ later
    · exact second.digest again
    · have once : install ∈ earlier := (List.mem_append.mp listed).resolve_right again
      rw [ShowsDigest, second.kept again]
      exact first.digest once
  kept unlisted := by
    rw [List.mem_append, not_or] at unlisted
    rw [second.kept unlisted.2, first.kept unlisted.1]
  rest := first.rest.trans second.rest

/-- The first call puts the body in one piece, and each later one finds it so. -/
theorem runMany_of_ok (call : DigestCall) (calls : List DigestCall)
    (collected : request.body.collect = .ok bytes) :
    (runMany (call :: calls) request).1 =
        (call :: calls).map (fun call => .ok (call.answer bytes)) ∧
      Settled (call :: calls) bytes request (runMany (call :: calls) request).2 := by
  have here := settled_settle call bytes request
  induction calls generalizing call request with
  | nil =>
    simp only [runMany, run_of_ok call collected]
    exact ⟨rfl, here⟩
  | cons next calls ih =>
    obtain ⟨answers, there⟩ := ih next here.carries.collect (settled_settle next bytes _)
    rw [runMany, run_of_ok call collected]
    exact ⟨congrArg _ answers, here.trans there⟩

/-- A call like one that was made finds all as that left it. -/
theorem Settled.again {calls : List DigestCall} (settled : Settled calls bytes before after)
    {call : DigestCall} (made : call ∈ calls) :
    ∃ next, call.run after = (.ok (call.answer bytes), next) ∧ after.SameBut [] next ∧
      next.body = after.body := by
  have once := settled_settle call bytes after
  refine ⟨call.settle bytes after, run_of_ok call settled.carries.collect,
    ⟨once.rest.method, once.rest.uri, fun name _ => ?_⟩, ?_⟩
  · by_cases length : name = .contentLength
    · rw [length, once.carries.values, settled.carries.values]
    by_cases digest : name = contentDigest
    · subst digest
      by_cases install : call = .install
      · subst install
        rw [(once.digest List.mem_cons_self).values, (settled.digest made).values]
      · exact once.kept fun inside => install (List.mem_singleton.mp inside).symm
    · exact once.rest.values name (by simp [bodyHeaders, length, digest])
  · rw [once.carries.body, settled.carries.body]

theorem settled_of_installBodyDigest (installed : installBodyDigest request = (.ok (), after)) :
    request.body.failures = [] ∧ Settled [install] request.body.bytes request after := by
  obtain ⟨bytes, collected, rfl⟩ := installBodyDigest_eq_ok installed
  obtain ⟨readable, rfl⟩ := Body.collect_eq_ok_iff.mp collected
  exact ⟨readable, settled_settle install _ request⟩

end calls

/-- Calls on one body answer for its bytes and leave these in one piece, with their number and,
once it was to be written, their digest in the headers. Nothing else changes, the frames that the
bytes came in make no difference, and neither does a call that is made again. A frame that fails
is told by the first call, which leaves the headers alone and an empty body for those that
follow. -/
theorem settled_of_runMany (call : DigestCall) (calls : List DigestCall) (request : Request) :
    let outcome := runMany (call :: calls) request
    (request.body.failures = [] →
      outcome.1 = (call :: calls).map (fun call => .ok (call.answer request.body.bytes)) ∧
      Settled (call :: calls) request.body.bytes request outcome.2 ∧
      (∀ body : Body, body.failures = [] → body.bytes = request.body.bytes →
        runMany (call :: calls) { request with body } = outcome) ∧
      ∀ again ∈ call :: calls, ∃ next,
        again.run outcome.2 = (.ok (again.answer request.body.bytes), next) ∧
          outcome.2.SameBut [] next ∧ next.body = outcome.2.body) ∧
    ∀ text later, request.body.failures = text :: later →
      call.run request = (.error (.bodyRead text), { request with body := [] }) ∧
      outcome =
        (runMany calls { request with body := [] }).map (.error (.bodyRead text) :: ·) id := by
  intro outcome
  refine ⟨fun readable => ?_, fun text later fails => ?_⟩
  · have collected := Body.collect_of_failures_eq_nil readable
    obtain ⟨answers, settled⟩ := runMany_of_ok call calls collected
    refine ⟨answers, settled, fun body alsoReadable sameBytes => ?_,
      fun again made => settled.again made⟩
    have alsoCollected : body.collect = .ok request.body.bytes := by
      rw [Body.collect_of_failures_eq_nil alsoReadable, sameBytes]
    have settledAlike : call.settle request.body.bytes { request with body } =
        call.settle request.body.bytes request := by
      cases call <;> rfl
    simp only [outcome, runMany, run_of_ok call collected]
    rw [run_of_ok call alsoCollected, settledAlike]
  · have failed := run_of_error call (Body.collect_of_failures_eq_cons fails)
    refine ⟨failed, ?_⟩
    simp only [outcome, runMany, failed]
    rfl

/-- Frames of every kind over an old length, given twice; and two frames that fail. -/
theorem settled_of_runMany_frames :
    let request : Request :=
      { method := .post, uri := .originForm .root
        headers := (Headers.empty.append .contentLength (.ofNat 9)).append .contentLength (.ofNat 8)
        body := [.pending, .data [97], .trailers, .data [98, 99]] }
    let failing : Request :=
      { request with body := [.data [97], .failure "reset", .failure "closed"] }
    let outcome := runMany [compute, install] request
    request.body.failures = [] ∧ failing.body.failures = ["reset", "closed"] ∧
      outcome.1 = [.ok (some (Base64.encode (Sha256.digest [97, 98, 99]))), .ok none] ∧
      Settled [compute, install] [97, 98, 99] request outcome.2 ∧
      runMany [install] failing =
        ([.error (.bodyRead "reset")], { failing with body := [] }) := by
  intro request failing outcome
  have readable : request.body.failures = [] := by decide
  have fails : failing.body.failures = ["reset", "closed"] := by decide
  obtain ⟨answers, settled, -⟩ := (settled_of_runMany compute [install] request).1 readable
  obtain ⟨-, lost⟩ := (settled_of_runMany install [] failing).2 "reset" ["closed"] fails
  exact ⟨readable, fails, answers, settled, lost⟩

end DigestCall

end RequestSigning.Signing
