import RequestSigning.Credential.Source
import RequestSigning.Proofs.Except
set_option autoImplicit false

namespace RequestSigning.Credential

section answers

variable {α : Type}

/-- What is read from bytes, together with them. -/
def loadedFrom (read : Bytes → Except Fault α) (body : Bytes) : Except Error (Loaded α) :=
  ((read body).mapError .credential).map fun value => ⟨body, value⟩

/-- What is read from an answer that says it succeeded. -/
def received (url : String) (read : Bytes → Except Fault α) (answer : Except Error Response) :
    Except Error (Loaded α) :=
  (UrlSource.accept url answer).bind (loadedFrom read)

theorem loadedFrom_of_ok (read : Bytes → Except Fault α) {body : Bytes} {value : α}
    (success : read body = .ok value) : loadedFrom read body = .ok ⟨body, value⟩ := by
  rw [loadedFrom, success]
  rfl

theorem loadedFrom_of_error (read : Bytes → Except Fault α) {body : Bytes} {fault : Fault}
    (failed : read body = .error fault) : loadedFrom read body = .error (.credential fault) := by
  rw [loadedFrom, failed]
  rfl

variable {url : String} {read : Bytes → Except Fault α} {answer : Except Error Response}
  {body : Bytes} {loaded : Loaded α}

theorem loadedFrom_eq_ok (success : loadedFrom read body = .ok loaded) :
    ∃ value, read body = .ok value ∧ loaded = ⟨body, value⟩ := by
  obtain ⟨value, found, rfl⟩ := Except.map_eq_ok success
  exact ⟨value, Except.mapError_eq_ok found, rfl⟩

theorem UrlSource.accept_eq_ok (accepted : accept url answer = .ok body) :
    ∃ response, answer = .ok response ∧ response.status.isSuccess = true ∧
      response.body = body := by
  cases answer with
  | error error => cases accepted
  | ok response =>
    rw [accept] at accepted
    split at accepted
    · rename_i success
      exact ⟨response, rfl, success, Except.ok.inj accepted⟩
    · cases accepted

theorem received_eq_ok (success : received url read answer = .ok loaded) :
    ∃ response value, answer = .ok response ∧ response.status.isSuccess = true ∧
      read response.body = .ok value ∧ loaded = ⟨response.body, value⟩ := by
  obtain ⟨body, accepted, reads⟩ := Except.bind_eq_ok success
  obtain ⟨response, rfl, succeeds, rfl⟩ := UrlSource.accept_eq_ok accepted
  obtain ⟨value, found, rfl⟩ := loadedFrom_eq_ok reads
  exact ⟨response, value, rfl, succeeds, found, rfl⟩

end answers

/-- The certificate is read first. -/
theorem StaticSource.load_eq (source : StaticSource) :
    source.load =
      (loadedFrom readCertificate source.certificate).bind fun certificate =>
        match source.privateKey with
        | none => .ok ⟨some certificate, none⟩
        | some pem =>
          (loadedFrom (readPrivateKey · source.passphrase) pem).map fun key =>
            ⟨some certificate, some key⟩ := by
  rfl

namespace UrlSource

variable {σ : Type} (source : UrlSource)

theorem afterCertificate_eq (answer : Except Error Response) :
    source.afterCertificate answer =
      match received source.certificateUrl readCertificate answer, source.privateKeyUrl with
      | .error error, _ => .finished (.error error)
      | .ok certificate, none => .finished (.ok ⟨some certificate, none⟩)
      | .ok certificate, some url => .awaitingKey url certificate := by
  have same : (accept source.certificateUrl answer).bind Loaded.certificate =
      received source.certificateUrl readCertificate answer := rfl
  rw [afterCertificate, same]
  cases received source.certificateUrl readCertificate answer with
  | error error => rfl
  | ok certificate => cases source.privateKeyUrl <;> rfl

theorem afterKey_eq (url : String) (certificate : Loaded Certificate)
    (answer : Except Error Response) :
    source.afterKey url certificate answer =
      (received url (readPrivateKey · source.passphrase) answer).map fun key =>
        ⟨some certificate, some key⟩ := by
  rw [afterKey, received]
  cases accept url answer with
  | error error => rfl
  | ok pem =>
    change (Loaded.privateKey pem source.passphrase).bind _ =
      (Loaded.privateKey pem source.passphrase).map _
    cases Loaded.privateKey pem source.passphrase <;> rfl

/-- The key is asked for after the certificate was read. -/
theorem load_eq (get : Transport σ) (start : σ) :
    source.load get start =
      let answer := get source.certificateUrl start
      match received source.certificateUrl readCertificate answer.1, source.privateKeyUrl with
      | .error error, _ => (.error error, answer.2)
      | .ok certificate, none => (.ok ⟨some certificate, none⟩, answer.2)
      | .ok certificate, some url =>
        let keyAnswer := get url answer.2
        ((received url (readPrivateKey · source.passphrase) keyAnswer.1).map fun key =>
          ⟨some certificate, some key⟩, keyAnswer.2) := by
  dsimp only [load, bind, StateT.bind]
  cases get source.certificateUrl start with | mk answer middle
  dsimp only
  rw [afterCertificate_eq]
  cases received source.certificateUrl readCertificate answer with
  | error error => rfl
  | ok certificate =>
    cases source.privateKeyUrl with
    | none => rfl
    | some url =>
      simp only [← afterKey_eq]
      rfl

end UrlSource

end RequestSigning.Credential
