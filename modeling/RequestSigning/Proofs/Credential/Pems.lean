import Mathlib
import RequestSigning.Proofs.Credential.Loading
set_option autoImplicit false

namespace RequestSigning.Credential

/-- The bytes that a successful refresh loads. -/
structure Pems where
  certificate : Bytes
  privateKey : Option Bytes
  deriving Repr, DecidableEq

/-- Material that is made of these bytes and of nothing else. -/
inductive Pems.Reads (passphrase : Option Bytes) : Pems → Material → Prop
  | alone {pem : Bytes} {certificate : Certificate}
      (certificateRead : readCertificate pem = .ok certificate) :
      Reads passphrase ⟨pem, none⟩ ⟨some ⟨pem, certificate⟩, none⟩
  | paired {pem keyPem : Bytes} {certificate : Certificate} {key : Rsa.PrivateKey}
      (certificateRead : readCertificate pem = .ok certificate)
      (keyRead : readPrivateKey keyPem passphrase = .ok key) :
      Reads passphrase ⟨pem, some keyPem⟩ ⟨some ⟨pem, certificate⟩, some ⟨keyPem, key⟩⟩

namespace Pems.Reads

variable {passphrase : Option Bytes} {pems : Pems} {material : Material}

theorem certificate (reads : pems.Reads passphrase material) :
    ∃ certificate, readCertificate pems.certificate = .ok certificate ∧
      material.certificate = some ⟨pems.certificate, certificate⟩ := by
  cases reads with
  | alone certificateRead => exact ⟨_, certificateRead, rfl⟩
  | paired certificateRead keyRead => exact ⟨_, certificateRead, rfl⟩

theorem privateKey (reads : pems.Reads passphrase material) :
    (pems.privateKey = none ∧ material.privateKey = none) ∨
    ∃ pem key, pems.privateKey = some pem ∧ readPrivateKey pem passphrase = .ok key ∧
      material.privateKey = some ⟨pem, key⟩ := by
  cases reads with
  | alone certificateRead => exact .inl ⟨rfl, rfl⟩
  | paired certificateRead keyRead => exact .inr ⟨_, _, rfl, keyRead, rfl⟩

end Pems.Reads

structure Pems.IsReadable (passphrase : Option Bytes) (pems : Pems) : Prop where
  certificate : ∃ certificate, readCertificate pems.certificate = .ok certificate
  privateKey : ∀ pem, pems.privateKey = some pem → ∃ key, readPrivateKey pem passphrase = .ok key

theorem Pems.Reads.isReadable {passphrase : Option Bytes} {pems : Pems} {material : Material}
    (reads : pems.Reads passphrase material) : pems.IsReadable passphrase where
  certificate := by
    obtain ⟨certificate, read, -⟩ := reads.certificate
    exact ⟨certificate, read⟩
  privateKey pem present := by
    obtain ⟨absent, -⟩ | ⟨keyPem, key, kept, read, -⟩ := reads.privateKey
    · rw [absent] at present
      cases present
    · rw [kept] at present
      cases present
      exact ⟨key, read⟩

/-- What is loaded is made of the configured bytes. -/
theorem StaticSource.reads_of_load {source : StaticSource} {material : Material}
    (loaded : source.load = .ok material) :
    Pems.Reads source.passphrase ⟨source.certificate, source.privateKey⟩ material := by
  rw [load_eq] at loaded
  obtain ⟨certificate, certificateLoaded, loaded⟩ := Except.bind_eq_ok loaded
  obtain ⟨value, certificateRead, rfl⟩ := loadedFrom_eq_ok certificateLoaded
  cases configured : source.privateKey with
  | none =>
    rw [configured] at loaded
    cases loaded
    exact .alone certificateRead
  | some pem =>
    rw [configured] at loaded
    obtain ⟨key, keyLoaded, rfl⟩ := Except.map_eq_ok loaded
    obtain ⟨value, keyRead, rfl⟩ := loadedFrom_eq_ok keyLoaded
    exact .paired certificateRead keyRead

/-- The configured bytes, where they can be read. -/
def StaticSource.fetch (source : StaticSource) : Except Error Pems :=
  match readCertificate source.certificate with
  | .error fault => .error (.credential fault)
  | .ok _ =>
    match source.privateKey with
    | none => .ok ⟨source.certificate, none⟩
    | some pem =>
      match readPrivateKey pem source.passphrase with
      | .error fault => .error (.credential fault)
      | .ok _ => .ok ⟨source.certificate, some pem⟩

/-- The bodies of the answers, where these say they succeeded and can be read. -/
def UrlSource.fetch {σ : Type} (source : UrlSource) (get : Transport σ) :
    StateM σ (Except Error Pems) := do
  match accept source.certificateUrl (← get source.certificateUrl) with
  | .error error => return .error error
  | .ok certificate =>
    match readCertificate certificate, source.privateKeyUrl with
    | .error fault, _ => return .error (.credential fault)
    | .ok _, none => return .ok ⟨certificate, none⟩
    | .ok _, some url =>
      match accept url (← get url) with
      | .error error => return .error error
      | .ok pem =>
        match readPrivateKey pem source.passphrase with
        | .error fault => return .error (.credential fault)
        | .ok _ => return .ok ⟨certificate, some pem⟩

namespace Source

def fetch {σ : Type} (get : Transport σ) : Source → StateM σ (Except Error Pems)
  | fixed source => return source.fetch
  | fetched source => source.fetch get

def passphrase : Source → Option Bytes
  | fixed source => source.passphrase
  | fetched source => source.passphrase

/-- Whether a private key is configured, which an empty address is not. -/
def hasPrivateKey : Source → Bool
  | fixed source => source.privateKey.isSome
  | fetched source => source.privateKeyUrl.any (· ≠ "")

/-- Loading fails where fetching the bytes does, and else reads the bytes that were fetched. -/
inductive Agrees (source : Source) : Except Error Pems → Except Error Material → Prop
  | failed (error : Error) : Agrees source (.error error) (.error error)
  | loaded {pems : Pems} {material : Material} (reads : pems.Reads source.passphrase material)
      (keyed : pems.privateKey.isSome = source.hasPrivateKey) :
      Agrees source (.ok pems) (.ok material)

end Source

theorem StaticSource.fetch_agrees (source : StaticSource) :
    (Source.fixed source).Agrees source.fetch source.load := by
  rw [fetch, load_eq]
  cases certificateRead : readCertificate source.certificate with
  | error fault =>
    rw [loadedFrom_of_error readCertificate certificateRead]
    exact .failed _
  | ok certificate =>
    rw [loadedFrom_of_ok readCertificate certificateRead]
    cases configured : source.privateKey with
    | none => exact .loaded (.alone certificateRead) (congrArg Option.isSome configured.symm)
    | some pem =>
      dsimp only [Except.bind]
      cases keyRead : readPrivateKey pem source.passphrase with
      | error fault =>
        rw [loadedFrom_of_error (readPrivateKey · source.passphrase) keyRead]
        exact .failed _
      | ok key =>
        rw [loadedFrom_of_ok (readPrivateKey · source.passphrase) keyRead]
        exact .loaded (.paired certificateRead keyRead) (congrArg Option.isSome configured.symm)

theorem UrlSource.hasPrivateKey_eq (source : UrlSource) :
    (Source.fetched source).hasPrivateKey = source.privateKeyUrl.isSome := by
  have nonempty := source.privateKeyUrl_nonempty
  rw [Source.hasPrivateKey]
  cases configured : source.privateKeyUrl with
  | none => rfl
  | some url =>
    rw [configured] at nonempty
    simpa using nonempty

/-- Both ask for the same, and take the answers the same way. -/
theorem UrlSource.fetch_agrees {σ : Type} (source : UrlSource) (get : Transport σ) (start : σ) :
    (source.fetch get start).2 = (source.load get start).2 ∧
    (Source.fetched source).Agrees (source.fetch get start).1 (source.load get start).1 := by
  have keyed := source.hasPrivateKey_eq
  rw [load_eq]
  dsimp only [fetch, bind, StateT.bind, received]
  cases get source.certificateUrl start with | mk answer middle
  dsimp only
  cases accept source.certificateUrl answer with
  | error error => exact ⟨rfl, .failed error⟩
  | ok pem =>
    dsimp only [Except.bind]
    cases certificateRead : readCertificate pem with
    | error fault =>
      rw [loadedFrom_of_error readCertificate certificateRead]
      exact ⟨rfl, .failed _⟩
    | ok certificate =>
      rw [loadedFrom_of_ok readCertificate certificateRead]
      cases configured : source.privateKeyUrl with
      | none =>
        rw [configured] at keyed
        exact ⟨rfl, .loaded (.alone certificateRead) keyed.symm⟩
      | some url =>
        rw [configured] at keyed
        dsimp only [StateT.bind, bind]
        cases get url middle with | mk answer last
        dsimp only
        cases accept url answer with
        | error error => exact ⟨rfl, .failed error⟩
        | ok keyPem =>
          dsimp only
          cases keyRead : readPrivateKey keyPem source.passphrase with
          | error fault =>
            rw [loadedFrom_of_error (readPrivateKey · source.passphrase) keyRead]
            exact ⟨rfl, .failed _⟩
          | ok key =>
            rw [loadedFrom_of_ok (readPrivateKey · source.passphrase) keyRead]
            exact ⟨rfl, .loaded (.paired certificateRead keyRead) keyed.symm⟩

theorem Source.fetch_agrees {σ : Type} (source : Source) (get : Transport σ) (start : σ) :
    (source.fetch get start).2 = (source.load get start).2 ∧
    source.Agrees (source.fetch get start).1 (source.load get start).1 := by
  cases source with
  | fixed source => exact ⟨rfl, source.fetch_agrees⟩
  | fetched source => exact source.fetch_agrees get start

end RequestSigning.Credential
