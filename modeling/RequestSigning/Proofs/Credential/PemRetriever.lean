import Mathlib
import RequestSigning.Credential.Retriever
import RequestSigning.Proofs.Credential.Pems
import RequestSigning.Proofs.Credential.Provider
import RequestSigning.Proofs.Signing.Signer
set_option autoImplicit false

namespace RequestSigning

open Credential

variable {σ : Type}

/-- All that credentials are asked for: by themselves, through a provider of any key id, and
through a signer with such a provider. -/
structure Observations where
  certificatePem : Option Bytes
  certificate : Option Certificate
  privateKeyPem : Option Bytes
  privateKey : Option Rsa.PrivateKey
  provider : String → KeyProvider
  sign : String → Signing.Config → Http.Request → Except Error Unit × Http.Request

def Retriever.observations (retriever : Retriever) : Observations where
  certificatePem := retriever.certificatePem
  certificate := retriever.certificate
  privateKeyPem := retriever.privateKeyPem
  privateKey := retriever.privateKey
  provider := .ofMaterial retriever.material
  sign keyId config := Signer.sign ⟨some (.ofMaterial retriever.material keyId), config⟩

/-- A provider with nothing loaded. -/
def KeyProvider.unavailable : KeyProvider where
  privateKey := .error (.keyUnavailable .noPrivateKey)
  keyId := .error (.keyUnavailable .noCertificate)
  expiration := 0

/-- A retriever that keeps the bytes of the latest successful refresh alone, and reads them
again whenever it is asked. -/
structure PemRetriever where
  source : Source
  last : Option Pems

namespace PemRetriever

def new (source : Source) : PemRetriever :=
  ⟨source, none⟩

def settle (retriever : PemRetriever) : Except Error Pems → Except Error Unit × PemRetriever
  | .ok pems => (.ok (), { retriever with last := some pems })
  | .error error => (.error error, retriever)

def refresh (get : Transport σ) (retriever : PemRetriever) :
    StateM σ (Except Error Unit × PemRetriever) := do
  return retriever.settle (← retriever.source.fetch get)

def refreshMany (get : Transport σ) :
    Nat → PemRetriever → StateM σ (List (Except Error Unit) × PemRetriever)
  | 0, retriever => return ([], retriever)
  | count + 1, retriever => do
    let (result, retriever) ← retriever.refresh get
    let (results, retriever) ← refreshMany get count retriever
    return (result :: results, retriever)

def certificatePem (retriever : PemRetriever) : Option Bytes :=
  retriever.last.map Pems.certificate

def certificate (retriever : PemRetriever) : Option Certificate :=
  retriever.certificatePem.bind fun pem => (readCertificate pem).toOption

def privateKeyPem (retriever : PemRetriever) : Option Bytes :=
  retriever.last.bind Pems.privateKey

def privateKey (retriever : PemRetriever) : Option Rsa.PrivateKey :=
  retriever.privateKeyPem.bind fun pem =>
    (readPrivateKey pem retriever.source.passphrase).toOption

def provider (retriever : PemRetriever) (keyId : String) : KeyProvider where
  privateKey := retriever.privateKey.elim KeyProvider.unavailable.privateKey .ok
  keyId := retriever.certificate.elim KeyProvider.unavailable.keyId fun _ => .ok keyId
  expiration := retriever.certificate.elim KeyProvider.unavailable.expiration (·.expiration)

def observations (retriever : PemRetriever) : Observations where
  certificatePem := retriever.certificatePem
  certificate := retriever.certificate
  privateKeyPem := retriever.privateKeyPem
  privateKey := retriever.privateKey
  provider := retriever.provider
  sign keyId config := Signer.sign ⟨some (retriever.provider keyId), config⟩

end PemRetriever

namespace Retriever

theorem refresh_apply (get : Transport σ) (retriever : Retriever) (start : σ) :
    retriever.refresh get start =
      (retriever.settle (retriever.source.load get start).1, (retriever.source.load get start).2) :=
  rfl

theorem refreshMany_succ (get : Transport σ) (count : Nat) (retriever : Retriever) (start : σ) :
    retriever.refreshMany get (count + 1) start =
      let first := retriever.refresh get start
      let rest := first.1.2.refreshMany get count first.2
      ((first.1.1 :: rest.1.1, rest.1.2), rest.2) :=
  rfl

/-- Refreshes that fail, however far they come, change nothing. -/
theorem refreshMany_of_failures (get : Transport σ) (count : Nat) (retriever : Retriever)
    (start : σ)
    (failures : ∀ result ∈ (retriever.refreshMany get count start).1.1,
      ∃ error, result = .error error) :
    (retriever.refreshMany get count start).1.2 = retriever := by
  induction count generalizing retriever start with
  | zero => rfl
  | succ count ih =>
    rw [refreshMany_succ] at failures ⊢
    dsimp only at failures ⊢
    obtain ⟨⟨error, failed⟩, rest⟩ := List.forall_mem_cons.mp failures
    have unchanged : (retriever.refresh get start).1.2 = retriever := by
      rw [refresh_apply] at failed ⊢
      cases loaded : (retriever.source.load get start).1 with
      | error error => rfl
      | ok material =>
        rw [loaded] at failed
        cases failed
    rw [ih _ _ rest, unchanged]

end Retriever

namespace PemRetriever

theorem refresh_apply (get : Transport σ) (retriever : PemRetriever) (start : σ) :
    retriever.refresh get start =
      (retriever.settle (retriever.source.fetch get start).1,
        (retriever.source.fetch get start).2) :=
  rfl

theorem refreshMany_succ (get : Transport σ) (count : Nat) (retriever : PemRetriever) (start : σ) :
    retriever.refreshMany get (count + 1) start =
      let first := retriever.refresh get start
      let rest := first.1.2.refreshMany get count first.2
      ((first.1.1 :: rest.1.1, rest.1.2), rest.2) :=
  rfl

theorem last_of_success (get : Transport σ) (count : Nat) (retriever : PemRetriever) (start : σ)
    (success : retriever.last.isSome ∨ .ok () ∈ (retriever.refreshMany get count start).1.1) :
    (retriever.refreshMany get count start).1.2.last.isSome := by
  induction count generalizing retriever start with
  | zero =>
    rcases success with kept | succeeded
    · exact kept
    · cases succeeded
  | succ count ih =>
    rw [refreshMany_succ] at success ⊢
    dsimp only at success ⊢
    apply ih
    rw [List.mem_cons] at success
    rw [refresh_apply] at success ⊢
    cases fetched : (retriever.source.fetch get start).1 with
    | error error =>
      rw [fetched] at success
      rcases success with kept | succeeded | later
      · exact .inl kept
      · cases succeeded
      · exact .inr later
    | ok pems => exact .inl rfl

/-- The material that is kept is what the bytes are read for. -/
inductive Represents (source : Source) : Retriever → PemRetriever → Prop
  | fresh : Represents source (.new source) (.new source)
  | refreshed {pems : Pems} {material : Material} (reads : pems.Reads source.passphrase material)
      (keyed : pems.privateKey.isSome = source.hasPrivateKey) :
      Represents source ⟨source, material⟩ ⟨source, some pems⟩

namespace Represents

variable {source : Source} {retriever : Retriever} {machine : PemRetriever}

theorem source_eq (represents : Represents source retriever machine) :
    retriever.source = source ∧ machine.source = source := by
  cases represents <;> exact ⟨rfl, rfl⟩

theorem settle (represents : Represents source retriever machine) {fetched : Except Error Pems}
    {loaded : Except Error Material} (agrees : source.Agrees fetched loaded) :
    (retriever.settle loaded).1 = (machine.settle fetched).1 ∧
    Represents source (retriever.settle loaded).2 (machine.settle fetched).2 := by
  cases agrees with
  | failed error => exact ⟨rfl, represents⟩
  | loaded reads keyed =>
    refine ⟨rfl, ?_⟩
    obtain ⟨configured, configuredMachine⟩ := represents.source_eq
    rw [Retriever.settle, PemRetriever.settle, configured, configuredMachine]
    exact .refreshed reads keyed

theorem refresh (represents : Represents source retriever machine) (get : Transport σ) (start : σ) :
    (retriever.refresh get start).1.1 = (machine.refresh get start).1.1 ∧
    (retriever.refresh get start).2 = (machine.refresh get start).2 ∧
    Represents source (retriever.refresh get start).1.2 (machine.refresh get start).1.2 := by
  obtain ⟨asked, agrees⟩ := source.fetch_agrees get start
  obtain ⟨configured, configuredMachine⟩ := represents.source_eq
  rw [Retriever.refresh_apply, PemRetriever.refresh_apply, configured, configuredMachine]
  obtain ⟨result, settled⟩ := represents.settle agrees
  exact ⟨result, asked.symm, settled⟩

/-- Every refresh gives the same result, asks for the same and keeps the two alike. -/
theorem refreshMany (represents : Represents source retriever machine) (get : Transport σ)
    (count : Nat) (start : σ) :
    (retriever.refreshMany get count start).1.1 = (machine.refreshMany get count start).1.1 ∧
    (retriever.refreshMany get count start).2 = (machine.refreshMany get count start).2 ∧
    Represents source (retriever.refreshMany get count start).1.2
      (machine.refreshMany get count start).1.2 := by
  induction count generalizing retriever machine start with
  | zero => exact ⟨rfl, rfl, represents⟩
  | succ count ih =>
    obtain ⟨result, asked, refreshed⟩ := represents.refresh get start
    obtain ⟨results, askedLater, last⟩ := ih refreshed (retriever.refresh get start).2
    rw [Retriever.refreshMany_succ, PemRetriever.refreshMany_succ]
    dsimp only
    rw [← asked, result, results]
    exact ⟨rfl, askedLater, last⟩

theorem certificatePem_eq (represents : Represents source retriever machine) :
    retriever.certificatePem = machine.certificatePem := by
  cases represents with
  | fresh => rfl
  | refreshed reads keyed =>
    obtain ⟨certificate, -, loaded⟩ := reads.certificate
    rw [Retriever.certificatePem, loaded]
    rfl

theorem certificate_eq (represents : Represents source retriever machine) :
    retriever.certificate = machine.certificate := by
  rw [PemRetriever.certificate, ← represents.certificatePem_eq]
  cases represents with
  | fresh => rfl
  | refreshed reads keyed =>
    obtain ⟨certificate, read, loaded⟩ := reads.certificate
    rw [Retriever.certificate, Retriever.certificatePem, loaded, Option.map_some, Option.map_some,
      Option.bind_some, read]
    rfl

theorem privateKeyPem_eq (represents : Represents source retriever machine) :
    retriever.privateKeyPem = machine.privateKeyPem := by
  cases represents with
  | fresh => rfl
  | refreshed reads keyed =>
    rw [Retriever.privateKeyPem, PemRetriever.privateKeyPem, Option.bind_some]
    obtain ⟨absent, unloaded⟩ | ⟨pem, key, kept, -, loaded⟩ := reads.privateKey
    · rw [absent, unloaded]
      rfl
    · rw [kept, loaded]
      rfl

theorem privateKey_eq (represents : Represents source retriever machine) :
    retriever.privateKey = machine.privateKey := by
  rw [PemRetriever.privateKey, ← represents.privateKeyPem_eq]
  cases represents with
  | fresh => rfl
  | refreshed reads keyed =>
    rw [Retriever.privateKey, Retriever.privateKeyPem]
    obtain ⟨-, unloaded⟩ | ⟨pem, key, -, read, loaded⟩ := reads.privateKey
    · rw [unloaded]
      rfl
    · rw [loaded, Option.map_some, Option.map_some, Option.bind_some, read]
      rfl

theorem provider_eq (represents : Represents source retriever machine) (keyId : String) :
    KeyProvider.ofMaterial retriever.material keyId = machine.provider keyId := by
  rw [PemRetriever.provider, ← represents.privateKey_eq, ← represents.certificate_eq,
    Retriever.privateKey, Retriever.certificate]
  obtain ⟨source, certificate, privateKey⟩ := retriever
  cases certificate <;> cases privateKey <;> rfl

theorem observations_eq (represents : Represents source retriever machine) :
    retriever.observations = machine.observations := by
  have providers : KeyProvider.ofMaterial retriever.material = machine.provider :=
    funext represents.provider_eq
  rw [Retriever.observations, PemRetriever.observations, providers, represents.certificatePem_eq,
    represents.certificate_eq, represents.privateKeyPem_eq, represents.privateKey_eq]

theorem isReadable (represents : Represents source retriever machine)
    (loaded : machine.last.isSome) :
    ∃ pems, machine.last = some pems ∧ pems.IsReadable source.passphrase := by
  cases represents with
  | fresh => cases loaded
  | refreshed reads keyed => exact ⟨_, rfl, reads.isReadable⟩

theorem privateKey_eq_none (represents : Represents source retriever machine)
    (loaded : machine.last.isSome) :
    retriever.privateKey = none ↔ source.hasPrivateKey = false := by
  cases represents with
  | fresh => cases loaded
  | refreshed reads keyed =>
    rw [← keyed, Retriever.privateKey]
    obtain ⟨absent, unloaded⟩ | ⟨pem, key, kept, -, loaded⟩ := reads.privateKey
    · simp [absent, unloaded]
    · simp [kept, loaded]

/-- A key that signs was read from the bytes that are kept. -/
theorem isSignedBy_of_sign (represents : Represents source retriever machine) {keyId : String}
    {config : Signing.Config} {request after : Http.Request}
    (signed : retriever.observations.sign keyId config request = (.ok (), after)) :
    ∃ pems pem key, machine.last = some pems ∧ pems.privateKey = some pem ∧
      readPrivateKey pem source.passphrase = .ok key ∧
      config.IsSignedBy request after key.publicKey keyId := by
  obtain ⟨_, key, _, answer, provided, keyAnswer, providedAgain, idAnswer, isSigned⟩ :=
    Signing.Config.isSignedBy_of_sign signed
  cases provided
  cases providedAgain
  obtain rfl := KeyProvider.keyId_of_ofMaterial idAnswer
  have held := KeyProvider.privateKey_of_ofMaterial keyAnswer
  cases represents with
  | fresh => cases held
  | refreshed reads keyed =>
    obtain ⟨-, unloaded⟩ | ⟨pem, kept, present, read, loaded⟩ := reads.privateKey
    · rw [unloaded] at held
      cases held
    · rw [loaded] at held
      cases held
      exact ⟨_, pem, kept, rfl, present, read, isSigned⟩

end Represents

end PemRetriever

/-- Whatever the transport answers, and however often it is asked, a retriever, its providers
and their signers show what the bytes of the latest successful refresh are read for, and what is
signed is signed by the key among these bytes. Refreshes that fail change nothing, and before the
first success nothing is available. -/
theorem Retriever.observations_refreshMany (source : Source) (get : Transport σ) (count : Nat)
    (start : σ) :
    let outcome := (Retriever.new source).refreshMany get count start
    let expected := (PemRetriever.new source).refreshMany get count start
    outcome.1.1 = expected.1.1 ∧ outcome.2 = expected.2 ∧
    outcome.1.2.observations = expected.1.2.observations ∧ expected.1.2.source = source ∧
    (.ok () ∈ outcome.1.1 →
      (∃ pems, expected.1.2.last = some pems ∧ pems.IsReadable source.passphrase) ∧
      (outcome.1.2.observations.privateKey = none ↔ source.hasPrivateKey = false)) ∧
    (∀ keyId config request after,
      outcome.1.2.observations.sign keyId config request = (.ok (), after) →
      ∃ pems pem key, expected.1.2.last = some pems ∧ pems.privateKey = some pem ∧
        readPrivateKey pem source.passphrase = .ok key ∧
        config.IsSignedBy request after key.publicKey keyId) ∧
    ((∀ result ∈ outcome.1.1, ∃ error, result = .error error) →
      outcome.1.2.observations.provider = fun _ => .unavailable) ∧
    ∀ (again : Transport σ) (more : Nat),
      (∀ result ∈ (outcome.1.2.refreshMany again more outcome.2).1.1,
        ∃ error, result = .error error) →
      (outcome.1.2.refreshMany again more outcome.2).1.2 = outcome.1.2 := by
  intro outcome expected
  obtain ⟨results, asked, represents⟩ :=
    (PemRetriever.Represents.fresh : PemRetriever.Represents source _ _).refreshMany get count start
  refine ⟨results, asked, represents.observations_eq, represents.source_eq.2, ?_,
    fun _ _ _ _ => represents.isSignedBy_of_sign, ?_, ?_⟩
  · intro success
    have loaded : expected.1.2.last.isSome :=
      PemRetriever.last_of_success get count _ start (.inr (results ▸ success))
    exact ⟨represents.isReadable loaded, represents.privateKey_eq_none loaded⟩
  · intro failures
    rw [Retriever.refreshMany_of_failures get count _ start failures]
    rfl
  · intro again more failures
    exact Retriever.refreshMany_of_failures again more _ _ failures

end RequestSigning
