import RequestSigning.Proofs.Credential.PemRetriever
import RequestSigning.Proofs.Credential.Reading
import RequestSigning.Proofs.Except
set_option autoImplicit false

namespace RequestSigning

open Credential

variable {σ : Type}

/-- An address that was asked for, and what was answered. -/
abbrev Exchange := String × Except Error Response

/-- A transport that also keeps what was exchanged. -/
def Transport.recorded (get : Transport σ) : Transport (σ × List Exchange) :=
  fun url before =>
    let answer := get url before.1
    (answer.1, answer.2, before.2 ++ [(url, answer.1)])

/-- The answer says that it succeeded, and has this body. -/
def Serves (answer : Except Error Response) (body : Bytes) : Prop :=
  ∃ response, answer = .ok response ∧ 200 ≤ response.status.code ∧ response.status.code ≤ 299 ∧
    response.body = body

/-- What was asked for was served, with the first of these bodies. -/
def AllServe (exchanges : List Exchange) (bodies : List Bytes) : Prop :=
  ∃ served, served <+: bodies ∧ List.Forall₂ Serves (exchanges.map Prod.snd) served

theorem AllServe.cons {exchange : Exchange} {later : List Exchange} {body : Bytes}
    {bodies : List Bytes} (serve : AllServe (exchange :: later) (body :: bodies)) :
    Serves exchange.2 body ∧ AllServe later bodies := by
  obtain ⟨served, first, serve⟩ := serve
  rw [List.map_cons, List.forall₂_cons_left_iff] at serve
  obtain ⟨_, rest, serves, serve, rfl⟩ := serve
  obtain ⟨rfl, shorter⟩ := List.cons_prefix_cons.mp first
  exact ⟨serves, rest, shorter, serve⟩

namespace Credential

section answers

variable {α : Type}

/-- What is wrong with the status of an answer. -/
def statusFault (url : String) : Except Error Response → Option Error
  | .error _ => none
  | .ok response =>
    if 200 ≤ response.status.code ∧ response.status.code ≤ 299 then none
    else some (.unexpectedStatus url response.status)

/-- Why nothing can be read from the body of an answer. -/
def readFault (read : Bytes → Except Fault α) : Except Error Response → Option Error
  | .error _ => none
  | .ok response => faultOf ((read response.body).mapError .credential)

/-- All that can be wrong with an answer, in the order in which it is met. -/
def answerFaults (url : String) (read : Bytes → Except Fault α) (answer : Except Error Response) :
    List (Option Error) :=
  [faultOf answer, statusFault url answer, readFault read answer]

theorem isSuccess_iff (status : Http.Status) :
    status.isSuccess = true ↔ 200 ≤ status.code ∧ status.code ≤ 299 := by
  rw [Http.Status.isSuccess, Bool.and_eq_true, decide_eq_true_eq, decide_eq_true_eq]
  omega

variable (url : String) (read : Bytes → Except Fault α)

theorem faultOf_received (answer : Except Error Response) :
    faultOf (received url read answer) = (answerFaults url read answer).findSome? id := by
  cases answer with
  | error error => rfl
  | ok response =>
    simp only [received, UrlSource.accept, answerFaults, statusFault, ← isSuccess_iff]
    split
    · rw [Except.bind, loadedFrom, faultOf_map]
      dsimp only [readFault, faultOf, List.findSome?, id]
      cases read response.body <;> rfl
    · rfl

theorem received_of_serves {answer : Except Error Response} {body : Bytes}
    (serves : Serves answer body) : received url read answer = loadedFrom read body := by
  obtain ⟨response, rfl, lower, upper, rfl⟩ := serves
  rw [received, UrlSource.accept, if_pos ((isSuccess_iff response.status).mpr ⟨lower, upper⟩)]
  rfl

end answers

namespace UrlSource

variable {σ : Type} (source : UrlSource)

/-- What is asked for in loading, with the answers. -/
def exchanges (get : Transport σ) (start : σ) : List Exchange :=
  let answer := get source.certificateUrl start
  (source.certificateUrl, answer.1) ::
    match received source.certificateUrl readCertificate answer.1, source.privateKeyUrl with
    | .ok _, some url => [(url, (get url answer.2).1)]
    | _, _ => []

theorem load_recorded (get : Transport σ) (start : σ) (earlier : List Exchange) :
    source.load get.recorded (start, earlier) =
      ((source.load get start).1, (source.load get start).2,
        earlier ++ source.exchanges get start) := by
  rw [load_eq, load_eq, exchanges]
  dsimp only [Transport.recorded]
  cases received source.certificateUrl readCertificate (get source.certificateUrl start).1 with
  | error error => rfl
  | ok certificate =>
    cases source.privateKeyUrl with
    | none => rfl
    | some url => simp only [List.append_assoc, List.singleton_append]

theorem map_fst_exchanges (get : Transport σ) (start : σ) :
    (source.exchanges get start).map Prod.fst =
      source.certificateUrl ::
        (if (answerFaults source.certificateUrl readCertificate
            (get source.certificateUrl start).1).findSome? id = none then
          source.privateKeyUrl.toList else []) := by
  rw [exchanges, ← faultOf_received]
  cases received source.certificateUrl readCertificate (get source.certificateUrl start).1 with
  | error error => rfl
  | ok certificate => cases source.privateKeyUrl <;> rfl

theorem faultOf_load (get : Transport σ) (start : σ) :
    faultOf (source.load get start).1 =
      (answerFaults source.certificateUrl readCertificate (get source.certificateUrl start).1 ++
        source.privateKeyUrl.elim [] fun url =>
          answerFaults url (readPrivateKey · source.passphrase)
            (get url (get source.certificateUrl start).2).1).findSome? id := by
  rw [load_eq, List.findSome?_append, ← faultOf_received]
  dsimp only
  cases received source.certificateUrl readCertificate (get source.certificateUrl start).1 with
  | error error => rfl
  | ok certificate =>
    cases source.privateKeyUrl with
    | none => rfl
    | some url =>
      dsimp only [Option.elim]
      rw [faultOf_map, faultOf_received]
      rfl

variable {source}

theorem load_of_allServe {get : Transport σ} {start : σ} {certificate : Bytes}
    {privateKey : Option Bytes} (keyed : source.privateKeyUrl.isSome = privateKey.isSome)
    (serve : AllServe (source.exchanges get start) (certificate :: privateKey.toList)) :
    (source.load get start).1 = StaticSource.load ⟨certificate, privateKey, source.passphrase⟩ := by
  obtain ⟨serves, serve⟩ := serve.cons
  have read := received_of_serves source.certificateUrl readCertificate serves
  dsimp only at read serve
  rw [load_eq, StaticSource.load_eq]
  dsimp only
  rw [read] at serve ⊢
  cases parsed : loadedFrom readCertificate certificate with
  | error error => rfl
  | ok loaded =>
    rw [parsed] at serve
    cases configured : source.privateKeyUrl with
    | none =>
      rw [configured] at keyed
      obtain rfl : privateKey = none := by simpa using keyed.symm
      rfl
    | some url =>
      rw [configured] at keyed serve
      obtain ⟨pem, rfl⟩ := Option.isSome_iff_exists.mp keyed.symm
      obtain ⟨serves, -⟩ := serve.cons
      dsimp only
      rw [received_of_serves url _ serves]
      rfl

end UrlSource

theorem StaticSource.load_of_empty {source : StaticSource} (empty : source.privateKey = some []) :
    ∃ fault, source.load = .error (.credential fault) := by
  rw [load_eq, empty]
  cases read : readCertificate source.certificate with
  | error fault =>
    refine ⟨fault, ?_⟩
    rw [loadedFrom, read]
    rfl
  | ok certificate =>
    refine ⟨.empty .privateKey, ?_⟩
    rw [loadedFrom, read]
    rfl

end Credential

namespace Retriever

variable {σ : Type} (retriever : Retriever)

theorem faultOf_settle (result : Except Error Material) :
    faultOf (retriever.settle result).1 = faultOf result := by
  cases result <;> rfl

theorem settle_of_error {result : Except Error Material} {error : Error}
    (failed : (retriever.settle result).1 = .error error) :
    (retriever.settle result).2 = retriever := by
  cases result with
  | error _ => rfl
  | ok material => cases failed

/-- A refresh from addresses fails with the first thing that is wrong with an answer, and then
publishes nothing; the key is asked for only where nothing is wrong with the certificate. Where
all that is asked for is served, it comes out as the first refresh from the served bytes does, and
publishes the same, whatever was published before. -/
theorem refresh_fetched (certificateUrl : String) (privateKeyUrl : Option String)
    (passphrase : Option Bytes) (material : Material) (get : Transport σ) (start : σ) :
    let source := UrlSource.new certificateUrl privateKeyUrl passphrase
    let keyUrl := privateKeyUrl.filter (· ≠ "")
    let outcome := (Retriever.mk (.fetched source) material).refresh get start
    let answer := get certificateUrl start
    let certificateFaults := answerFaults certificateUrl readCertificate answer.1
    let keyFaults := keyUrl.elim [] fun url =>
      answerFaults url (readPrivateKey · passphrase) (get url answer.2).1
    ∃ exchanges : List Exchange,
      (Retriever.mk (.fetched source) material).refresh get.recorded (start, []) =
        (outcome.1, outcome.2, exchanges) ∧
      exchanges.map Prod.fst =
        certificateUrl :: (if certificateFaults.findSome? id = none then keyUrl.toList else []) ∧
      outcome.1.1 = ((certificateFaults ++ keyFaults).findSome? id).elim (.ok ()) .error ∧
      (∀ error, outcome.1.1 = .error error → outcome.1.2.material = material) ∧
      ∀ (certificate : Bytes) (privateKey : Option Bytes), keyUrl.isSome = privateKey.isSome →
        AllServe exchanges (certificate :: privateKey.toList) →
        let fixed :=
          (Retriever.new (.fixed ⟨certificate, privateKey, passphrase⟩)).refresh get start
        outcome.1.1 = fixed.1.1 ∧
        (outcome.1.1 = .ok () → outcome.1.2.material = fixed.1.2.material ∧
          Pems.Reads passphrase ⟨certificate, privateKey⟩ outcome.1.2.material) ∧
        (privateKey = some [] → ∃ fault, outcome.1.1 = .error (.credential fault)) := by
  intro source keyUrl outcome answer certificateFaults keyFaults
  let before := Retriever.mk (.fetched source) material
  have settles : outcome = (before.settle (source.load get start).1, (source.load get start).2) :=
    refresh_apply get before start
  have faults : faultOf (source.load get start).1 =
      (certificateFaults ++ keyFaults).findSome? id := source.faultOf_load get start
  refine ⟨source.exchanges get start, ?_, source.map_fst_exchanges get start, ?_, ?_, ?_⟩
  · have recorded : (Source.fetched source).load get.recorded (start, []) =
        ((source.load get start).1, (source.load get start).2, source.exchanges get start) :=
      source.load_recorded get start []
    rw [refresh_apply, recorded, settles]
  · rw [← eq_of_faultOf (before.faultOf_settle _ |>.trans faults), settles]
  · intro error failed
    rw [settles] at failed ⊢
    exact congrArg Retriever.material (before.settle_of_error failed)
  · intro certificate privateKey keyed serve fixed
    let served : StaticSource := ⟨certificate, privateKey, passphrase⟩
    have same : (source.load get start).1 = served.load := UrlSource.load_of_allServe keyed serve
    have settlesFixed : fixed = ((new (.fixed served)).settle served.load, start) :=
      refresh_apply get (new (.fixed served)) start
    have emptyKey : privateKey = some [] → ∃ fault, served.load = .error (.credential fault) :=
      served.load_of_empty
    rw [settles, settlesFixed, same]
    cases loaded : served.load with
    | error error =>
      refine ⟨rfl, nofun, fun empty => ?_⟩
      obtain ⟨fault, failed⟩ := emptyKey empty
      exact ⟨fault, congrArg Except.error (Except.error.inj (loaded.symm.trans failed))⟩
    | ok material =>
      refine ⟨rfl, fun _ => ⟨rfl, StaticSource.reads_of_load loaded⟩, fun empty => ?_⟩
      obtain ⟨fault, failed⟩ := emptyKey empty
      cases loaded.symm.trans failed

set_option maxRecDepth 100000 in
/-- A certificate and a key that are served, with whatever status says so, take the place of a
certificate without a key. -/
theorem refresh_fetched_served :
    let certificate := certificateText plainCertificate
    let key := keyText plainKey
    let get : Transport Unit := fun url =>
      return .ok (if url = "key" then ⟨⟨299, by decide⟩, key⟩ else ⟨⟨200, by decide⟩, certificate⟩)
    let exchanges : List Exchange :=
      [("certificate", .ok ⟨⟨200, by decide⟩, certificate⟩), ("key", .ok ⟨⟨299, by decide⟩, key⟩)]
    let source := UrlSource.new "certificate" (some "key") none
    let old := ((new (.fixed ⟨certificate, none, none⟩)).refresh get ()).1.2.material
    let fetched := (Retriever.mk (.fetched source) old).refresh get ()
    let fixed := (new (.fixed ⟨certificate, some key, none⟩)).refresh get ()
    AllServe exchanges [certificate, key] ∧
      ((Retriever.mk (.fetched source) old).refresh get.recorded ((), [])).2.2 = exchanges ∧
      old.certificate.isSome = true ∧ old.privateKey = none ∧
      fetched.1.1 = .ok () ∧ fetched.1.1 = fixed.1.1 ∧
      fetched.1.2.material = fixed.1.2.material ∧
      Pems.Reads none ⟨certificate, some key⟩ fetched.1.2.material ∧
      fetched.1.2.privateKey.map (·.modulus) = some 33 := by
  intro certificate key get exchanges source old fetched fixed
  have serve : AllServe exchanges [certificate, key] :=
    ⟨_, List.prefix_rfl, .cons ⟨_, rfl, by decide, by decide, rfl⟩
      (.cons ⟨_, rfl, by decide, by decide, rfl⟩ .nil)⟩
  have asked : ((Retriever.mk (.fetched source) old).refresh get.recorded ((), [])).2.2 =
      exchanges := by
    decide +kernel
  have loaded : fetched.1.1 = .ok () := by decide +kernel
  obtain ⟨recorded, run, -, -, -, agrees⟩ :=
    refresh_fetched "certificate" (some "key") none old get ()
  have same : recorded = exchanges := (congrArg (fun ran => ran.2.2) run).symm.trans asked
  subst same
  obtain ⟨result, publishes, -⟩ := agrees certificate (some key) rfl serve
  obtain ⟨material, reads⟩ := publishes loaded
  exact ⟨serve, asked, by decide +kernel, by decide +kernel, loaded, result, material, reads,
    by decide +kernel⟩

end Retriever

end RequestSigning
