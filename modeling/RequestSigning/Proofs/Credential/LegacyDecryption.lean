import RequestSigning.Proofs.Credential.LegacyEncryption
set_option autoImplicit false

namespace RequestSigning.Credential

/-- The faults of headers that do not name a cipher and an initial vector for it. -/
def Fault.IsOfHeaders : Fault → Prop
  | .missingCipherInfo | .malformedCipherInfo _ | .unsupportedCipher _ | .malformedIv _
  | .wrongIvLength _ _ _ => True
  | _ => False

namespace LegacyCipher

theorem eight_le_blockSize (cipher : LegacyCipher) : 8 ≤ cipher.blockSize := by
  cases cipher <;> decide

variable {cipher : LegacyCipher} {key iv hidden plain : Bytes}

/-- A cipher that is set up decrypts just what encryption makes of some text. -/
theorem decrypt_eq_ok_iff (admitted : cipher.blockCipher.Admits key iv) :
    cipher.decrypt key iv hidden = .ok plain ↔
      hidden = Cbc.encrypt cipher.blockCipher key iv plain := by
  rw [decrypt, if_pos admitted,
    ← Cbc.decrypt?_eq_some_iff cipher.blockCipher_isLawful admitted.1 admitted.2]
  cases Cbc.decrypt? cipher.blockCipher key iv hidden with
  | some text => rw [Except.ok.injEq, Option.some.injEq]
  | none => simp only [reduceCtorEq]

theorem decrypt_cases (admitted : cipher.blockCipher.Admits key iv) (hidden : Bytes) :
    (∃ plain, cipher.decrypt key iv hidden = .ok plain) ∨
      cipher.decrypt key iv hidden = .error .wrongPassphrase := by
  rw [decrypt, if_pos admitted]
  cases Cbc.decrypt? cipher.blockCipher key iv hidden with
  | some plain => exact .inl ⟨plain, rfl⟩
  | none => exact .inr rfl

/-- Between one byte and a block of padding is taken off. -/
theorem length_of_decrypt (admitted : cipher.blockCipher.Admits key iv)
    (success : cipher.decrypt key iv hidden = .ok plain) :
    plain.length < hidden.length ∧ hidden.length ≤ plain.length + cipher.blockCipher.blockSize := by
  have lawful := cipher.blockCipher_isLawful
  have length : hidden.length = (Padding.add cipher.blockCipher.blockSize plain).length := by
    rw [(decrypt_eq_ok_iff admitted).mp success,
      Cbc.length_encrypt lawful admitted.1 admitted.2]
  rw [length]
  exact ⟨Padding.lt_length_add lawful.blockSize_pos plain, Padding.length_add_le _ plain⟩

end LegacyCipher

namespace LegacyEncryption

variable {pem : Pem} {cipher : LegacyCipher} {iv : Bytes}

/-- What reading the headers may give: a fault of theirs, or a cipher with an initial vector of
its size. -/
def IsSetup : Except Fault (LegacyCipher × Bytes) → Prop
  | .error fault => fault.IsOfHeaders
  | .ok (cipher, iv) => iv.length = cipher.blockSize

theorem isSetup_readCipherInfo (info : String) : IsSetup (readCipherInfo info) := by
  rw [readCipherInfo]
  split
  · exact trivial
  · dsimp only
    split
    · exact trivial
    · split
      · exact trivial
      · split
        next sized => exact sized
        next => exact trivial

theorem isSetup_readSetup (pem : Pem) : IsSetup (readSetup pem) := by
  rw [readSetup]
  split
  next info _ => exact isSetup_readCipherInfo info
  next => exact trivial

theorem isOfHeaders_of_readSetup {fault : Fault} (refused : readSetup pem = .error fault) :
    fault.IsOfHeaders := by
  have setup := isSetup_readSetup pem
  rwa [refused] at setup

theorem length_of_readSetup (named : readSetup pem = .ok (cipher, iv)) :
    iv.length = cipher.blockSize := by
  have setup := isSetup_readSetup pem
  rwa [named] at setup

theorem decrypt_of_error {fault : Fault} (refused : readSetup pem = .error fault)
    (passphrase : Bytes) : decrypt pem passphrase = .error fault := by
  rw [decrypt, refused]

theorem decrypt_of_ok (named : readSetup pem = .ok (cipher, iv)) (passphrase : Bytes) :
    decrypt pem passphrase = cipher.decrypt (cipher.key passphrase iv) iv pem.contents := by
  rw [decrypt, named]

/-- What is certain once the headers have named a cipher and an initial vector: the salt lies
within the vector, the key and the vector have the lengths that the cipher is set up with, and
all that can go wrong with the contents is told by the fault for a wrong passphrase. -/
structure IsInRange (pem : Pem) (passphrase : Bytes) (cipher : LegacyCipher) (iv : Bytes) :
    Prop where
  salt : 8 ≤ iv.length
  keyLength : (cipher.key passphrase iv).length = cipher.blockCipher.keySize
  ivLength : iv.length = cipher.blockCipher.blockSize
  outcome :
    (∃ plain, decrypt pem passphrase = .ok plain ∧ plain.length < pem.contents.length ∧
      pem.contents.length ≤ plain.length + cipher.blockCipher.blockSize) ∨
    decrypt pem passphrase = .error .wrongPassphrase
  decrypts : ∀ plain, decrypt pem passphrase = .ok plain ↔
    pem.contents = Cbc.encrypt cipher.blockCipher (cipher.key passphrase iv) iv plain

theorem isInRange_of_readSetup (named : readSetup pem = .ok (cipher, iv)) (passphrase : Bytes) :
    IsInRange pem passphrase cipher iv := by
  have size := length_of_readSetup named
  have admitted := cipher.admits_key passphrase (size.trans cipher.blockSize_blockCipher.symm)
  have run := decrypt_of_ok named passphrase
  exact
    { salt := size ▸ cipher.eight_le_blockSize
      keyLength := admitted.1
      ivLength := admitted.2
      outcome := by
        rw [run]
        rcases LegacyCipher.decrypt_cases admitted pem.contents with ⟨plain, success⟩ | failure
        · exact .inl ⟨plain, success, LegacyCipher.length_of_decrypt admitted success⟩
        · exact .inr failure
      decrypts := by
        intro plain
        rw [run]
        exact LegacyCipher.decrypt_eq_ok_iff admitted }

/-- No cipher is ever given a key or an initial vector of another length than its own. -/
theorem decrypt_ne_invalidLength (pem : Pem) (passphrase : Bytes) :
    decrypt pem passphrase ≠ .error .invalidLength := by
  cases setup : readSetup pem with
  | error fault =>
    have ofHeaders := isOfHeaders_of_readSetup setup
    rw [decrypt_of_error setup passphrase]
    rintro ⟨⟩
    exact ofHeaders
  | ok named =>
    rcases (isInRange_of_readSetup setup passphrase).outcome with ⟨plain, success, -⟩ | failure
    · rw [success]
      exact nofun
    · rw [failure]
      exact nofun

/-- Decryption stays in range on every block and under every passphrase: headers that do not name
a cipher with an initial vector of its size are refused before a key is derived, and from there
on every length is right. -/
theorem decrypt_isInRange (pem : Pem) (passphrase : Bytes) :
    (∀ fault, readSetup pem = .error fault →
      fault.IsOfHeaders ∧ decrypt pem passphrase = .error fault) ∧
    (∀ cipher iv, readSetup pem = .ok (cipher, iv) → IsInRange pem passphrase cipher iv) ∧
    decrypt pem passphrase ≠ .error .invalidLength := by
  refine ⟨?_, ?_, decrypt_ne_invalidLength pem passphrase⟩
  · intro fault refused
    exact ⟨isOfHeaders_of_readSetup refused, decrypt_of_error refused passphrase⟩
  · intro cipher iv named
    exact isInRange_of_readSetup named passphrase

/-- Under three keys, with blanks around the names: contents of one block, no contents, and
headers that name nothing. -/
theorem decrypt_isInRange_tripleDes :
    let passphrase : Bytes := [115, 101, 99, 114, 101, 116]
    let iv : Bytes := [0x00, 0x11, 0x22, 0x33, 0x44, 0x55, 0x66, 0x77]
    let headers := [(procType, "4,ENCRYPTED"), (cipherInfo, "DES-EDE3-CBC , 0011223344556677")]
    let hidden : Bytes := [156, 174, 249, 205, 99, 161, 192, 94]
    readSetup ⟨"RSA PRIVATE KEY", headers, hidden⟩ = .ok (.tripleDes, iv) ∧
      8 ≤ iv.length ∧ (LegacyCipher.tripleDes.key passphrase iv).length = 24 ∧
      decrypt ⟨"RSA PRIVATE KEY", headers, hidden⟩ passphrase = .ok [1, 2, 3, 4, 5] ∧
      decrypt ⟨"RSA PRIVATE KEY", headers, []⟩ passphrase = .error .wrongPassphrase ∧
      readSetup ⟨"RSA PRIVATE KEY", [], hidden⟩ = .error .missingCipherInfo ∧
      decrypt ⟨"RSA PRIVATE KEY", [], hidden⟩ passphrase = .error .missingCipherInfo := by
  intro passphrase iv headers hidden
  have named : readSetup ⟨"RSA PRIVATE KEY", headers, hidden⟩ = .ok (.tripleDes, iv) := by
    decide +kernel
  have named' : readSetup ⟨"RSA PRIVATE KEY", headers, []⟩ = .ok (.tripleDes, iv) := by
    decide +kernel
  have refused : readSetup ⟨"RSA PRIVATE KEY", [], hidden⟩ = .error .missingCipherInfo := rfl
  have written : hidden = Cbc.encrypt LegacyCipher.tripleDes.blockCipher
      (LegacyCipher.tripleDes.key passphrase iv) iv [1, 2, 3, 4, 5] := by
    rw [← LegacyCipher.writtenKey_eq_key]
    decide +kernel
  have range := (decrypt_isInRange _ passphrase).2.1 _ _ named
  have range' := (decrypt_isInRange _ passphrase).2.1 _ _ named'
  have nothing := ((decrypt_isInRange _ passphrase).1 _ refused).2
  refine ⟨named, range.salt, range.keyLength, (range.decrypts _).mpr written, ?_, refused, nothing⟩
  rcases range'.outcome with ⟨plain, -, shorter, -⟩ | failure
  · exact absurd shorter (Nat.not_lt_zero _)
  · exact failure

end LegacyEncryption

end RequestSigning.Credential
