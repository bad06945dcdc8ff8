import RequestSigning.Credential.Material
import RequestSigning.Proofs.Credential.Reading
import RequestSigning.Proofs.Rsa.Smallest
import RequestSigning.Proofs.Signing.Authorization
import RequestSigning.Signing.Signer
set_option autoImplicit false

namespace RequestSigning.Signing

open Credential

/-- A key that was read can sign: where its factors are distinct primes and it has room for a
digest, every text has a signature, which the public exponent takes back to the padded digest. -/
theorem computeSignature_of_readPrivateKey (input : Bytes) (passphrase : Option Bytes)
    (key : Rsa.PrivateKey) (read : readPrivateKey input passphrase = .ok key)
    (p_prime : key.p.Prime) (q_prime : key.q.Prime) (distinct : key.p ≠ key.q)
    (provider : KeyProvider)
    (answers : provider.privateKey = (Loaded.privateKey input passphrase).map Loaded.value)
    (text : String) :
    (key.size < 62 → computeSignature (some provider) text = .error (.signing .messageTooLong)) ∧
    (62 ≤ key.size → ∃ signature, computeSignature (some provider) text = .ok signature ∧
      Base64.decode (Bytes.ofString (Base64.encode signature).toStringLossy) = .ok signature ∧
      signature.length = key.size ∧
      Bytes.ofNat key.size (Bytes.toNat signature ^ key.publicExponent % key.modulus) =
        [0x00, 0x01] ++ List.replicate (key.size - 54) 0xFF ++ [0x00] ++ Rsa.digestInfo ++
          Sha256.digest (Bytes.ofString text)) ∧
    computeSignature (some provider) text ≠ .error (.signing .internal) := by
  have given : provider.privateKey = .ok key := by
    rw [answers, Loaded.privateKey, read]
    rfl
  have signing : computeSignature (some provider) text =
      (key.sign (Bytes.ofString text)).mapError .signing := by
    simp only [computeSignature, given, bind, Except.bind]
  rcases Nat.lt_or_ge key.size 62 with small | large
  · rw [signing, key.sign_of_lt small]
    exact ⟨fun _ => rfl, fun large => absurd large (Nat.not_le.mpr small), nofun⟩
  · have signed := Rsa.PrivateKey.sign_eq p_prime q_prime distinct large (Bytes.ofString text)
    have undone := Rsa.PrivateKey.pow_of_sign large signed
    rw [signing, signed]
    exact ⟨fun small => absurd large (Nat.not_le.mpr small),
      fun _ => ⟨_, rfl, decode_ofString_encode _, Bytes.length_ofNat _ _, undone⟩, nofun⟩

/-- The key of the least size, read from its nine numbers, signs the empty text. -/
theorem computeSignature_of_readPrivateKey_smallest :
    let key := Rsa.PrivateKey.smallest
    let input := Pem.render ⟨pkcs1Tag, [], Der.encodeSequence
      ([0, key.modulus, key.publicExponent, key.privateExponent, key.p, key.q, 0, 0, 0].map
        Der.encodeUnsigned)⟩
    let provider : KeyProvider :=
      { privateKey := (Loaded.privateKey input none).map Loaded.value
        keyId := .ok ""
        expiration := 0 }
    readPrivateKey input none = .ok key ∧ key.p.Prime ∧ key.q.Prime ∧ key.p ≠ key.q ∧
      62 ≤ key.size ∧
      ∃ signature, computeSignature (some provider) "" = .ok signature ∧
        Base64.decode (Bytes.ofString (Base64.encode signature).toStringLossy) = .ok signature ∧
        signature.length = key.size ∧
        Bytes.ofNat key.size (Bytes.toNat signature ^ key.publicExponent % key.modulus) =
          [0x00, 0x01] ++ List.replicate (key.size - 54) 0xFF ++ [0x00] ++ Rsa.digestInfo ++
            Sha256.digest (Bytes.ofString "") := by
  intro key input provider
  have decoded : Rsa.PrivateKey.ofPkcs1? (Der.encodeSequence
      ([0, key.modulus, key.publicExponent, key.privateExponent, key.p, key.q, 0, 0, 0].map
        Der.encodeUnsigned)) = some key := by
    decide +kernel
  have read : readPrivateKey input none = .ok key := by
    rw [readPrivateKey_of_pkcs1 (Pem.parse_render (isPlain_pkcs1 _)), decoded]
  obtain ⟨p_prime, q_prime⟩ := Rsa.PrivateKey.smallest_primes
  have distinct : key.p ≠ key.q := by decide
  have large : 62 ≤ key.size := by decide +kernel
  exact ⟨read, p_prime, q_prime, distinct, large,
    (computeSignature_of_readPrivateKey input none key read p_prime q_prime distinct provider rfl
      "").2.1 large⟩

end RequestSigning.Signing
