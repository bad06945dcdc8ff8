import RequestSigning.Proofs.Credential.Reading
import RequestSigning.Proofs.Der.Value
set_option autoImplicit false

namespace RequestSigning

open Der

namespace Rsa.PrivateKey

section Container

variable {content : Bytes}

/-- What stands inside the SEQUENCE of a container. -/
def containerContent (key : Bytes) : Bytes :=
  encodeUnsigned 0 ++ (encryptionAlgorithm.encode ++ Element.encode ⟨Tag.octetString, key⟩)

theorem encodeContainer_eq (key : Bytes) :
    encodeContainer key = Element.encode ⟨Tag.sequence, containerContent key⟩ := by
  simp only [encodeContainer, encodeSequence, containerContent, List.flatten_cons,
    List.flatten_nil, List.append_nil]

theorem length_containerContent (key : Bytes) :
    (containerContent key).length = (encodeLength key.length).length + key.length + 19 := by
  have fixed : (encodeUnsigned 0).length = 3 ∧ encryptionAlgorithm.encode.length = 15 := by decide
  rw [containerContent, List.length_append, List.length_append, Element.length_encode, fixed.1,
    fixed.2]
  dsimp only
  omega

/-- Around a content that is nearly too long, a container has 30 bytes. -/
theorem length_encodeContainer_le_iff :
    (encodeContainer content).length ≤ maxLength ↔ content.length + 30 ≤ maxLength := by
  have inner := length_containerContent content
  have outer : (encodeContainer content).length =
      (encodeLength (containerContent content).length).length +
        (containerContent content).length + 1 := by
    rw [encodeContainer_eq, Element.length_encode]
  constructor
  · intro short
    by_contra long
    have large : 2 ^ 24 ≤ content.length := by
      unfold maxLength at long
      omega
    have octets := five_le_length_encodeLength large
    have members : 5 ≤ (encodeLength (containerContent content).length).length :=
      five_le_length_encodeLength (by omega)
    omega
  · intro short
    have octets : (encodeLength content.length).length ≤ 5 := length_encodeLength_le (by omega)
    have members : (encodeLength (containerContent content).length).length ≤ 5 :=
      length_encodeLength_le (by omega)
    omega

theorem run_readContainer (short : content.length + 30 ≤ maxLength) :
    readContainer.run (encodeContainer content) = some ((encryptionAlgorithm, content), []) := by
  have octets : Element.IsReadable ⟨Tag.octetString, content⟩ :=
    ⟨(by decide : Tag.isKnown Tag.octetString = true), (by omega : content.length ≤ maxLength)⟩
  have sequence : Element.IsReadable ⟨Tag.sequence, containerContent content⟩ := by
    refine ⟨(by decide : Tag.isKnown Tag.sequence = true), ?_⟩
    have whole := length_encodeContainer_le_iff.mpr short
    rw [encodeContainer_eq, Element.length_encode] at whole
    dsimp only at whole ⊢
    omega
  have noPublicKey : (Reader.implicitBitString 1).run [] = some (none, []) :=
    (Reader.run_implicitBitString_eq_some_iff (by decide)).mpr
      ⟨[], List.forall_mem_nil _, nofun, fun _ => rfl, rfl⟩
  have taken := Reader.run_content_eq_some_iff.mpr ⟨octets, (List.append_nil _).symm⟩
  rw [readContainer, encodeContainer_eq, Reader.run_nested_eq_some_iff]
  refine ⟨containerContent content, sequence, ?_, (List.append_nil _).symm⟩
  rw [Reader.whole_eq_some_iff, Reader.run_bind_eq_some_iff]
  refine ⟨0, _, (reads_unsigned 1).run ⟨by decide, by decide⟩ _, ?_⟩
  dsimp only
  rw [if_neg (by decide), Reader.run_bind_eq_some_iff]
  refine ⟨encryptionAlgorithm, _, Algorithm.reads.run (by decide) _, ?_⟩
  rw [Reader.octetString, Reader.run_bind_eq_some_iff]
  refine ⟨content, [], taken, ?_⟩
  rw [Reader.run_bind_eq_some_iff]
  exact ⟨none, [], noPublicKey, rfl⟩

/-- A content is the same key inside a container. -/
theorem ofPkcs8?_encodeContainer (short : content.length + 30 ≤ maxLength) :
    ofPkcs8? (encodeContainer content) = ofPkcs1? content := by
  have read : readContainer.ofInput (encodeContainer content) =
      some (encryptionAlgorithm, content) :=
    Reader.ofInput_eq_some_iff.mpr
      ⟨length_encodeContainer_le_iff.mpr short, run_readContainer short⟩
  rw [ofPkcs8?, read, Option.bind_eq_bind, Option.bind_some]
  exact if_pos rfl

theorem ofPkcs8?_encodeContainer_of_lt (long : maxLength < content.length + 30) :
    ofPkcs8? (encodeContainer content) = none := by
  have tooLong : maxLength < (encodeContainer content).length := by
    rw [← Nat.not_le, length_encodeContainer_le_iff]
    omega
  rw [ofPkcs8?, Reader.ofInput_of_lt tooLong]
  rfl

end Container

section LongExponent

/-- The numbers of a key of 33 = 3 · 11. The second exponent, which nobody looks at, has this many
bytes after its first. -/
def paddedContent (zeros : Nat) : Bytes :=
  encodeUnsigned 0 ++ (encodeUnsigned 33 ++ (encodeUnsigned 3 ++ (encodeUnsigned 7 ++
    (encodeUnsigned 3 ++ (encodeUnsigned 11 ++ (encodeUnsigned 0 ++
      (Element.encode ⟨Tag.integer, 1 :: List.replicate zeros 0⟩ ++ encodeUnsigned 0)))))))

def paddedKey (zeros : Nat) : Bytes :=
  Element.encode ⟨Tag.sequence, paddedContent zeros⟩

variable {zeros : Nat}

theorem length_paddedContent (zeros : Nat) :
    (paddedContent zeros).length = (encodeLength (zeros + 1)).length + zeros + 26 := by
  have fixed : ∀ n ∈ [0, 3, 7, 11, 33], (encodeUnsigned n).length = 3 := by decide
  simp only [List.forall_mem_cons] at fixed
  obtain ⟨zero, three, seven, eleven, modulus, -⟩ := fixed
  simp only [paddedContent, List.length_append, Element.length_encode, List.length_cons,
    List.length_replicate, zero, three, seven, eleven, modulus]
  omega

theorem length_paddedKey (large : 2 ^ 24 ≤ zeros) (short : zeros + 37 ≤ maxLength) :
    (paddedKey zeros).length = zeros + 37 := by
  have inner := length_paddedContent zeros
  have few : (encodeLength (zeros + 1)).length ≤ 5 := length_encodeLength_le (by omega)
  have many : 5 ≤ (encodeLength (zeros + 1)).length := five_le_length_encodeLength (by omega)
  have fewMembers : (encodeLength (paddedContent zeros).length).length ≤ 5 :=
    length_encodeLength_le (by omega)
  have manyMembers : 5 ≤ (encodeLength (paddedContent zeros).length).length :=
    five_le_length_encodeLength (by omega)
  rw [paddedKey, Element.length_encode]
  dsimp only
  omega

theorem run_natural {digits : Bytes} {n : Nat} (readable : Element.IsReadable ⟨Tag.integer, digits⟩)
    (number : unsigned? digits = some n) (rest : Bytes) :
    Reader.natural.run (Element.encode ⟨Tag.integer, digits⟩ ++ rest) = some (n, rest) := by
  rw [Reader.natural, Reader.run_bind_eq_some_iff]
  exact ⟨digits, rest, Reader.run_content_eq_some_iff.mpr ⟨readable, rfl⟩,
    Reader.run_liftM_eq_some_iff.mpr ⟨number, rfl⟩⟩

/-- However long the second exponent is, the key is the same. -/
theorem ofPkcs1?_paddedKey (short : (paddedKey zeros).length ≤ maxLength) :
    ∃ key, ofPkcs1? (paddedKey zeros) = some key ∧ key.modulus = 33 := by
  have small (n : Nat) (listed : n ∈ [0, 3, 7, 11, 33]) (rest : Bytes) :
      Reader.natural.run (encodeUnsigned n ++ rest) = some (n, rest) := by
    have readable : ∀ n ∈ [0, 3, 7, 11, 33],
        Element.IsReadable ⟨Tag.integer, unsignedContent n⟩ := by
      decide
    exact run_natural (readable n listed) (unsigned?_unsignedContent n) rest
  have inner := length_paddedContent zeros
  have outer : (paddedKey zeros).length =
      (encodeLength (paddedContent zeros).length).length + (paddedContent zeros).length + 1 :=
    Element.length_encode _
  have exponent : Element.IsReadable ⟨Tag.integer, 1 :: List.replicate zeros 0⟩ := by
    refine ⟨(by decide : Tag.isKnown Tag.integer = true), ?_⟩
    rw [List.length_cons, List.length_replicate]
    omega
  have sequence : Element.IsReadable ⟨Tag.sequence, paddedContent zeros⟩ :=
    ⟨(by decide : Tag.isKnown Tag.sequence = true), by dsimp only; omega⟩
  have padded : unsigned? (1 :: List.replicate zeros 0) =
      some (Bytes.toNat (1 :: List.replicate zeros 0)) := by
    apply if_pos
    cases zeros <;> exact ⟨rfl, by decide⟩
  have numbers : readNumbers.run (paddedKey zeros) = some (⟨33, 3, 7, 3, 11⟩, []) := by
    rw [readNumbers, Reader.run_nested_eq_some_iff]
    refine ⟨paddedContent zeros, sequence, ?_, (List.append_nil _).symm⟩
    rw [Reader.whole_eq_some_iff, paddedContent, Reader.run_bind_eq_some_iff]
    refine ⟨0, _, (reads_unsigned 1).run ⟨by decide, by decide⟩ _, ?_⟩
    have last := small 0 (by decide) []
    rw [List.append_nil] at last
    rw [if_neg (by decide)]
    simp only [StateT.run_bind, small, List.mem_cons, true_or, or_true, run_natural exponent padded,
      last, Option.bind_eq_bind, Option.bind_some, StateT.run_pure]
    rfl
  have valid : KeyNumbers.IsValid ⟨33, 3, 7, 3, 11⟩ := by decide
  refine ⟨⟨_, valid⟩, ?_, rfl⟩
  rw [ofPkcs1?, Reader.ofInput_eq_some_iff.mpr ⟨short, numbers⟩, Option.bind_eq_bind,
    Option.bind_some]
  exact dif_pos valid

end LongExponent

end Rsa.PrivateKey

namespace Credential

open Rsa.PrivateKey

theorem isPlain_pkcs8 (contents : Bytes) : Pem.IsPlain ⟨pkcs8Tag, [], contents⟩ :=
  ⟨(by decide : pkcs8Tag ≠ ""), (by decide : '-' ∉ pkcs8Tag.toList), List.forall_mem_nil _⟩

/-- A key in the clear is read alone as in a container, whatever passphrases are given: either
both give the same valid key, or both say that there is none. This is so as long as the container
is not longer than what is read, which a content can be that is read alone. -/
theorem readPrivateKey_contained (content alone contained : Bytes) (block : Pem)
    (aloneParsed : Pem.parse alone = .ok ⟨pkcs1Tag, [], content⟩)
    (containedParsed : Pem.parse contained = .ok block) (tagged : block.tag = pkcs8Tag)
    (wraps : block.contents = encodeContainer content) (first second : Option Bytes) :
    (∀ key, readPrivateKey alone first = .ok key ∨ readPrivateKey contained second = .ok key →
      key.modulus = key.p * key.q ∧ 1 < key.p ∧ 1 < key.q ∧ key.modulus % 2 = 1 ∧
      key.publicExponent % 2 = 1 ∧ 2 ≤ key.publicExponent ∧ key.publicExponent ≤ 2 ^ 33 - 1 ∧
      key.publicExponent < key.modulus ∧
      key.publicExponent * key.privateExponent % (key.p - 1) = 1 ∧
      key.publicExponent * key.privateExponent % (key.q - 1) = 1) ∧
    (content.length + 30 ≤ maxLength →
      (∃ key, readPrivateKey alone first = .ok key ∧ readPrivateKey contained second = .ok key) ∨
      (readPrivateKey alone first = .error .invalidPkcs1 ∧
        readPrivateKey contained second = .error .invalidPkcs8)) ∧
    (maxLength < content.length + 30 →
      readPrivateKey contained second = .error .invalidPkcs8) := by
  refine ⟨?_, ?_, ?_⟩
  · intro key _
    have valid := key.valid
    exact ⟨valid.factors.symm, valid.one_lt_p, valid.one_lt_q, valid.modulus_odd,
      valid.exponent_odd, valid.two_le_exponent, valid.exponent_le, valid.exponent_lt_modulus,
      valid.inverse_p, valid.inverse_q⟩
  · intro short
    rw [readPrivateKey_of_pkcs1 aloneParsed, readPrivateKey_of_pkcs8 containedParsed tagged, wraps,
      ofPkcs8?_encodeContainer short]
    cases ofPkcs1? content with
    | none => exact .inr ⟨rfl, rfl⟩
    | some key => exact .inl ⟨key, rfl, rfl⟩
  · intro long
    rw [readPrivateKey_of_pkcs8 containedParsed tagged, wraps,
      ofPkcs8?_encodeContainer_of_lt long]

/-- A key alone with no passphrase, and in a container with one. -/
theorem readPrivateKey_contained_small :
    let alone := keyText plainKey
    let contained := Pem.render ⟨pkcs8Tag, [], encodeContainer plainKey⟩
    Pem.parse alone = .ok ⟨pkcs1Tag, [], plainKey⟩ ∧
      Pem.parse contained = .ok ⟨pkcs8Tag, [], encodeContainer plainKey⟩ ∧
      plainKey.length + 30 ≤ maxLength ∧
      ∃ key : Rsa.PrivateKey, readPrivateKey alone none = .ok key ∧
        readPrivateKey contained (some [112]) = .ok key ∧ key.modulus = key.p * key.q ∧
        key.publicExponent < key.modulus ∧
        key.publicExponent * key.privateExponent % (key.p - 1) = 1 ∧
        key.publicExponent * key.privateExponent % (key.q - 1) = 1 := by
  intro alone contained
  have aloneParsed := Pem.parse_render (isPlain_pkcs1 plainKey)
  have containedParsed := Pem.parse_render (isPlain_pkcs8 (encodeContainer plainKey))
  have short : plainKey.length + 30 ≤ maxLength := by decide
  refine ⟨aloneParsed, containedParsed, short, ?_⟩
  obtain ⟨valid, agree, -⟩ :=
    readPrivateKey_contained plainKey alone contained _ aloneParsed containedParsed rfl rfl none
      (some [112])
  rcases agree short with ⟨key, here, there⟩ | ⟨failed, -⟩
  · obtain ⟨factors, -, -, -, -, -, -, below, inverseP, inverseQ⟩ := valid key (.inl here)
    exact ⟨key, here, there, factors, below, inverseP, inverseQ⟩
  · obtain ⟨key, read⟩ :=
      Option.isSome_iff_exists.mp (by decide +kernel : (ofPkcs1? plainKey).isSome)
    cases failed.symm.trans (readPrivateKey_keyText read none)

/-- A key that is just as long as what is read has no container that is read. -/
theorem readPrivateKey_paddedKey {zeros : Nat} (large : 2 ^ 24 ≤ zeros)
    (longest : zeros + 37 = maxLength) :
    (∃ key, readPrivateKey (keyText (paddedKey zeros)) none = .ok key ∧ key.modulus = 33) ∧
    readPrivateKey (Pem.render ⟨pkcs8Tag, [], encodeContainer (paddedKey zeros)⟩) none =
      .error .invalidPkcs8 := by
  have length : (paddedKey zeros).length = maxLength :=
    (length_paddedKey large (Nat.le_of_eq longest)).trans longest
  have long : maxLength < (paddedKey zeros).length + 30 := by omega
  obtain ⟨key, read, modulus⟩ := ofPkcs1?_paddedKey (Nat.le_of_eq length)
  constructor
  · exact ⟨key, readPrivateKey_keyText read none, modulus⟩
  · rw [readPrivateKey_of_pkcs8 (Pem.parse_render (isPlain_pkcs8 _)) rfl,
      ofPkcs8?_encodeContainer_of_lt long]

/-- A key of the greatest length is read alone, and not in its container. -/
theorem readPrivateKey_ne_contained :
    let content := paddedKey (maxLength - 37)
    let alone := keyText content
    let contained := Pem.render ⟨pkcs8Tag, [], encodeContainer content⟩
    Pem.parse alone = .ok ⟨pkcs1Tag, [], content⟩ ∧
      Pem.parse contained = .ok ⟨pkcs8Tag, [], encodeContainer content⟩ ∧
      (∃ key, readPrivateKey alone none = .ok key ∧ key.modulus = 33) ∧
      readPrivateKey contained none = .error .invalidPkcs8 :=
  ⟨Pem.parse_render (isPlain_pkcs1 _), Pem.parse_render (isPlain_pkcs8 _),
    readPrivateKey_paddedKey (by decide) (by decide)⟩

end Credential

end RequestSigning
