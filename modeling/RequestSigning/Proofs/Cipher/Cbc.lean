import RequestSigning.Cipher.Cbc
import RequestSigning.Proofs.Bytes
set_option autoImplicit false

namespace RequestSigning

namespace BlockCipher

variable {cipher : BlockCipher} {key block : Bytes}

/-- There are finitely many blocks, and no two of them are encrypted alike, so that every block
is one that was encrypted. -/
theorem IsLawful.exists_encrypt (lawful : cipher.IsLawful) (sized : key.length = cipher.keySize)
    (whole : block.length = cipher.blockSize) :
    ∃ plain, plain.length = cipher.blockSize ∧
      cipher.encrypt (cipher.prepare key) plain = block := by
  let step : List.Vector UInt8 cipher.blockSize → List.Vector UInt8 cipher.blockSize := fun plain =>
    ⟨cipher.encrypt (cipher.prepare key) plain.1, lawful.length_encrypt key _ sized plain.2⟩
  have injective : Function.Injective step := by
    intro left right same
    have hidden := congrArg (cipher.decrypt (cipher.prepare key)) (Subtype.ext_iff.mp same)
    rw [lawful.decrypt_encrypt key _ sized left.2, lawful.decrypt_encrypt key _ sized right.2]
      at hidden
    exact Subtype.ext hidden
  obtain ⟨plain, same⟩ := Finite.injective_iff_surjective.mp injective ⟨block, whole⟩
  exact ⟨plain.1, plain.2, Subtype.ext_iff.mp same⟩

theorem IsLawful.length_decrypt (lawful : cipher.IsLawful) (sized : key.length = cipher.keySize)
    (whole : block.length = cipher.blockSize) :
    (cipher.decrypt (cipher.prepare key) block).length = cipher.blockSize := by
  obtain ⟨plain, length, rfl⟩ := lawful.exists_encrypt sized whole
  rw [lawful.decrypt_encrypt key plain sized length, length]

theorem IsLawful.encrypt_decrypt (lawful : cipher.IsLawful) (sized : key.length = cipher.keySize)
    (whole : block.length = cipher.blockSize) :
    cipher.encrypt (cipher.prepare key) (cipher.decrypt (cipher.prepare key) block) = block := by
  obtain ⟨plain, length, rfl⟩ := lawful.exists_encrypt sized whole
  rw [lawful.decrypt_encrypt key plain sized length]

end BlockCipher

namespace Padding

variable {size : Nat}

theorem length_add (size_pos : 0 < size) (bytes : Bytes) :
    (add size bytes).length % size = 0 := by
  have part := Nat.mod_lt bytes.length size_pos
  have whole : (add size bytes).length = size * (bytes.length / size + 1) := by
    have parts := Nat.div_add_mod bytes.length size
    simp only [add, List.length_append, List.length_replicate, Nat.mul_add]
    omega
  rw [whole, Nat.mul_mod_right]

/-- Padding that was added is taken off again. -/
theorem strip?_add (size_pos : 0 < size) (size_lt : size < 256) (bytes : Bytes) :
    strip? size (add size bytes) = some bytes := by
  have part := Nat.mod_lt bytes.length size_pos
  let count := size - bytes.length % size
  have positive : 1 ≤ count := by
    simp only [count]
    omega
  have le : count ≤ size := Nat.sub_le _ _
  have number : (UInt8.ofNat count).toNat = count :=
    UInt8.toNat_ofNat_of_lt' (Nat.lt_of_le_of_lt le size_lt)
  have written : add size bytes = bytes ++ List.replicate count (UInt8.ofNat count) := rfl
  have last : (add size bytes).getLast? = some (UInt8.ofNat count) := by
    rw [written, List.getLast?_append, List.getLast?_replicate,
      if_neg (Nat.one_le_iff_ne_zero.mp positive), Option.some_or]
  have length : (add size bytes).length - count = bytes.length := by
    rw [written, List.length_append, List.length_replicate, Nat.add_sub_cancel]
  have covered : count ≤ (add size bytes).length := by
    rw [written, List.length_append, List.length_replicate]
    exact Nat.le_add_left _ _
  have tail : (add size bytes).drop bytes.length = List.replicate count (UInt8.ofNat count) := by
    rw [written, List.drop_left]
  have kept : (add size bytes).take bytes.length = bytes := by
    rw [written, List.take_left]
  rw [strip?, last]
  simp only [number, length, kept, tail]
  rw [if_pos ⟨positive, le, covered, trivial⟩]

theorem length_of_mem_chunks_add (size_pos : 0 < size) (bytes : Bytes) :
    ∀ block ∈ (add size bytes).chunks size, block.length = size := fun _ inside =>
  Bytes.length_of_mem_chunks (length_add size_pos bytes) inside

theorem lt_length_add (size_pos : 0 < size) (bytes : Bytes) :
    bytes.length < (add size bytes).length := by
  have part := Nat.mod_lt bytes.length size_pos
  rw [add, List.length_append, List.length_replicate]
  omega

theorem length_add_le (size : Nat) (bytes : Bytes) :
    (add size bytes).length ≤ bytes.length + size := by
  rw [add, List.length_append, List.length_replicate]
  omega

/-- What is missing from the last block is the count that fills it. -/
theorem sub_mod_eq {length count : Nat} (positive : 1 ≤ count) (le : count ≤ size)
    (whole : (length + count) % size = 0) : size - length % size = count := by
  obtain ⟨blocks, parts⟩ := Nat.dvd_of_mod_eq_zero whole
  cases blocks with
  | zero => omega
  | succ before =>
    have split : length = size - count + size * before := by
      rw [Nat.mul_succ] at parts
      omega
    rw [split, Nat.add_mul_mod_self_left, Nat.mod_eq_of_lt (by omega)]
    omega

/-- What is left of whole blocks is what they were padded from. -/
theorem eq_add_of_strip? {bytes kept : Bytes} (whole : bytes.length % size = 0)
    (stripped : strip? size bytes = some kept) : bytes = add size kept := by
  rw [strip?] at stripped
  split at stripped
  · cases stripped
  · rename_i last _
    dsimp only at stripped
    split at stripped
    · rename_i padded
      obtain ⟨positive, le, covered, tail⟩ := padded
      have taken : bytes.take (bytes.length - last.toNat) = kept := Option.some.inj stripped
      have parts : bytes = kept ++ List.replicate last.toNat last := by
        rw [← taken, ← tail, List.take_append_drop]
      rw [parts, List.length_append, List.length_replicate] at whole
      rw [add, sub_mod_eq positive le whole, UInt8.ofNat_toNat]
      exact parts
    · cases stripped

end Padding

namespace Cbc

variable {size : Nat} {encrypt decrypt : Bytes → Bytes}

theorem length_encryptBlocks
    (sized : ∀ block : Bytes, block.length = size → (encrypt block).length = size)
    (blocks : List Bytes) (whole : ∀ block ∈ blocks, block.length = size) (previous : Bytes)
    (chained : previous.length = size) :
    (encryptBlocks encrypt previous blocks).length = blocks.flatten.length := by
  induction blocks generalizing previous with
  | nil => rfl
  | cons block blocks ih =>
    obtain ⟨here, later⟩ := List.forall_mem_cons.mp whole
    have mixed : (Bytes.xor block previous).length = size := by
      rw [Bytes.length_xor, here, chained, min_self]
    have hidden := sized _ mixed
    rw [encryptBlocks, List.length_append, hidden, ih later _ hidden, List.flatten_cons,
      List.length_append, here]

theorem length_decryptBlocks
    (sized : ∀ block : Bytes, block.length = size → (decrypt block).length = size)
    (blocks : List Bytes) (whole : ∀ block ∈ blocks, block.length = size) (previous : Bytes)
    (chained : previous.length = size) :
    (decryptBlocks decrypt previous blocks).length = blocks.flatten.length := by
  induction blocks generalizing previous with
  | nil => rfl
  | cons hidden blocks ih =>
    obtain ⟨here, later⟩ := List.forall_mem_cons.mp whole
    rw [decryptBlocks, List.length_append, Bytes.length_xor, sized _ here, chained, min_self,
      ih later _ here, List.flatten_cons, List.length_append, here]

/-- Each block is decrypted, and what it was added to is taken away. -/
theorem decryptBlocks_encryptBlocks (size_pos : 0 < size)
    (sized : ∀ block : Bytes, block.length = size → (encrypt block).length = size)
    (undone : ∀ block : Bytes, block.length = size → decrypt (encrypt block) = block)
    (blocks : List Bytes) (whole : ∀ block ∈ blocks, block.length = size) (previous : Bytes)
    (chained : previous.length = size) :
    decryptBlocks decrypt previous (Bytes.chunks size (encryptBlocks encrypt previous blocks)) =
      blocks.flatten := by
  induction blocks generalizing previous with
  | nil => rfl
  | cons block blocks ih =>
    obtain ⟨here, later⟩ := List.forall_mem_cons.mp whole
    have mixed : (Bytes.xor block previous).length = size := by
      rw [Bytes.length_xor, here, chained, min_self]
    have hidden := sized _ mixed
    rw [encryptBlocks, Bytes.chunks_append size_pos hidden, decryptBlocks, undone _ mixed,
      Bytes.xor_xor_cancel _ _ (by rw [here, chained]), ih later _ hidden, List.flatten_cons]

/-- Blocks that were decrypted are encrypted to what they were. -/
theorem encryptBlocks_decryptBlocks (size_pos : 0 < size)
    (sized : ∀ block : Bytes, block.length = size → (decrypt block).length = size)
    (undone : ∀ block : Bytes, block.length = size → encrypt (decrypt block) = block)
    (blocks : List Bytes) (whole : ∀ block ∈ blocks, block.length = size) (previous : Bytes)
    (chained : previous.length = size) :
    encryptBlocks encrypt previous (Bytes.chunks size (decryptBlocks decrypt previous blocks)) =
      blocks.flatten := by
  induction blocks generalizing previous with
  | nil => rfl
  | cons hidden blocks ih =>
    obtain ⟨here, later⟩ := List.forall_mem_cons.mp whole
    have length := sized _ here
    have plain : (Bytes.xor (decrypt hidden) previous).length = size := by
      rw [Bytes.length_xor, length, chained, min_self]
    rw [decryptBlocks, Bytes.chunks_append size_pos plain, encryptBlocks,
      Bytes.xor_xor_cancel _ _ (by rw [length, chained]), undone _ here, ih later _ here,
      List.flatten_cons]

theorem length_encrypt {cipher : BlockCipher} (lawful : cipher.IsLawful) {key iv : Bytes}
    (keyLength : key.length = cipher.keySize) (ivLength : iv.length = cipher.blockSize)
    (plain : Bytes) :
    (Cbc.encrypt cipher key iv plain).length = (Padding.add cipher.blockSize plain).length := by
  have size_pos := lawful.blockSize_pos
  have sized (block : Bytes) (whole : block.length = cipher.blockSize) :=
    lawful.length_encrypt key block keyLength whole
  have whole := Padding.length_of_mem_chunks_add size_pos plain
  rw [Cbc.encrypt, length_encryptBlocks sized _ whole iv ivLength, Bytes.flatten_chunks size_pos]

/-- Under a lawful cipher every text is decrypted to what was encrypted. -/
theorem decrypt?_encrypt {cipher : BlockCipher} (lawful : cipher.IsLawful) {key iv : Bytes}
    (keyLength : key.length = cipher.keySize) (ivLength : iv.length = cipher.blockSize)
    (plain : Bytes) : decrypt? cipher key iv (Cbc.encrypt cipher key iv plain) = some plain := by
  have size_pos := lawful.blockSize_pos
  have sized (block : Bytes) (whole : block.length = cipher.blockSize) :=
    lawful.length_encrypt key block keyLength whole
  have undone (block : Bytes) (whole : block.length = cipher.blockSize) :=
    lawful.decrypt_encrypt key block keyLength whole
  have whole := Padding.length_of_mem_chunks_add size_pos plain
  have divides : (Cbc.encrypt cipher key iv plain).length % cipher.blockSize = 0 := by
    rw [length_encrypt lawful keyLength ivLength, Padding.length_add size_pos]
  rw [decrypt?, if_pos divides, Cbc.encrypt]
  dsimp only
  rw [decryptBlocks_encryptBlocks size_pos sized undone _ whole iv ivLength,
    Bytes.flatten_chunks size_pos, Padding.strip?_add size_pos lawful.blockSize_lt]

/-- What is decrypted, encryption makes of the text that is left. -/
theorem eq_encrypt_of_decrypt? {cipher : BlockCipher} (lawful : cipher.IsLawful)
    {key iv hidden plain : Bytes} (keyLength : key.length = cipher.keySize)
    (ivLength : iv.length = cipher.blockSize)
    (decrypted : decrypt? cipher key iv hidden = some plain) :
    hidden = Cbc.encrypt cipher key iv plain := by
  have size_pos := lawful.blockSize_pos
  have sized (block : Bytes) (whole : block.length = cipher.blockSize) :=
    lawful.length_decrypt keyLength whole
  have undone (block : Bytes) (whole : block.length = cipher.blockSize) :=
    lawful.encrypt_decrypt keyLength whole
  rw [decrypt?] at decrypted
  split at decrypted
  next divides =>
    have whole : ∀ block ∈ hidden.chunks cipher.blockSize, block.length = cipher.blockSize :=
      fun _ inside => Bytes.length_of_mem_chunks divides inside
    have length := length_decryptBlocks sized _ whole iv ivLength
    rw [Bytes.flatten_chunks size_pos] at length
    have padded := Padding.eq_add_of_strip? (by rw [length, divides]) decrypted
    rw [Cbc.encrypt, ← padded,
      encryptBlocks_decryptBlocks size_pos sized undone _ whole iv ivLength,
      Bytes.flatten_chunks size_pos]
  next => cases decrypted

/-- A text is decrypted exactly if it is what encryption makes of some text. -/
theorem decrypt?_eq_some_iff {cipher : BlockCipher} (lawful : cipher.IsLawful)
    {key iv hidden plain : Bytes} (keyLength : key.length = cipher.keySize)
    (ivLength : iv.length = cipher.blockSize) :
    decrypt? cipher key iv hidden = some plain ↔ hidden = Cbc.encrypt cipher key iv plain := by
  constructor
  · exact eq_encrypt_of_decrypt? lawful keyLength ivLength
  · rintro rfl
    exact decrypt?_encrypt lawful keyLength ivLength plain

end Cbc

end RequestSigning
