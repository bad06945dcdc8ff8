import RequestSigning.Der.Element
import RequestSigning.Proofs.Bytes
set_option autoImplicit false

namespace RequestSigning.Der

variable {bytes rest : Bytes} {n m : Nat}

section Lengths

theorem width_le_four (short : n ≤ maxLength) : Bytes.width n ≤ 4 := by
  rw [Bytes.width_le_iff]
  exact Nat.lt_of_le_of_lt short (by decide)

theorem length_encodeLength (n : Nat) :
    (encodeLength n).length = if n < 128 then 1 else Bytes.width n + 1 := by
  rw [encodeLength]
  split
  · rfl
  · rw [List.length_cons, Bytes.length_ofNat]

theorem length_encodeLength_le (short : n ≤ maxLength) : (encodeLength n).length ≤ 5 := by
  have width := width_le_four short
  rw [length_encodeLength]
  split <;> omega

/-- From 16 MiB on, a length takes four bytes and the one that says so. -/
theorem five_le_length_encodeLength (long : 2 ^ 24 ≤ n) : 5 ≤ (encodeLength n).length := by
  have wide : ¬ Bytes.width n ≤ 3 := by
    rw [Bytes.width_le_iff]
    omega
  rw [length_encodeLength]
  split <;> omega

theorem length_encodeLength_mono (le : n ≤ m) :
    (encodeLength n).length ≤ (encodeLength m).length := by
  have widths : Bytes.width n ≤ Bytes.width m :=
    Bytes.width_le_iff.mpr (Nat.lt_of_le_of_lt le (Bytes.lt_pow_width m))
  rw [length_encodeLength, length_encodeLength]
  split <;> split <;> omega

theorem readLength_encodeLength (short : n ≤ maxLength) (rest : Bytes) :
    readLength (encodeLength n ++ rest) = some (n, rest) := by
  rw [encodeLength]
  split
  · rename_i small
    have byte : (UInt8.ofNat n).toNat = n := by
      rw [UInt8.toNat_ofNat']
      omega
    have below : UInt8.ofNat n < 128 := by
      rw [UInt8.lt_iff_toNat_lt, byte]
      exact small
    rw [List.singleton_append, readLength, if_pos below, byte]
  · rename_i large
    have four := width_le_four short
    have long : 128 ≤ n := Nat.le_of_not_lt large
    have byte : (UInt8.ofNat (128 + Bytes.width n)).toNat = 128 + Bytes.width n := by
      rw [UInt8.toNat_ofNat']
      omega
    have above : ¬ UInt8.ofNat (128 + Bytes.width n) < 128 := by
      rw [UInt8.lt_iff_toNat_lt, byte]
      exact Nat.not_lt.mpr (Nat.le_add_right 128 _)
    have digits : (Bytes.ofNat (Bytes.width n) n ++ rest).take (Bytes.width n) =
        Bytes.ofNat (Bytes.width n) n :=
      List.take_left' (Bytes.length_ofNat _ _)
    have left : (Bytes.ofNat (Bytes.width n) n ++ rest).drop (Bytes.width n) = rest :=
      List.drop_left' (Bytes.length_ofNat _ _)
    have number : Bytes.toNat (Bytes.ofNat (Bytes.width n) n) = n :=
      Bytes.toNat_ofNat _ _ (Bytes.lt_pow_width n)
    rw [List.cons_append, readLength, if_neg above, byte, Nat.add_sub_cancel_left]
    dsimp only
    rw [digits, left, number, Bytes.length_ofNat, if_pos ⟨four, rfl, short, long, rfl⟩]

/-- Each length that is read has one form. -/
theorem eq_encodeLength_of_readLength (read : readLength bytes = some (n, rest)) :
    n ≤ maxLength ∧ bytes = encodeLength n ++ rest := by
  cases bytes with
  | nil => cases read
  | cons b tail =>
    rw [readLength] at read
    split at read
    · rename_i small
      obtain ⟨rfl, rfl⟩ := Prod.mk.inj (Option.some.inj read)
      have below : b.toNat < 128 := UInt8.lt_iff_toNat_lt.mp small
      have short : b.toNat ≤ maxLength := Nat.le_trans (Nat.le_of_lt below) (by decide)
      refine ⟨short, ?_⟩
      rw [encodeLength, if_pos below, UInt8.ofNat_toNat, List.singleton_append]
    · rename_i large
      dsimp only at read
      split at read
      · rename_i proper
        obtain ⟨four, whole, short, long, minimal⟩ := proper
        obtain ⟨number, rfl⟩ := Prod.mk.inj (Option.some.inj read)
        rw [number] at short long minimal
        have above : 128 ≤ b.toNat := Nat.not_lt.mp fun small => large (UInt8.lt_iff_toNat_lt.mpr small)
        have size : 128 + (b.toNat - 128) = b.toNat := by omega
        have digits := Bytes.ofNat_toNat (tail.take (b.toNat - 128))
        rw [whole, number] at digits
        refine ⟨short, ?_⟩
        rw [encodeLength, if_neg (Nat.not_lt.mpr long), minimal, size, UInt8.ofNat_toNat, digits,
          List.cons_append, List.take_append_drop]
      · cases read

end Lengths

namespace Element

variable {element : Element} {left right : Bytes} {tag : UInt8}

/-- An element that is read back from its encoding. -/
@[mk_iff] structure IsReadable (element : Element) : Prop where
  known : Tag.isKnown element.tag = true
  short : element.content.length ≤ maxLength

instance (element : Element) : Decidable element.IsReadable :=
  decidable_of_iff' _ (isReadable_iff element)

theorem encode_append (element : Element) (rest : Bytes) :
    element.encode ++ rest =
      element.tag :: (encodeLength element.content.length ++ (element.content ++ rest)) := by
  rw [encode, List.cons_append, List.cons_append, List.append_assoc]

theorem encode_ne_nil (element : Element) : element.encode ≠ [] :=
  List.cons_ne_nil _ _

theorem length_encode (element : Element) :
    element.encode.length =
      (encodeLength element.content.length).length + element.content.length + 1 := by
  rw [encode, List.length_append, List.length_cons]
  omega

theorem length_encode_mono (le : left.length ≤ right.length) :
    (encode ⟨tag, left⟩).length ≤ (encode ⟨tag, right⟩).length := by
  have lengths := length_encodeLength_mono le
  rw [length_encode, length_encode]
  dsimp only
  omega

theorem IsReadable.of_length_le (readable : IsReadable ⟨tag, right⟩)
    (le : left.length ≤ right.length) : IsReadable ⟨tag, left⟩ :=
  ⟨readable.known, Nat.le_trans le readable.short⟩

/-- What is read off the front is the encoding of an element that can be read. -/
theorem read_eq_some_iff :
    read bytes = some (element, rest) ↔ element.IsReadable ∧ bytes = element.encode ++ rest := by
  constructor
  · intro success
    cases bytes with
    | nil => cases success
    | cons tag tail =>
      rw [read] at success
      split at success
      · rename_i known
        split at success
        · cases success
        · rename_i length remaining sized
          obtain ⟨short, rfl⟩ := eq_encodeLength_of_readLength sized
          split at success
          · rename_i inside
            obtain ⟨rfl, rfl⟩ := Prod.mk.inj (Option.some.inj success)
            have taken : (remaining.take length).length = length :=
              List.length_take_of_le inside
            refine ⟨⟨known, by rw [taken]; exact short⟩, ?_⟩
            rw [encode_append]
            dsimp only
            rw [taken, List.take_append_drop]
          · cases success
      · cases success
  · rintro ⟨readable, rfl⟩
    have inside : element.content.length ≤ (element.content ++ rest).length := by
      rw [List.length_append]
      exact Nat.le_add_right _ _
    rw [encode_append, read, if_pos readable.known, readLength_encodeLength readable.short]
    dsimp only
    rw [if_pos inside, List.take_left, List.drop_left]

end Element

/-- Values that each become no longer are no longer one after another. -/
theorem length_flatMap_map_le {α : Type} {change : α → α} {encode : α → Bytes} {values : List α}
    (each : ∀ value ∈ values, (encode (change value)).length ≤ (encode value).length) :
    ((values.map change).flatMap encode).length ≤ (values.flatMap encode).length := by
  induction values with
  | nil => exact Nat.le_refl _
  | cons value values ih =>
    obtain ⟨here, later⟩ := List.forall_mem_cons.mp each
    rw [List.map_cons, List.flatMap_cons, List.flatMap_cons, List.length_append, List.length_append]
    exact Nat.add_le_add here (ih later)

end RequestSigning.Der
