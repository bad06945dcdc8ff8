import RequestSigning.Certificate.Name
import RequestSigning.Proofs.Der.Value
set_option autoImplicit false

namespace RequestSigning.Certificate

open Der

namespace NameAttribute

variable {left middle right : NameAttribute}

theorem le_iff : left.le right = true ↔ left.encode ≤ right.encode := by
  rw [NameAttribute.le, bne_iff_ne, Bytes.compare_ne_gt_iff]

theorem le_trans (first : left.le middle = true) (second : middle.le right = true) :
    left.le right = true :=
  le_iff.mpr (List.le_trans (le_iff.mp first) (le_iff.mp second))

theorem le_total (left right : NameAttribute) : (left.le right || right.le left) = true := by
  rw [Bool.or_eq_true, le_iff, le_iff]
  exact List.le_total _ _

/-- What stands inside the SEQUENCE of an attribute. -/
def content (entry : NameAttribute) : Bytes :=
  entry.type.encode ++ entry.value.encode

theorem encode_eq (entry : NameAttribute) :
    entry.encode = Element.encode ⟨Tag.sequence, entry.content⟩ := by
  simp only [encode, encodeSequence, content, List.flatten_cons, List.flatten_nil, List.append_nil]

theorem encode_ne_nil (entry : NameAttribute) : entry.encode ≠ [] :=
  Element.encode_ne_nil _

@[mk_iff] structure IsReadable (entry : NameAttribute) : Prop where
  type : entry.type.IsReadable
  value : entry.value.IsReadable
  sequence : Element.IsReadable ⟨Tag.sequence, entry.content⟩

instance (entry : NameAttribute) : Decidable entry.IsReadable :=
  decidable_of_iff' _ (isReadable_iff entry)

theorem reads : NameAttribute.read.Reads IsReadable encode id := by
  rw [Reader.reads_id_iff]
  intro bytes entry rest
  rw [NameAttribute.read, encode_eq, Reader.run_pair_eq_some_iff Oid.reads Reader.reads_any]
  constructor
  · rintro ⟨type, value, typeReadable, valueReadable, sequence, rfl, rfl⟩
    exact ⟨⟨typeReadable, valueReadable, sequence⟩, rfl⟩
  · rintro ⟨⟨typeReadable, valueReadable, sequence⟩, rfl⟩
    exact ⟨entry.type, entry.value, typeReadable, valueReadable, sequence, rfl, rfl⟩

end NameAttribute

namespace RelativeName

variable {attributes name : RelativeName}

/-- The attributes in the order in which a set has its members. -/
def sorted (attributes : RelativeName) : RelativeName :=
  attributes.mergeSort NameAttribute.le

def IsSorted (attributes : RelativeName) : Prop :=
  attributes.Pairwise fun left right => left.le right = true

instance (attributes : RelativeName) : Decidable (IsSorted attributes) :=
  inferInstanceAs (Decidable (attributes.Pairwise fun left right => left.le right = true))

theorem sorted_perm (attributes : RelativeName) : (sorted attributes).Perm attributes :=
  List.mergeSort_perm attributes NameAttribute.le

theorem isSorted_sorted (attributes : RelativeName) : IsSorted (sorted attributes) := by
  rw [IsSorted, sorted]
  apply List.pairwise_mergeSort
  · exact fun _ _ _ => NameAttribute.le_trans
  · exact NameAttribute.le_total

theorem sorted_of_isSorted (ordered : IsSorted attributes) : sorted attributes = attributes :=
  List.mergeSort_of_pairwise ordered

theorem ofList?_eq_some_iff :
    ofList? attributes = some name ↔ attributes.Nodup ∧ sorted attributes = name := by
  have distinct : (sorted attributes).Nodup ↔ attributes.Nodup := (sorted_perm attributes).nodup_iff
  rw [sorted] at distinct
  rw [ofList?, Option.ite_none_right_eq_some, Option.some.injEq, distinct, sorted]

@[mk_iff] structure IsReadable (attributes : RelativeName) : Prop where
  distinct : attributes.Nodup
  each : ∀ entry ∈ attributes, entry.IsReadable
  set : Element.IsReadable ⟨Tag.set, attributes.flatMap NameAttribute.encode⟩

instance (attributes : RelativeName) : Decidable (IsReadable attributes) :=
  decidable_of_iff' _ (isReadable_iff attributes)

theorem encode_ne_nil (attributes : RelativeName) : encode attributes ≠ [] :=
  Element.encode_ne_nil _

theorem reads : RelativeName.read.Reads IsReadable encode sorted := by
  intro bytes name rest
  rw [RelativeName.read]
  simp only [Reader.run_bind_eq_some_iff, Reader.run_liftM_eq_some_iff, ofList?_eq_some_iff,
    Reader.reads_members NameAttribute.reads NameAttribute.encode_ne_nil Tag.set _ _ _, existsAndEq,
    List.map_id, and_true, true_and]
  constructor
  · rintro ⟨attributes, ⟨⟨each, set⟩, rfl⟩, distinct, rfl⟩
    exact ⟨attributes, ⟨distinct, each, set⟩, rfl, rfl⟩
  · rintro ⟨attributes, ⟨distinct, each, set⟩, rfl, rfl⟩
    exact ⟨attributes, ⟨⟨each, set⟩, rfl⟩, distinct, rfl⟩

theorem length_flatMap_sorted (attributes : RelativeName) :
    ((sorted attributes).flatMap NameAttribute.encode).length =
      (attributes.flatMap NameAttribute.encode).length :=
  ((sorted_perm attributes).flatMap_right NameAttribute.encode).length_eq

theorem length_encode_sorted (attributes : RelativeName) :
    (encode (sorted attributes)).length = (encode attributes).length := by
  rw [encode, encode, Element.length_encode, Element.length_encode]
  dsimp only
  rw [length_flatMap_sorted]

theorem IsReadable.sorted (readable : IsReadable attributes) : IsReadable (sorted attributes) where
  distinct := (sorted_perm attributes).nodup_iff.mpr readable.distinct
  each entry inside := readable.each entry ((sorted_perm attributes).mem_iff.mp inside)
  set := readable.set.of_length_le (Nat.le_of_eq (length_flatMap_sorted attributes))

end RelativeName

namespace Name

variable {name : Name}

def sorted (name : Name) : Name :=
  name.map RelativeName.sorted

def IsSorted (name : Name) : Prop :=
  ∀ attributes ∈ name, RelativeName.IsSorted attributes

instance (name : Name) : Decidable (IsSorted name) :=
  inferInstanceAs (Decidable (∀ attributes ∈ name, RelativeName.IsSorted attributes))

@[mk_iff] structure IsReadable (name : Name) : Prop where
  each : ∀ attributes ∈ name, RelativeName.IsReadable attributes
  sequence : Element.IsReadable ⟨Tag.sequence, name.flatMap RelativeName.encode⟩

instance (name : Name) : Decidable (IsReadable name) :=
  decidable_of_iff' _ (isReadable_iff name)

theorem reads : Name.read.Reads IsReadable encode sorted := by
  intro bytes value rest
  rw [Name.read, Reader.reads_members RelativeName.reads RelativeName.encode_ne_nil Tag.sequence]
  constructor
  · rintro ⟨name, ⟨each, sequence⟩, rfl, rfl⟩
    exact ⟨name, ⟨each, sequence⟩, rfl, rfl⟩
  · rintro ⟨name, ⟨each, sequence⟩, rfl, rfl⟩
    exact ⟨name, ⟨each, sequence⟩, rfl, rfl⟩

theorem isSorted_sorted (name : Name) : IsSorted (sorted name) := by
  intro attributes inside
  obtain ⟨written, -, rfl⟩ := List.mem_map.mp inside
  exact RelativeName.isSorted_sorted written

theorem sorted_of_isSorted (ordered : IsSorted name) : sorted name = name := by
  have kept : ∀ attributes ∈ name, RelativeName.sorted attributes = attributes :=
    fun attributes inside => RelativeName.sorted_of_isSorted (ordered attributes inside)
  rw [sorted, List.map_congr_left kept, List.map_id']

theorem sorted_sorted (name : Name) : sorted (sorted name) = sorted name :=
  sorted_of_isSorted (isSorted_sorted name)

theorem length_flatMap_sorted_le (name : Name) :
    ((sorted name).flatMap RelativeName.encode).length ≤
      (name.flatMap RelativeName.encode).length :=
  length_flatMap_map_le fun attributes _ =>
    Nat.le_of_eq (RelativeName.length_encode_sorted attributes)

theorem length_encode_sorted_le (name : Name) :
    (encode (sorted name)).length ≤ (encode name).length :=
  Element.length_encode_mono (length_flatMap_sorted_le name)

theorem IsReadable.sorted (readable : IsReadable name) : IsReadable (Name.sorted name) where
  each := by
    intro attributes inside
    obtain ⟨written, listed, rfl⟩ := List.mem_map.mp inside
    exact (readable.each written listed).sorted
  sequence := readable.sequence.of_length_le (length_flatMap_sorted_le name)

end Name

end RequestSigning.Certificate
