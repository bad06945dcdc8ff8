import RequestSigning.Certificate.Extension
import RequestSigning.Proofs.Der.Value
set_option autoImplicit false

namespace RequestSigning.Certificate

open Der

namespace Extension

/-- An extension as it is written, which may say that it is not critical. -/
structure Layout where
  type : Oid
  critical : Option Bool
  value : Bytes

namespace Layout

/-- What stands inside the SEQUENCE of an extension. -/
def content (layout : Layout) : Bytes :=
  layout.type.encode ++
    ((layout.critical.map fun value => Element.encode ⟨Tag.boolean, booleanContent value⟩).getD [] ++
      Element.encode ⟨Tag.octetString, layout.value⟩)

def encode (layout : Layout) : Bytes :=
  Element.encode ⟨Tag.sequence, layout.content⟩

def extension (layout : Layout) : Extension :=
  ⟨layout.type, layout.critical.getD false, layout.value⟩

@[mk_iff] structure IsReadable (layout : Layout) : Prop where
  type : layout.type.IsReadable
  value : Element.IsReadable ⟨Tag.octetString, layout.value⟩
  sequence : Element.IsReadable ⟨Tag.sequence, layout.content⟩

instance (layout : Layout) : Decidable layout.IsReadable :=
  decidable_of_iff' _ (isReadable_iff layout)

theorem encode_ne_nil (layout : Layout) : layout.encode ≠ [] :=
  Element.encode_ne_nil _

theorem reads : Extension.read.Reads IsReadable encode extension := by
  intro bytes result rest
  rw [Extension.read]
  have announced (value : Bool) (rest : Bytes) :
      (Element.encode ⟨Tag.boolean, booleanContent value⟩ ++ rest).head? = some Tag.boolean :=
    Reader.head?_encode_append _ rest
  simp only [Reader.run_nested_eq_some_iff, Reader.whole_eq_some_iff, Reader.run_bind_eq_some_iff,
    Reader.run_pure_eq_some_iff, Reader.reads_id_iff.mp Oid.reads _ _ _,
    Reader.run_optional_eq_some_iff reads_boolean announced, Reader.octetString,
    Reader.run_content_eq_some_iff, existsAndEq, true_and, and_assoc, List.append_nil,
    Option.map_id, id]
  constructor
  · rintro ⟨type, critical, value, sequence, typeReadable, -, -, valueReadable, rfl, rfl⟩
    exact ⟨⟨type, critical, value⟩, ⟨typeReadable, valueReadable, sequence⟩, rfl, rfl⟩
  · rintro ⟨⟨type, critical, value⟩, ⟨typeReadable, valueReadable, sequence⟩, rfl, rfl⟩
    have other : (Element.encode ⟨Tag.octetString, value⟩).head? ≠ some Tag.boolean :=
      (by decide : some Tag.octetString ≠ some Tag.boolean)
    exact ⟨type, critical, value, sequence, typeReadable, fun _ _ => trivial, fun _ => other,
      valueReadable, rfl, rfl⟩

/-- The layout in which the extension is encoded: the default is left out. -/
def canonical (layout : Layout) : Layout :=
  { layout with critical := if layout.critical = some true then some true else none }

def OmitsDefault (layout : Layout) : Prop :=
  layout.critical ≠ some false

instance (layout : Layout) : Decidable layout.OmitsDefault :=
  inferInstanceAs (Decidable (_ ≠ _))

variable {layout : Layout}

theorem extension_canonical (layout : Layout) : layout.canonical.extension = layout.extension := by
  obtain ⟨type, critical, value⟩ := layout
  rcases critical with _ | _ | _ <;> rfl

theorem encode_canonical (layout : Layout) :
    layout.canonical.encode = layout.extension.encode := by
  obtain ⟨type, critical, value⟩ := layout
  rcases critical with _ | _ | _ <;>
    simp only [canonical, encode, content, extension, Extension.encode, encodeSequence,
      List.flatten_cons, List.flatten_nil, List.append_nil] <;> rfl

theorem canonical_of_omitsDefault (omits : layout.OmitsDefault) : layout.canonical = layout := by
  obtain ⟨type, critical, value⟩ := layout
  rcases critical with _ | _ | _
  · rfl
  · exact (omits rfl).elim
  · rfl

theorem length_content_canonical_le (layout : Layout) :
    layout.canonical.content.length ≤ layout.content.length := by
  obtain ⟨type, critical, value⟩ := layout
  rcases critical with _ | _ | _
  · exact Nat.le_refl _
  · simp only [canonical, content, List.length_append]
    exact Nat.add_le_add_left (Nat.add_le_add_right (Nat.zero_le _) _) _
  · exact Nat.le_refl _

theorem length_encode_canonical_le (layout : Layout) :
    layout.canonical.encode.length ≤ layout.encode.length :=
  Element.length_encode_mono layout.length_content_canonical_le

theorem IsReadable.canonical (readable : layout.IsReadable) : layout.canonical.IsReadable where
  type := readable.type
  value := readable.value
  sequence := readable.sequence.of_length_le layout.length_content_canonical_le

end Layout

end Extension

namespace Extensions

/-- Extensions as they are written. -/
abbrev Layout := List Extension.Layout

namespace Layout

variable {layout : Layout}

def content (layout : Layout) : Bytes :=
  layout.flatMap Extension.Layout.encode

def encode (layout : Layout) : Bytes :=
  Element.encode ⟨Tag.sequence, content layout⟩

def extensions (layout : Layout) : List Extension :=
  layout.map Extension.Layout.extension

@[mk_iff] structure IsReadable (layout : Layout) : Prop where
  each : ∀ extension ∈ layout, extension.IsReadable
  sequence : Element.IsReadable ⟨Tag.sequence, content layout⟩

instance (layout : Layout) : Decidable (IsReadable layout) :=
  decidable_of_iff' _ (isReadable_iff layout)

theorem reads : readExtensions.Reads IsReadable encode extensions := by
  intro bytes result rest
  rw [readExtensions, Reader.reads_members Extension.Layout.reads Extension.Layout.encode_ne_nil]
  constructor
  · rintro ⟨layout, ⟨each, sequence⟩, rfl, rfl⟩
    exact ⟨layout, ⟨each, sequence⟩, rfl, rfl⟩
  · rintro ⟨layout, ⟨each, sequence⟩, rfl, rfl⟩
    exact ⟨layout, ⟨each, sequence⟩, rfl, rfl⟩

def canonical (layout : Layout) : Layout :=
  layout.map Extension.Layout.canonical

def OmitsDefaults (layout : Layout) : Prop :=
  ∀ extension ∈ layout, extension.OmitsDefault

instance (layout : Layout) : Decidable (OmitsDefaults layout) :=
  inferInstanceAs (Decidable (∀ extension ∈ layout, extension.OmitsDefault))

theorem extensions_canonical (layout : Layout) :
    extensions (canonical layout) = extensions layout := by
  simp only [extensions, canonical, List.map_map, Function.comp_def,
    Extension.Layout.extension_canonical]

theorem encode_canonical (layout : Layout) :
    encode (canonical layout) = encodeExtensions (extensions layout) := by
  simp only [encode, content, canonical, encodeExtensions, extensions, List.flatMap_map,
    Extension.Layout.encode_canonical]

theorem canonical_of_omitsDefaults (omits : OmitsDefaults layout) : canonical layout = layout := by
  have kept : ∀ extension ∈ layout, extension.canonical = extension :=
    fun extension inside => Extension.Layout.canonical_of_omitsDefault (omits extension inside)
  rw [canonical, List.map_congr_left kept, List.map_id']

theorem length_content_canonical_le (layout : Layout) :
    (content (canonical layout)).length ≤ (content layout).length :=
  length_flatMap_map_le fun extension _ => extension.length_encode_canonical_le

theorem length_encode_canonical_le (layout : Layout) :
    (encode (canonical layout)).length ≤ (encode layout).length :=
  Element.length_encode_mono (length_content_canonical_le layout)

theorem IsReadable.canonical (readable : IsReadable layout) :
    IsReadable (Layout.canonical layout) where
  each := by
    intro extension inside
    obtain ⟨written, listed, rfl⟩ := List.mem_map.mp inside
    exact (readable.each written listed).canonical
  sequence := readable.sequence.of_length_le (length_content_canonical_le layout)

end Layout

end Extensions

end RequestSigning.Certificate
