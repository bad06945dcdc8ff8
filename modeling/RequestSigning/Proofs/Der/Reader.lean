import RequestSigning.Der.Value
import RequestSigning.Proofs.Der.Element
set_option autoImplicit false

namespace RequestSigning.Der.Reader

variable {α β γ : Type} {reader : Reader α} {bytes rest content : Bytes} {value : α} {tag : UInt8}

section Running

theorem run_bind_eq_some_iff {next : α → Reader β} {result : β} :
    (reader >>= next).run bytes = some (result, rest) ↔
      ∃ value middle, reader.run bytes = some (value, middle) ∧
        (next value).run middle = some (result, rest) := by
  simp only [StateT.run_bind, Option.bind_eq_bind, Option.bind_eq_some_iff, Prod.exists]

theorem run_pure_eq_some_iff {result : α} :
    (pure value : Reader α).run bytes = some (result, rest) ↔ value = result ∧ bytes = rest := by
  simp only [StateT.run_pure, Option.pure_def, Option.some.injEq, Prod.mk.injEq]

theorem run_map_eq_some_iff {f : α → β} {result : β} :
    (f <$> reader).run bytes = some (result, rest) ↔
      ∃ value, reader.run bytes = some (value, rest) ∧ f value = result := by
  simp only [StateT.run_map, Option.map_eq_map, Option.map_eq_some_iff, Prod.exists, Prod.mk.injEq]
  constructor
  · rintro ⟨value, middle, success, same, rfl⟩
    exact ⟨value, success, same⟩
  · rintro ⟨value, success, same⟩
    exact ⟨value, rest, success, same, rfl⟩

theorem run_liftM_eq_some_iff {outcome : Option α} :
    (liftM outcome : Reader α).run bytes = some (value, rest) ↔
      outcome = some value ∧ bytes = rest := by
  cases outcome <;> simp

theorem run_failure_eq_some_iff :
    (failure : Reader α).run bytes = some (value, rest) ↔ False := by
  simp

theorem whole_eq_some_iff : reader.whole bytes = some value ↔ reader.run bytes = some (value, []) := by
  rw [whole]
  split
  · rename_i found success
    simp only [success, Option.some.injEq, Prod.mk.injEq, and_true]
  · rename_i otherwise
    constructor
    · intro none
      cases none
    · intro success
      exact (otherwise value success).elim

theorem ofInput_eq_some_iff :
    reader.ofInput bytes = some value ↔
      bytes.length ≤ maxLength ∧ reader.run bytes = some (value, []) := by
  rw [ofInput, ← whole_eq_some_iff]
  split
  · rename_i short
    simp only [short, true_and]
  · rename_i long
    simp only [long, false_and, reduceCtorEq]

theorem ofInput_of_lt (long : maxLength < bytes.length) : reader.ofInput bytes = none :=
  if_neg (Nat.not_le_of_lt long)

end Running

section Formats

/-- What the reader takes off the front is a layout of the value, and every layout is taken whole,
whatever follows it. A value may have more than one layout. -/
def Reads (reader : Reader α) (IsReadable : γ → Prop) (encode : γ → Bytes) (value : γ → α) : Prop :=
  ∀ bytes result rest, reader.run bytes = some (result, rest) ↔
    ∃ layout, IsReadable layout ∧ value layout = result ∧ bytes = encode layout ++ rest

variable {IsReadable : γ → Prop} {encode : γ → Bytes} {ofLayout : γ → α}

theorem Reads.run (reads : reader.Reads IsReadable encode ofLayout) {layout : γ}
    (readable : IsReadable layout) (rest : Bytes) :
    reader.run (encode layout ++ rest) = some (ofLayout layout, rest) :=
  (reads _ _ _).mpr ⟨layout, readable, rfl, rfl⟩

theorem Reads.whole_eq_some_iff (reads : reader.Reads IsReadable encode ofLayout) :
    reader.whole bytes = some value ↔
      ∃ layout, IsReadable layout ∧ ofLayout layout = value ∧ bytes = encode layout := by
  rw [Reader.whole_eq_some_iff, reads]
  simp only [List.append_nil]

theorem Reads.ofInput_eq_some_iff (reads : reader.Reads IsReadable encode ofLayout) :
    reader.ofInput bytes = some value ↔
      ∃ layout, IsReadable layout ∧ (encode layout).length ≤ maxLength ∧ ofLayout layout = value ∧
        bytes = encode layout := by
  rw [Reader.ofInput_eq_some_iff, reads]
  simp only [List.append_nil]
  constructor
  · rintro ⟨short, layout, readable, result, rfl⟩
    exact ⟨layout, readable, short, result, rfl⟩
  · rintro ⟨layout, readable, short, result, rfl⟩
    exact ⟨short, layout, readable, result, rfl⟩

/-- Where the values themselves are the layouts, each has one encoding. -/
theorem reads_id_iff {IsReadable : α → Prop} {encode : α → Bytes} :
    reader.Reads IsReadable encode id ↔ ∀ bytes value rest,
      reader.run bytes = some (value, rest) ↔ IsReadable value ∧ bytes = encode value ++ rest := by
  simp only [Reads, id_eq, existsAndEq, true_and]

theorem reads_any : any.Reads Element.IsReadable Element.encode id :=
  reads_id_iff.mpr fun _ _ _ => Element.read_eq_some_iff

theorem run_any_eq_some_iff {element : Element} :
    any.run bytes = some (element, rest) ↔
      element.IsReadable ∧ bytes = element.encode ++ rest :=
  reads_id_iff.mp reads_any bytes element rest

theorem reads_content (tag : UInt8) :
    (Reader.content tag).Reads (fun content => Element.IsReadable ⟨tag, content⟩)
      (fun content => Element.encode ⟨tag, content⟩) id := by
  rw [reads_id_iff]
  intro bytes content rest
  rw [Reader.content, run_bind_eq_some_iff]
  constructor
  · rintro ⟨element, middle, taken, kept⟩
    obtain ⟨readable, rfl⟩ := run_any_eq_some_iff.mp taken
    split at kept
    · rename_i tagged
      obtain ⟨rfl, rfl⟩ := run_pure_eq_some_iff.mp kept
      subst tagged
      exact ⟨readable, rfl⟩
    · exact (run_failure_eq_some_iff.mp kept).elim
  · rintro ⟨readable, rfl⟩
    refine ⟨⟨tag, content⟩, rest, run_any_eq_some_iff.mpr ⟨readable, rfl⟩, ?_⟩
    rw [if_pos rfl]
    exact run_pure_eq_some_iff.mpr ⟨rfl, rfl⟩

theorem run_content_eq_some_iff :
    (Reader.content tag).run bytes = some (content, rest) ↔
      Element.IsReadable ⟨tag, content⟩ ∧ bytes = Element.encode ⟨tag, content⟩ ++ rest :=
  reads_id_iff.mp (reads_content tag) bytes content rest

theorem run_nested_eq_some_iff :
    (nested tag reader).run bytes = some (value, rest) ↔
      ∃ content, Element.IsReadable ⟨tag, content⟩ ∧ reader.whole content = some value ∧
        bytes = Element.encode ⟨tag, content⟩ ++ rest := by
  rw [nested, run_bind_eq_some_iff]
  constructor
  · rintro ⟨content, middle, taken, inner⟩
    obtain ⟨readable, same⟩ := run_content_eq_some_iff.mp taken
    obtain ⟨read, rfl⟩ := run_liftM_eq_some_iff.mp inner
    exact ⟨content, readable, read, same⟩
  · rintro ⟨content, readable, read, same⟩
    exact ⟨content, rest, run_content_eq_some_iff.mpr ⟨readable, same⟩,
      run_liftM_eq_some_iff.mpr ⟨read, rfl⟩⟩

/-- An element is read if its content is, up to the content's end. -/
theorem reads_nested (inner : ∀ content value, reader.whole content = some value ↔
      ∃ layout, IsReadable layout ∧ ofLayout layout = value ∧ content = encode layout) (tag : UInt8) :
    (nested tag reader).Reads
      (fun layout => IsReadable layout ∧ Element.IsReadable ⟨tag, encode layout⟩)
      (fun layout => Element.encode ⟨tag, encode layout⟩) ofLayout := by
  intro bytes value rest
  rw [run_nested_eq_some_iff]
  constructor
  · rintro ⟨content, readable, read, same⟩
    obtain ⟨layout, inside, result, rfl⟩ := (inner _ _).mp read
    exact ⟨layout, ⟨inside, readable⟩, result, same⟩
  · rintro ⟨layout, ⟨inside, readable⟩, result, same⟩
    exact ⟨encode layout, readable, (inner _ _).mpr ⟨layout, inside, result, rfl⟩, same⟩

/-- Two values that take up an element between them. -/
theorem run_pair_eq_some_iff {δ : Type} {first : Reader α} {second : Reader β} {P : α → Prop}
    {Q : β → Prop} {f : α → Bytes} {g : β → Bytes} (readsFirst : first.Reads P f id)
    (readsSecond : second.Reads Q g id) {make : α → β → δ} {result : δ} :
    (nested tag (do return make (← first) (← second))).run bytes = some (result, rest) ↔
      ∃ a b, P a ∧ Q b ∧ Element.IsReadable ⟨tag, f a ++ g b⟩ ∧ make a b = result ∧
        bytes = Element.encode ⟨tag, f a ++ g b⟩ ++ rest := by
  simp only [run_nested_eq_some_iff, Reader.whole_eq_some_iff, run_bind_eq_some_iff,
    run_pure_eq_some_iff, reads_id_iff.mp readsFirst _ _ _, reads_id_iff.mp readsSecond _ _ _,
    existsAndEq, true_and, and_assoc, List.append_nil]
  constructor
  · rintro ⟨a, b, element, first, second, same, written⟩
    exact ⟨a, b, first, second, element, same, written⟩
  · rintro ⟨a, b, first, second, element, same, written⟩
    exact ⟨a, b, element, first, second, same, written⟩

end Formats

section Members

variable {IsReadable : γ → Prop} {encode : γ → Bytes} {ofLayout : γ → α} {values : List α}

theorem many_nil_eq_some_iff (nonempty : ∀ layout, encode layout ≠ []) {limit : Nat} :
    many reader limit [] = some values ↔
      ∃ layouts : List γ, (∀ layout ∈ layouts, IsReadable layout) ∧ layouts.map ofLayout = values ∧
        [] = layouts.flatMap encode := by
  have read : many reader limit [] = some [] := by
    cases limit <;> rfl
  rw [read, Option.some.injEq]
  constructor
  · rintro rfl
    exact ⟨[], List.forall_mem_nil _, rfl, rfl⟩
  · rintro ⟨layouts, -, rfl, empty⟩
    cases layouts with
    | nil => rfl
    | cons layout layouts => exact (nonempty layout (List.append_eq_nil_iff.mp empty.symm).1).elim

theorem length_le_of_encode_append {layout : γ} {limit : Nat} (nonempty : encode layout ≠ [])
    (enough : (encode layout ++ rest).length ≤ limit + 1) : rest.length ≤ limit := by
  have some := List.length_pos_iff.mpr nonempty
  rw [List.length_append] at enough
  omega

/-- Values up to the end are the layouts of the values one after another. -/
theorem many_eq_some_iff (reads : reader.Reads IsReadable encode ofLayout)
    (nonempty : ∀ layout, encode layout ≠ []) {limit : Nat} (enough : bytes.length ≤ limit) :
    many reader limit bytes = some values ↔
      ∃ layouts : List γ, (∀ layout ∈ layouts, IsReadable layout) ∧ layouts.map ofLayout = values ∧
        bytes = layouts.flatMap encode := by
  induction limit generalizing bytes values with
  | zero =>
    obtain rfl : bytes = [] := List.length_eq_zero_iff.mp (Nat.le_zero.mp enough)
    exact many_nil_eq_some_iff nonempty
  | succ limit ih =>
    by_cases empty : bytes = []
    · subst empty
      exact many_nil_eq_some_iff nonempty
    rw [many, if_neg empty]
    constructor
    · intro success
      split at success
      · cases success
      · rename_i value remaining taken
        obtain ⟨layout, readable, rfl, rfl⟩ := (reads _ _ _).mp taken
        obtain ⟨later, read, rfl⟩ := Option.map_eq_some_iff.mp success
        have shorter := length_le_of_encode_append (nonempty layout) enough
        obtain ⟨layouts, each, rfl, rfl⟩ := (ih shorter).mp read
        exact ⟨layout :: layouts, List.forall_mem_cons.mpr ⟨readable, each⟩, rfl, rfl⟩
    · rintro ⟨layouts, each, rfl, rfl⟩
      cases layouts with
      | nil => exact (empty rfl).elim
      | cons layout layouts =>
        obtain ⟨here, later⟩ := List.forall_mem_cons.mp each
        rw [List.flatMap_cons] at enough ⊢
        have shorter := length_le_of_encode_append (nonempty layout) enough
        rw [reads.run here]
        dsimp only
        rw [(ih shorter).mpr ⟨layouts, later, rfl, rfl⟩]
        rfl

theorem reads_members (reads : reader.Reads IsReadable encode ofLayout)
    (nonempty : ∀ layout, encode layout ≠ []) (tag : UInt8) :
    (members tag reader).Reads
      (fun layouts => (∀ layout ∈ layouts, IsReadable layout) ∧
        Element.IsReadable ⟨tag, layouts.flatMap encode⟩)
      (fun layouts => Element.encode ⟨tag, layouts.flatMap encode⟩) (List.map ofLayout) := by
  intro bytes values rest
  rw [members, run_bind_eq_some_iff]
  constructor
  · rintro ⟨content, middle, taken, inner⟩
    obtain ⟨readable, same⟩ := run_content_eq_some_iff.mp taken
    obtain ⟨read, rfl⟩ := run_liftM_eq_some_iff.mp inner
    obtain ⟨layouts, each, result, rfl⟩ := (many_eq_some_iff reads nonempty le_rfl).mp read
    exact ⟨layouts, ⟨each, readable⟩, result, same⟩
  · rintro ⟨layouts, ⟨each, readable⟩, result, same⟩
    exact ⟨layouts.flatMap encode, rest, run_content_eq_some_iff.mpr ⟨readable, same⟩,
      run_liftM_eq_some_iff.mpr
        ⟨(many_eq_some_iff reads nonempty le_rfl).mpr ⟨layouts, each, result, rfl⟩, rfl⟩⟩

end Members

section Fields

variable {result : Option α} {number : UInt8}

theorem run_atEnd_eq_some_iff {ended : Bool} :
    atEnd.run bytes = some (ended, rest) ↔ bytes.isEmpty = ended ∧ bytes = rest := by
  have asked : atEnd.run bytes = some (bytes.isEmpty, bytes) := rfl
  rw [asked, Option.some.injEq, Prod.mk.injEq]

/-- A field that is passed over in the search for the one of a number, and is lost. -/
@[mk_iff] structure IsPassed (number : UInt8) (element : Element) : Prop where
  readable : element.IsReadable
  context : Tag.isContextSpecific element.tag = true
  lower : Tag.number element.tag < number

instance (number : UInt8) (element : Element) : Decidable (IsPassed number element) :=
  decidable_of_iff' _ (isPassed_iff number element)

/-- Whether the field of a number comes next. Where it does not, the search for it ends there. -/
def ComesNext (number : UInt8) (found : Bool) (bytes : Bytes) : Prop :=
  match bytes.head? with
  | none => found = false
  | some tag =>
    Tag.isKnown tag = true ∧
      if found then Tag.isContextSpecific tag = true ∧ Tag.number tag = number
      else Tag.isContextSpecific tag = false ∨ number < Tag.number tag

theorem head?_encode_append (element : Element) (rest : Bytes) :
    (element.encode ++ rest).head? = some element.tag := by
  rw [Element.encode_append, List.head?_cons]

theorem comesNext_encode_append {found : Bool} (element : Element) (rest : Bytes) :
    ComesNext number found (element.encode ++ rest) ↔
      Tag.isKnown element.tag = true ∧
        if found then Tag.isContextSpecific element.tag = true ∧ Tag.number element.tag = number
        else Tag.isContextSpecific element.tag = false ∨ number < Tag.number element.tag := by
  rw [ComesNext, head?_encode_append]

theorem IsPassed.not_comesNext {element : Element} (passed : IsPassed number element) :
    ¬ (Tag.isContextSpecific element.tag = false ∨ number < Tag.number element.tag) ∧
      Tag.number element.tag ≠ number := by
  have lower := UInt8.lt_iff_toNat_lt.mp passed.lower
  refine ⟨?_, fun same => ?_⟩
  · rintro (otherwise | higher)
    · rw [passed.context] at otherwise
      cases otherwise
    · exact Nat.lt_asymm lower (UInt8.lt_iff_toNat_lt.mp higher)
  · rw [same] at lower
    exact Nat.lt_irrefl _ lower

/-- One byte settles what the search does next. -/
theorem contextFieldWithin_succ {limit : Nat} (first : bytes.head? = some tag) :
    (contextFieldWithin number (limit + 1)).run bytes =
      if Tag.isKnown tag = true then
        if Tag.isContextSpecific tag = false ∨ number < Tag.number tag then some (false, bytes)
        else if Tag.number tag = number then some (true, bytes)
        else (any >>= fun _ => contextFieldWithin number limit).run bytes
      else none := by
  have peeked : peek.run bytes = some (some tag, bytes) :=
    congrArg (fun head => some (head, bytes)) first
  rw [contextFieldWithin, StateT.run_bind, peeked, Option.bind_eq_bind, Option.bind_some]
  dsimp only
  simp only [Bool.not_eq_true]
  by_cases known : Tag.isKnown tag = true
  · rw [if_neg (by rw [known]; exact Bool.noConfusion), if_pos known]
    split
    · rfl
    · split <;> rfl
  · rw [if_pos (Bool.eq_false_iff.mpr known), if_neg known]
    rfl

theorem contextFieldWithin_of_comesNext {found : Bool} (next : ComesNext number found bytes)
    (limit : Nat) : (contextFieldWithin number (limit + 1)).run bytes = some (found, bytes) := by
  cases first : bytes.head? with
  | none =>
    obtain rfl := List.head?_eq_none_iff.mp first
    cases next
    rfl
  | some tag =>
    rw [ComesNext, first] at next
    obtain ⟨known, next⟩ := next
    rw [contextFieldWithin_succ first, if_pos known]
    cases found with
    | false => exact if_pos next
    | true =>
      have within : ¬ (Tag.isContextSpecific tag = false ∨ number < Tag.number tag) := by
        rw [next.1, next.2]
        rintro (otherwise | higher)
        · cases otherwise
        · exact Nat.lt_irrefl _ (UInt8.lt_iff_toNat_lt.mp higher)
      rw [if_neg within, if_pos next.2]

theorem contextFieldWithin_of_isPassed {element : Element} (passed : IsPassed number element)
    (limit : Nat) (rest : Bytes) :
    (contextFieldWithin number (limit + 1)).run (element.encode ++ rest) =
      (contextFieldWithin number limit).run rest := by
  obtain ⟨within, different⟩ := passed.not_comesNext
  have taken : any.run (element.encode ++ rest) = some (element, rest) :=
    run_any_eq_some_iff.mpr ⟨passed.readable, rfl⟩
  rw [contextFieldWithin_succ (head?_encode_append element rest), if_pos passed.readable.known,
    if_neg within, if_neg different, StateT.run_bind, taken, Option.bind_eq_bind, Option.bind_some]

/-- The search ends where it stands, or passes over one field and goes on. -/
theorem contextFieldWithin_cases {limit : Nat} {found : Bool}
    (success : (contextFieldWithin number (limit + 1)).run bytes = some (found, rest)) :
    (ComesNext number found bytes ∧ bytes = rest) ∨
      ∃ element middle, IsPassed number element ∧ bytes = element.encode ++ middle ∧
        (contextFieldWithin number limit).run middle = some (found, rest) := by
  cases first : bytes.head? with
  | none =>
    obtain rfl := List.head?_eq_none_iff.mp first
    cases success
    exact .inl ⟨rfl, rfl⟩
  | some tag =>
    rw [contextFieldWithin_succ first] at success
    split at success
    · rename_i known
      split at success
      · rename_i beyond
        cases success
        rw [ComesNext, first]
        exact .inl ⟨⟨known, beyond⟩, rfl⟩
      · rename_i within
        rw [not_or, Bool.not_eq_false] at within
        split at success
        · rename_i reached
          cases success
          rw [ComesNext, first]
          exact .inl ⟨⟨known, within.1, reached⟩, rfl⟩
        · rename_i different
          obtain ⟨element, middle, taken, later⟩ := run_bind_eq_some_iff.mp success
          obtain ⟨readable, rfl⟩ := run_any_eq_some_iff.mp taken
          rw [head?_encode_append] at first
          cases first
          have lower : Tag.number element.tag < number := by
            have apart : (Tag.number element.tag).toNat ≠ number.toNat := fun same =>
              different (UInt8.toNat_inj.mp same)
            rw [UInt8.lt_iff_toNat_lt] at within ⊢
            omega
          exact .inr ⟨element, middle, ⟨readable, within.1, lower⟩, rfl, later⟩
    · cases success

theorem run_contextFieldWithin_eq_some_iff {limit : Nat} {found : Bool}
    (enough : bytes.length < limit) :
    (contextFieldWithin number limit).run bytes = some (found, rest) ↔
      ∃ passed : List Element, (∀ element ∈ passed, IsPassed number element) ∧
        ComesNext number found rest ∧ bytes = passed.flatMap Element.encode ++ rest := by
  induction limit generalizing bytes with
  | zero => exact (Nat.not_lt_zero _ enough).elim
  | succ limit ih =>
    constructor
    · intro success
      rcases contextFieldWithin_cases success with
        ⟨next, rfl⟩ | ⟨element, middle, here, rfl, later⟩
      · exact ⟨[], List.forall_mem_nil _, next, rfl⟩
      · have shorter : middle.length < limit := by
          rw [List.length_append, Element.length_encode] at enough
          omega
        obtain ⟨passed, each, next, rfl⟩ := (ih shorter).mp later
        refine ⟨element :: passed, List.forall_mem_cons.mpr ⟨here, each⟩, next, ?_⟩
        rw [List.flatMap_cons, List.append_assoc]
    · rintro ⟨passed, each, next, rfl⟩
      cases passed with
      | nil => exact contextFieldWithin_of_comesNext next limit
      | cons element passed =>
        obtain ⟨here, later⟩ := List.forall_mem_cons.mp each
        rw [List.flatMap_cons, List.append_assoc] at enough ⊢
        have shorter : (passed.flatMap Element.encode ++ rest).length < limit := by
          rw [List.length_append, Element.length_encode] at enough
          omega
        rw [contextFieldWithin_of_isPassed here]
        exact (ih shorter).mpr ⟨passed, later, next, rfl⟩

variable {IsReadable : γ → Prop} {encode : γ → Bytes} {ofLayout : γ → α}

/-- An optional value that its tag alone announces. -/
theorem run_optional_eq_some_iff (reads : reader.Reads IsReadable encode ofLayout)
    (begins : ∀ layout rest, (encode layout ++ rest).head? = some tag) :
    (optional tag reader).run bytes = some (result, rest) ↔
      ∃ field : Option γ, (∀ layout ∈ field, IsReadable layout) ∧
        (field = none → rest.head? ≠ some tag) ∧ field.map ofLayout = result ∧
        bytes = (field.map encode).getD [] ++ rest := by
  have peeked : peek.run bytes = some (bytes.head?, bytes) := rfl
  rw [optional, StateT.run_bind, peeked, Option.bind_eq_bind, Option.bind_some]
  dsimp only
  constructor
  · intro success
    split at success
    · obtain ⟨value, taken, rfl⟩ := run_map_eq_some_iff.mp success
      obtain ⟨layout, readable, rfl, rfl⟩ := (reads _ _ _).mp taken
      refine ⟨some layout, ?_, nofun, rfl, rfl⟩
      rintro _ ⟨⟩
      exact readable
    · rename_i other
      obtain ⟨rfl, rfl⟩ := run_pure_eq_some_iff.mp success
      exact ⟨none, nofun, fun _ => other, rfl, rfl⟩
  · rintro ⟨field, readable, other, rfl, rfl⟩
    cases field with
    | none =>
      rw [if_neg (by exact other rfl)]
      exact run_pure_eq_some_iff.mpr ⟨rfl, rfl⟩
    | some layout =>
      rw [if_pos (by exact begins layout rest)]
      exact run_map_eq_some_iff.mpr ⟨_, reads.run (readable layout rfl) rest, rfl⟩

/-- An optional field after those that are passed over: either it comes next, or the search for it
ends at something else. -/
theorem run_field_eq_some_iff (reads : reader.Reads IsReadable encode ofLayout)
    (begins : ∀ layout, IsReadable layout → ∀ rest, ComesNext number true (encode layout ++ rest)) :
    (do if ← contextField number then some <$> reader else return none).run bytes =
        some (result, rest) ↔
      ∃ (passed : List Element) (field : Option γ),
        (∀ element ∈ passed, IsPassed number element) ∧
        (∀ layout ∈ field, IsReadable layout) ∧ (field = none → ComesNext number false rest) ∧
        field.map ofLayout = result ∧
        bytes = passed.flatMap Element.encode ++ ((field.map encode).getD [] ++ rest) := by
  have started : (contextField number).run bytes =
      (contextFieldWithin number (bytes.length + 1)).run bytes := rfl
  have enough := Nat.lt_succ_self bytes.length
  rw [run_bind_eq_some_iff, started]
  constructor
  · rintro ⟨found, middle, search, rest⟩
    obtain ⟨passed, each, next, rfl⟩ := (run_contextFieldWithin_eq_some_iff enough).mp search
    cases found with
    | false =>
      obtain ⟨rfl, rfl⟩ := run_pure_eq_some_iff.mp rest
      exact ⟨passed, none, each, nofun, fun _ => next, rfl, rfl⟩
    | true =>
      obtain ⟨value, taken, rfl⟩ := run_map_eq_some_iff.mp rest
      obtain ⟨layout, readable, rfl, rfl⟩ := (reads _ _ _).mp taken
      refine ⟨passed, some layout, each, ?_, nofun, rfl, rfl⟩
      rintro _ ⟨⟩
      exact readable
  · rintro ⟨passed, field, each, readable, next, rfl, rfl⟩
    cases field with
    | none =>
      exact ⟨false, _, (run_contextFieldWithin_eq_some_iff enough).mpr
        ⟨passed, each, next rfl, rfl⟩, run_pure_eq_some_iff.mpr ⟨rfl, rfl⟩⟩
    | some layout =>
      exact ⟨true, _, (run_contextFieldWithin_eq_some_iff enough).mpr
        ⟨passed, each, begins layout (readable layout rfl) rest, rfl⟩,
        run_map_eq_some_iff.mpr ⟨_, reads.run (readable layout rfl) rest, rfl⟩⟩

/-- The search for the first field passes over nothing. -/
theorem eq_nil_of_isPassed_zero {passed : List Element}
    (each : ∀ element ∈ passed, IsPassed 0 element) : passed = [] := by
  cases passed with
  | nil => rfl
  | cons element passed =>
    have lower := (each element List.mem_cons_self).lower
    exact (Nat.not_lt_zero _ (UInt8.lt_iff_toNat_lt.mp lower)).elim

/-- A search that ended at something else leaves nothing to pass over to the next one. -/
theorem eq_nil_of_comesNext_false {next : UInt8} {passed : List Element}
    (following : next.toNat ≤ number.toNat + 1) (each : ∀ element ∈ passed, IsPassed next element)
    (ended : ComesNext number false (passed.flatMap Element.encode ++ rest)) : passed = [] := by
  cases passed with
  | nil => rfl
  | cons element passed =>
    have here := each element List.mem_cons_self
    rw [List.flatMap_cons, List.append_assoc, comesNext_encode_append] at ended
    rcases ended.2 with otherwise | higher
    · rw [here.context] at otherwise
      cases otherwise
    · have lower := UInt8.lt_iff_toNat_lt.mp here.lower
      have above := UInt8.lt_iff_toNat_lt.mp higher
      omega

end Fields

end RequestSigning.Der.Reader
