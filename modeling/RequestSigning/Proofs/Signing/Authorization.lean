import RequestSigning.Proofs.Text.Base64
import RequestSigning.Proofs.Text.Utf8
import RequestSigning.Signing.Authorization
set_option autoImplicit false

namespace RequestSigning.Signing

/-- The words of a text in which spaces stand between words. -/
def words (text : String) : List String :=
  ((text.toList.splitOn ' ').filter (· ≠ [])).map String.ofList

/-- A name that is read back from words between quotation marks. -/
def IsWord (name : String) : Prop :=
  name ≠ "" ∧ ' ' ∉ name.toList ∧ '"' ∉ name.toList

instance (name : String) : Decidable (IsWord name) :=
  inferInstanceAs (Decidable (_ ∧ _))

theorem words_intercalate {names : List String} (single : ∀ name ∈ names, ' ' ∉ name.toList)
    (nonempty : ∀ name ∈ names, name ≠ "") : words (" ".intercalate names) = names := by
  by_cases none : names = []
  · subst none
    decide
  · have split : (" ".intercalate names).toList.splitOn ' ' = names.map String.toList := by
      rw [String.toList_intercalate]
      apply List.splitOn_intercalate
      · intro chars inside
        obtain ⟨name, listed, rfl⟩ := List.mem_map.mp inside
        exact single name listed
      · simpa using none
    have kept : (names.map String.toList).filter (· ≠ []) = names.map String.toList := by
      rw [List.filter_eq_self]
      intro chars inside
      obtain ⟨name, listed, rfl⟩ := List.mem_map.mp inside
      simpa using nonempty name listed
    rw [words, split, kept, List.map_map]
    simp

theorem mem_splitOn {chars piece : List Char} {separator : Char}
    (inside : piece ∈ chars.splitOn separator) : separator ∉ piece ∧ piece ⊆ chars := by
  induction chars generalizing piece with
  | nil =>
    rw [List.splitOn_nil, List.mem_singleton] at inside
    subst inside
    exact ⟨List.not_mem_nil, List.nil_subset _⟩
  | cons c rest ih =>
    rw [List.splitOn_cons_eq_if_modifyHead] at inside
    split at inside
    · rcases List.mem_cons.mp inside with rfl | later
      · exact ⟨List.not_mem_nil, List.nil_subset _⟩
      · exact ⟨(ih later).1, List.subset_cons_of_subset _ (ih later).2⟩
    · rename_i other
      obtain ⟨head, tail, split⟩ := List.exists_cons_of_ne_nil (List.splitOn_ne_nil separator rest)
      rw [split, List.modifyHead_cons] at inside
      rw [split] at ih
      rcases List.mem_cons.mp inside with rfl | later
      · obtain ⟨apart, part⟩ := ih List.mem_cons_self
        have different : separator ≠ c := fun same => other (by simp [same])
        exact ⟨by simp [different, apart], List.cons_subset_cons c part⟩
      · obtain ⟨apart, part⟩ := ih (List.mem_cons_of_mem _ later)
        exact ⟨apart, List.subset_cons_of_subset _ part⟩

theorem mem_words {text word : String} (inside : word ∈ words text) :
    word ≠ "" ∧ ' ' ∉ word.toList ∧ word.toList ⊆ text.toList := by
  obtain ⟨piece, kept, rfl⟩ := List.mem_map.mp inside
  obtain ⟨piece_mem, filled⟩ := List.mem_filter.mp kept
  obtain ⟨apart, part⟩ := mem_splitOn piece_mem
  rw [String.toList_ofList]
  have nonempty : piece ≠ [] := by simpa using filled
  refine ⟨fun empty => nonempty ?_, apart, part⟩
  simpa using congrArg String.toList empty

theorem subset_intercalate (separator : String) {pieces : List String} {piece : String}
    (listed : piece ∈ pieces) : piece.toList ⊆ (separator.intercalate pieces).toList := by
  induction pieces with
  | nil => cases listed
  | cons first rest ih =>
    cases rest with
    | nil =>
      rw [List.mem_singleton.mp listed, String.intercalate_singleton]
      exact List.Subset.refl _
    | cons next others =>
      rw [String.intercalate_cons_cons, String.toList_append, String.toList_append]
      rcases List.mem_cons.mp listed with rfl | later
      · exact List.subset_append_of_subset_left _ (List.subset_append_left _ _)
      · exact List.subset_append_of_subset_right _ (ih later)

theorem mem_intercalate {separator : String} {pieces : List String} {c : Char}
    (inside : c ∈ (separator.intercalate pieces).toList) :
    c ∈ separator.toList ∨ ∃ piece ∈ pieces, c ∈ piece.toList := by
  induction pieces with
  | nil => simp at inside
  | cons first rest ih =>
    cases rest with
    | nil =>
      rw [String.intercalate_singleton] at inside
      exact .inr ⟨first, List.mem_cons_self, inside⟩
    | cons next others =>
      rw [String.intercalate_cons_cons, String.toList_append, String.toList_append,
        List.mem_append, List.mem_append] at inside
      rcases inside with (here | between) | later
      · exact .inr ⟨first, List.mem_cons_self, here⟩
      · exact .inl between
      · rcases ih later with between | ⟨piece, listed, there⟩
        · exact .inl between
        · exact .inr ⟨piece, List.mem_cons_of_mem _ listed, there⟩

/-- Bytes are read back from their text. -/
theorem decode_ofString_encode (bytes : Bytes) :
    Base64.decode (Bytes.ofString (Base64.encode bytes).toStringLossy) = .ok bytes := by
  rw [Bytes.ofString_toStringLossy fun _ inside => Base64.lt_of_mem_encode inside,
    Base64.decode_encode]

namespace Authorization

theorem text_eq (authorization : Authorization) :
    authorization.text =
      "Signature version=\"1\",headers=\"" ++ " ".intercalate authorization.names ++
        "\",keyId=\"" ++ authorization.keyId ++ "\",algorithm=\"rsa-sha256\",signature=\"" ++
        (Base64.encode authorization.signature).toStringLossy ++ "\"" := by
  apply String.toList_inj.mp
  simp [text, parameters, scheme, version, algorithm]

section parts

variable (authorization : Authorization)

theorem keyId_subset_text : authorization.keyId.toList ⊆ authorization.text.toList := by
  rw [text_eq]
  intro c inside
  simp only [String.toList_append, List.mem_append, inside, or_true, true_or]

theorem name_subset_text {name : String} (listed : name ∈ authorization.names) :
    name.toList ⊆ authorization.text.toList := by
  rw [text_eq]
  intro c inside
  have joined := subset_intercalate " " listed inside
  simp only [String.toList_append, List.mem_append, joined, or_true, true_or]

end parts

section reading

/-- A parameter as it is written. -/
def written (parameter : String × String) : String :=
  parameter.1 ++ "=\"" ++ parameter.2 ++ "\""

/-- A parameter that is read back: the name ends at the equals sign and the value at the
quotation mark. -/
def IsPlain (parameter : String × String) : Prop :=
  '=' ∉ parameter.1.toList ∧ '"' ∉ parameter.2.toList

theorem toList_written (parameter : String × String) :
    (written parameter).toList =
      parameter.1.toList ++ '=' :: '"' :: (parameter.2.toList ++ ['"']) := by
  simp [written]

theorem readParameters_succ {parameter : String × String} (plain : IsPlain parameter)
    (limit : Nat) (rest : List Char) :
    readParameters (limit + 1) ((written parameter).toList ++ rest) =
      match rest with
      | [] => some [parameter]
      | ',' :: rest => (readParameters limit rest).map (parameter :: ·)
      | _ => none := by
  obtain ⟨name, value⟩ := parameter
  have word : ∀ c ∈ name.toList, decide (c ≠ '=') = true := by
    intro c inside
    have : c ≠ '=' := fun same => plain.1 (same ▸ inside)
    simpa using this
  have quoted : ∀ c ∈ value.toList, decide (c ≠ '"') = true := by
    intro c inside
    have : c ≠ '"' := fun same => plain.2 (same ▸ inside)
    simpa using this
  rw [toList_written, List.append_assoc, List.cons_append, List.cons_append, List.append_assoc,
    readParameters]
  simp only [List.takeWhile_append_of_pos word, List.dropWhile_append_of_pos word,
    List.takeWhile_append_of_pos quoted, List.dropWhile_append_of_pos quoted,
    List.takeWhile_cons, List.dropWhile_cons, List.cons_append, List.nil_append, ne_eq,
    not_true_eq_false, decide_false, Bool.false_eq_true, ↓reduceIte, List.append_nil,
    String.ofList_toList]
  split <;> simp_all

theorem readParameters_intercalate (parameters : List (String × String)) (nonempty : parameters ≠ [])
    (plain : ∀ parameter ∈ parameters, IsPlain parameter) (limit : Nat)
    (enough : parameters.length ≤ limit) :
    readParameters limit (",".intercalate (parameters.map written)).toList = some parameters := by
  induction parameters generalizing limit with
  | nil => exact absurd rfl nonempty
  | cons parameter rest ih =>
    obtain ⟨here, later⟩ := List.forall_mem_cons.mp plain
    cases limit with
    | zero => simp at enough
    | succ limit =>
      cases rest with
      | nil =>
        have last := readParameters_succ here limit []
        rw [List.append_nil] at last
        simpa using last
      | cons next others =>
        have fewer : (next :: others).length ≤ limit := by
          simp only [List.length_cons] at enough ⊢
          omega
        have tail := ih (List.cons_ne_nil _ _) later limit fewer
        have joined : (",".intercalate ((parameter :: next :: others).map written)).toList =
            (written parameter).toList ++
              ',' :: (",".intercalate ((next :: others).map written)).toList := by
          simp [String.intercalate_cons_cons]
        rw [joined, readParameters_succ here]
        simp only [tail, Option.map_some]

/-- What is read holds no quotation mark. -/
theorem quote_not_mem_of_readParameters {limit : Nat} {chars : List Char}
    {parameters : List (String × String)} (read : readParameters limit chars = some parameters) :
    ∀ parameter ∈ parameters, '"' ∉ parameter.2.toList := by
  have value (rest : List Char) : '"' ∉ (String.ofList (rest.takeWhile (· ≠ '"'))).toList := by
    intro inside
    rw [String.toList_ofList] at inside
    have := List.mem_takeWhile_imp inside
    simp at this
  fun_induction readParameters limit chars generalizing parameters with
  | case1 => cases read
  | case2 limit chars name rest found ends =>
    cases read
    exact List.forall_mem_singleton.mpr (value rest)
  | case3 limit chars name rest found text later ends =>
    rename_i ih
    obtain ⟨others, readOthers, rfl⟩ := Option.map_eq_some_iff.mp read
    exact List.forall_mem_cons.mpr ⟨value rest, ih readOthers⟩
  | case4 => cases read
  | case5 => cases read

theorem parse?_scheme_append (body : String) :
    parse? (scheme ++ body) = readParameters (scheme ++ body).length body.toList := by
  have beginning : scheme.toList <+: (scheme ++ body).toList := by
    rw [String.toList_append]
    exact List.prefix_append _ _
  rw [parse?, if_pos beginning, String.toList_append, List.drop_left' String.length_toList]

/-- Parameters whose values hold no quotation mark are read back from their text. -/
theorem parse?_intercalate {parameters : List (String × String)} (nonempty : parameters ≠ [])
    (few : parameters.length ≤ scheme.length) (plain : ∀ parameter ∈ parameters, IsPlain parameter) :
    parse? (scheme ++ ",".intercalate (parameters.map written)) = some parameters := by
  rw [parse?_scheme_append]
  apply readParameters_intercalate parameters nonempty plain
  rw [String.length_append]
  omega

theorem quote_not_mem_of_parse? {text : String} {parameters : List (String × String)}
    (read : parse? text = some parameters) : ∀ parameter ∈ parameters, '"' ∉ parameter.2.toList := by
  rw [parse?] at read
  split at read
  · exact quote_not_mem_of_readParameters read
  · cases read

end reading

/-- What a reader learns from the parameters of a header, in whatever order they stand: each
parameter is there once, and says what was meant. -/
structure Tells (parameters : List (String × String)) (keyId : String) (names : List String) :
    Prop where
  once : (parameters.map Prod.fst).Perm ["version", "headers", "keyId", "algorithm", "signature"]
  keyId : parameters.lookup "keyId" = some keyId
  names : (parameters.lookup "headers").map words = some names
  algorithm : parameters.lookup "algorithm" = some algorithm

section meaning

variable {authorization : Authorization}

theorem text_eq_intercalate :
    authorization.text = scheme ++ ",".intercalate (authorization.parameters.map written) := rfl

theorem quote_not_mem_encode (signature : Bytes) :
    '"' ∉ (Base64.encode signature).toStringLossy.toList := by
  intro inside
  rw [Bytes.toStringLossy, String.toList_ofList] at inside
  have byte := Utf8.mem_of_mem_decodeLossy inside (by decide) (by decide)
  exact Base64.quote_not_mem_encode signature byte

/-- A key id or a word in which a quotation mark stands would end early. -/
theorem parse?_text (keyId : '"' ∉ authorization.keyId.toList)
    (names : '"' ∉ (" ".intercalate authorization.names).toList) :
    parse? authorization.text = some authorization.parameters := by
  rw [text_eq_intercalate]
  have few : authorization.parameters.length ≤ scheme.length := by
    simp only [parameters, List.length_cons, List.length_nil]
    decide
  apply parse?_intercalate (List.cons_ne_nil _ _) few
  simp only [List.forall_mem_cons, IsPlain]
  refine ⟨⟨by decide, by decide⟩, ⟨by decide, names⟩, ⟨by decide, keyId⟩,
    ⟨by decide, by decide⟩, ⟨by decide, quote_not_mem_encode _⟩, ?_⟩
  exact List.forall_mem_nil _

theorem tells_parameters (words_eq : words (" ".intercalate authorization.names) = authorization.names) :
    Tells authorization.parameters authorization.keyId authorization.names where
  once := .refl _
  keyId := rfl
  names := congrArg some words_eq
  algorithm := rfl

/-- What is told needed no escapes. -/
theorem Tells.isPlain {text keyId : String} {names : List String} {parameters : List (String × String)}
    (tells : Tells parameters keyId names) (read : parse? text = some parameters) :
    '"' ∉ keyId.toList ∧ ∀ name ∈ names, IsWord name := by
  have plain := quote_not_mem_of_parse? read
  have inside {name value : String} (found : parameters.lookup name = some value) :
      '"' ∉ value.toList := by
    obtain ⟨before, after, split, -⟩ := List.lookup_eq_some_iff.mp found
    exact plain (name, value) (by simp [split])
  refine ⟨inside tells.keyId, fun name listed => ?_⟩
  obtain ⟨joined, found, split⟩ := Option.map_eq_some_iff.mp tells.names
  rw [← split] at listed
  obtain ⟨filled, apart, part⟩ := mem_words listed
  exact ⟨filled, apart, fun quote => inside found (part quote)⟩

/-- A reader is told what was meant exactly where nothing in it needs an escape. -/
theorem exists_tells_iff :
    (∃ parameters, parse? authorization.text = some parameters ∧
      Tells parameters authorization.keyId authorization.names) ↔
    '"' ∉ authorization.keyId.toList ∧ ∀ name ∈ authorization.names, IsWord name := by
  constructor
  · rintro ⟨parameters, read, tells⟩
    exact tells.isPlain read
  · rintro ⟨keyId, names⟩
    have joined : '"' ∉ (" ".intercalate authorization.names).toList := by
      intro inside
      rcases mem_intercalate inside with between | ⟨name, listed, there⟩
      · exact absurd between (by decide)
      · exact (names name listed).2.2 there
    refine ⟨authorization.parameters, parse?_text keyId joined, tells_parameters ?_⟩
    exact words_intercalate (fun name listed => (names name listed).2.1)
      fun name listed => (names name listed).1

end meaning

end Authorization

end RequestSigning.Signing
