import RequestSigning.Proofs.Http.Essentials
import RequestSigning.Proofs.Signing.Canonical
import RequestSigning.Proofs.Text.Decoding
set_option autoImplicit false

namespace RequestSigning

namespace Http

theorem head?_encode_eq_iff {c : Char} (rest : List Char) :
    (Utf8.encode (c :: rest)).head? = some 63 ↔ c = '?' := by
  have spells := Utf8.spells_utf8EncodeChar c
  rw [Utf8.encode, List.flatMap_cons]
  constructor
  · intro question
    cases written : String.utf8EncodeChar c with
    | nil =>
      rw [written] at spells
      cases spells
    | cons b later =>
      rw [written, List.cons_append, List.head?_cons, Option.some_inj] at question
      have inside : (63 : UInt8) ∈ String.utf8EncodeChar c := by
        rw [written, question]
        exact List.mem_cons_self
      exact (spells.eq_of_mem Utf8.isBeyondAscii_start inside (by decide)).symm
  · rintro rfl
    rfl

/-- The path is empty where a query stands in its place, and only there. -/
theorem PathAndQuery.parse_cases {bytes : Bytes} {target : PathAndQuery}
    (read : parse bytes = .ok target) :
    (bytes.head? = some 63 ∧ target.path = "" ∧ ∃ query, target.query = some query) ∨
      (¬ bytes.head? = some 63 ∧ target.path ≠ "") := by
  have kept : (bytes.takeWhile (· ≠ 35)).head? = some 63 ↔ bytes.head? = some 63 := by
    cases bytes with
    | nil => rfl
    | cons b rest => by_cases sign : b = 35 <;> simp [sign]
  obtain ⟨chars, decoded, shape⟩ := parts_of_parse read
  rw [← kept, ← Utf8.decode_eq_ok_iff.mp decoded]
  rcases shape with ⟨rfl, rfl⟩ | ⟨nonempty, path, query⟩
  · exact .inr (by decide)
  · obtain ⟨c, rest, rfl⟩ := List.exists_cons_of_ne_nil nonempty
    rw [head?_encode_eq_iff]
    by_cases question : c = '?'
    · subst question
      exact .inl ⟨rfl, path, String.ofList rest, query⟩
    · exact .inr ⟨question, by simp [path, question]⟩

namespace Uri

theorem head?_targetText {target : PathAndQuery}
    (begins : target.path = "" ∨ target.path.toList.head? = some '/') :
    (targetText target).toList.head? = some '/' := by
  rw [targetText, String.toList_append]
  rcases begins with empty | slash
  · rw [if_pos empty]
    simp
  · rw [if_neg (ne_empty_of_slash slash), List.head?_append, slash]
    rfl

end Uri

end Http

namespace Signing

open Http

/-- The path and query, where a path that is missing or empty counts as the root's. -/
def rootedTarget (uri : Uri) : String :=
  (uri.target?.map Uri.targetText).getD PathAndQuery.root.text

theorem rootedTarget_eq (uri : Uri) :
    rootedTarget uri = Uri.targetText (uri.target?.getD .root) := by
  rw [rootedTarget]
  cases uri.target? <;> rfl

theorem rootedTarget_of_isRead {uri : Uri} (read : uri.IsRead) :
    rootedTarget uri = "*" ∨ (rootedTarget uri).toList.head? = some '/' := by
  cases uri with
  | originForm target =>
    rcases read with rfl | slash
    · exact .inl rfl
    · exact .inr (Uri.head?_targetText (.inr slash))
  | authorityForm authority =>
    have root : PathAndQuery.root.text.toList.head? = some '/' := by decide
    exact .inr root
  | absoluteForm scheme authority target => exact .inr (Uri.head?_targetText read.2.2.2)

theorem hasScheme_of_path_eq_empty {uri : Uri} (read : uri.IsRead)
    (empty : (uri.target?.getD .root).path = "") : uri.hasScheme = true := by
  cases uri with
  | originForm target =>
    rcases read with rfl | slash
    · exact absurd empty (by decide)
    · exact absurd empty (Uri.ne_empty_of_slash slash)
  | authorityForm authority =>
    have root : PathAndQuery.root.path = "" := empty
    exact absurd root (by decide)
  | absoluteForm scheme authority target => rfl

/-- The target is that of the request line but for addresses with a question mark right after the
authority: the slash that is printed there is not signed. -/
theorem requestTarget_eq_rooted_iff (method : Method) (bytes : Bytes) (uri : Uri)
    (read : Uri.parse bytes = .ok uri) :
    let verb := lowercase method.text
    let bare := (Uri.essentials bytes).2.head? = some 63
    (requestTarget method uri = verb ++ " " ++ rootedTarget uri ↔ ¬ bare) ∧
    (bare → uri.hasScheme = true ∧ ∃ query,
      requestTarget method uri = verb ++ " " ++ ("?" ++ query) ∧
        rootedTarget uri = "/" ++ ("?" ++ query)) ∧
    (rootedTarget uri = "*" ∨ (rootedTarget uri).toList.head? = some '/') ∧
    ∀ scheme authority target, uri = .absoluteForm scheme authority target →
      uri.text = scheme.text ++ "://" ++ authority.text ++ rootedTarget uri := by
  intro verb bare
  have isRead := Uri.isRead_of_parse read
  refine ⟨?_, ?_, rootedTarget_of_isRead isRead, ?_⟩
  · rw [requestTarget_eq, rootedTarget_eq, String.append_right_inj]
    rcases PathAndQuery.parse_cases (Uri.tells_of_parse read).2 with
      ⟨question, empty, query, asked⟩ | ⟨other, path⟩
    · refine iff_of_false (fun same => ?_) (not_not_intro question)
      have slash := Uri.head?_targetText (.inl empty)
      rw [← same, PathAndQuery.text_eq, empty, asked] at slash
      exact absurd slash (by simp)
    · exact iff_of_true (Uri.targetText_of_ne path).symm other
  · intro question
    rcases PathAndQuery.parse_cases (Uri.tells_of_parse read).2 with
      ⟨-, empty, query, asked⟩ | ⟨other, -⟩
    · refine ⟨hasScheme_of_path_eq_empty isRead empty, query, ?_, ?_⟩
      · rw [requestTarget_eq, PathAndQuery.text, asked, empty]
        rfl
      · rw [rootedTarget_eq, Uri.targetText, if_pos empty, asked]
        rfl
    · exact absurd question other
  · rintro scheme authority target rfl
    rfl

/-- An address whose path is given, and which is signed as it is sent. -/
theorem requestTarget_eq_rooted_iff_path :
    let bytes := Bytes.ofString "HTTP://u@h:80/a?b#c"
    let uri : Uri := .absoluteForm Uri.httpScheme ⟨"u@h:80", by decide⟩
      ⟨"/a", some "b", by decide, by simp; decide⟩
    Uri.parse bytes = .ok uri ∧ requestTarget .patch uri = "patch " ++ rootedTarget uri ∧
      uri.text = "http://u@h:80" ++ rootedTarget uri := by
  intro bytes uri
  have read : Uri.parse bytes = .ok uri := by decide +kernel
  obtain ⟨signed, -, -, sent⟩ := requestTarget_eq_rooted_iff .patch bytes uri read
  have path : ¬ (Uri.essentials bytes).2.head? = some 63 := by decide +kernel
  exact ⟨read, signed.mpr path, sent _ _ _ rfl⟩

/-- An empty path counts as the root's where the address is printed, and not where it is signed. -/
theorem requestTarget_ne_rooted :
    ∃ uri, Uri.parse (Bytes.ofString "http://h?x") = .ok uri ∧ uri.text = "http://h/?x" ∧
      rootedTarget uri = "/?x" ∧
      requestTarget .get uri ≠ lowercase Method.get.text ++ " " ++ rootedTarget uri := by
  refine ⟨.absoluteForm Uri.httpScheme ⟨"h", by decide⟩
    ⟨"", some "x", by decide, by simp; decide⟩, ?_, ?_⟩
  · decide +kernel
  · decide +kernel

end Signing

end RequestSigning
