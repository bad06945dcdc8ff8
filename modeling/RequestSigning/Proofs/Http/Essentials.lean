import RequestSigning.Proofs.Http.Uri
set_option autoImplicit false

namespace RequestSigning.Http

namespace Authority

theorem readPort_of_mem {chars : List Char} {c : Char} (inside : c ∈ chars)
    (other : c ≠ '+' ∧ c.isDigit = false) : readPort chars = none := by
  have undigital {digits : List Char} (inside : c ∈ digits) :
      ¬ (digits ≠ [] ∧ digits.all Char.isDigit = true) := by
    rintro ⟨-, decimal⟩
    rw [List.all_eq_true.mp decimal c inside] at other
    exact Bool.noConfusion other.2
  rw [readPort.eq_def]
  dsimp only
  apply if_neg
  split
  · exact undigital ((List.mem_cons.mp inside).resolve_left other.1)
  · exact undigital inside

/-- Nothing stands before the last at sign and what follows it, or what ends in that sign. -/
theorem reverse_text (authority : Authority) :
    ∃ before, authority.text.toList.reverse = authority.hostAndPort.reverse ++ before ∧
      (before = [] ∨ ∃ user, before = '@' :: user) := by
  have parts := List.takeWhile_append_dropWhile (p := (· ≠ '@')) (l := authority.text.toList.reverse)
  refine ⟨authority.text.toList.reverse.dropWhile (· ≠ '@'), ?_, ?_⟩
  · rw [hostAndPort, List.reverse_reverse, parts]
  · have first := List.head?_dropWhile_not (fun c : Char => decide (c ≠ '@'))
      authority.text.toList.reverse
    cases rest : authority.text.toList.reverse.dropWhile (· ≠ '@') with
    | nil => exact .inl rfl
    | cons c user =>
      rw [rest] at first
      obtain rfl : c = '@' := by simpa using first
      exact .inr ⟨user, rfl⟩

/-- A colon in what precedes the last at sign is never taken for that of a port. -/
theorem port?_eq (authority : Authority) :
    authority.port? =
      if ':' ∈ authority.hostAndPort then
        readPort (authority.hostAndPort.reverse.takeWhile (· ≠ ':')).reverse
      else none := by
  obtain ⟨before, text, user⟩ := authority.reverse_text
  simp only [port?, text, List.contains_iff_mem, List.mem_append, List.mem_reverse]
  split_ifs with colon inside inside
  · have stops : (authority.hostAndPort.reverse.takeWhile (· ≠ ':')).length ≠
        authority.hostAndPort.reverse.length := by
      intro whole
      have all := List.takeWhile_eq_self_iff.mp
        ((List.takeWhile_prefix (p := (· ≠ ':')) (l := _)).eq_of_length whole)
      exact absurd (all ':' (List.mem_reverse.mpr inside)) (by decide)
    rw [List.takeWhile_append, if_neg stops]
  · obtain ⟨user, rfl⟩ := user.resolve_left (by rintro rfl; simp [inside] at colon)
    have passes : ∀ c ∈ authority.hostAndPort.reverse ++ ['@'], decide (c ≠ ':') = true := by
      intro c listed
      rw [decide_eq_true_eq]
      rintro rfl
      simp [inside] at listed
    rw [List.append_cons, List.takeWhile_append_of_pos passes]
    exact readPort_of_mem (c := '@') (by simp) (by decide)
  · exact absurd (.inl inside) colon
  · rfl

variable {left right : Authority}

theorem host_congr (same : left.hostAndPort = right.hostAndPort) : left.host = right.host := by
  rw [host, host, same]

theorem port?_congr (same : left.hostAndPort = right.hostAndPort) : left.port? = right.port? := by
  rw [port?_eq, port?_eq, same]

end Authority

namespace Uri

/-- What follows the scheme, or the whole where there is none. -/
def afterScheme (text : Bytes) : Bytes :=
  let name := (latin text).takeWhile isSchemeChar
  if ((latin text).drop name.length).take 3 = "://".toList then text.drop (name.length + 3)
  else text

/-- What follows the last at sign of the authority, and the path and query. The scheme and the
fragment have no part in this, nor does what precedes the at sign. An asterisk alone is no
authority. -/
def essentials (text : Bytes) : Bytes × Bytes :=
  if text = [42] then ([], text)
  else
    let rest := (afterScheme text).takeWhile (· ≠ 35)
    let authority := rest.takeWhile fun b => b ≠ 47 ∧ b ≠ 63
    ((authority.reverse.takeWhile (· ≠ 64)).reverse, rest.drop authority.length)

/-- The authority ends where the path, the query or the fragment begins. -/
theorem essentials_eq {text authority rest : Bytes} (other : text ≠ [42])
    (follows : afterScheme text = authority ++ rest)
    (plain : ∀ b ∈ authority, b ≠ 47 ∧ b ≠ 63 ∧ b ≠ 35) (begins : BeginsAfterAuthority rest) :
    essentials text =
      ((authority.reverse.takeWhile (· ≠ 64)).reverse, rest.takeWhile (· ≠ 35)) := by
  have whole : (authority ++ rest).takeWhile (· ≠ 35) = authority ++ rest.takeWhile (· ≠ 35) :=
    List.takeWhile_append_of_pos fun b inside => decide_eq_true (plain b inside).2.2
  have stops : (rest.takeWhile (· ≠ 35)).takeWhile (fun b => b ≠ 47 ∧ b ≠ 63) = [] := by
    rcases begins with rfl | ⟨b, later, rfl, ends⟩
    · rfl
    · rcases (isAuthorityEnd_ofNat_iff b).mp ends with rfl | rfl | rfl <;> rfl
  have front : (authority ++ rest.takeWhile (· ≠ 35)).takeWhile (fun b => b ≠ 47 ∧ b ≠ 63) =
      authority := by
    rw [List.takeWhile_append_of_pos, stops, List.append_nil]
    intro b inside
    exact decide_eq_true ⟨(plain b inside).1, (plain b inside).2.1⟩
  rw [essentials, if_neg other, follows, whole]
  dsimp only
  rw [front, List.drop_left]

section written

variable {name user host target fragment : Bytes}

theorem afterScheme_append (nameValid : ∀ c ∈ latin name, isSchemeChar c = true) (rest : Bytes) :
    afterScheme (name ++ Bytes.ofString "://" ++ rest) = rest := by
  have chars : latin (name ++ Bytes.ofString "://" ++ rest) =
      latin name ++ ("://".toList ++ latin rest) := by
    rw [latin_append, latin_append, latin_separator, List.append_assoc]
  have front : (latin name ++ ("://".toList ++ latin rest)).takeWhile isSchemeChar = latin name := by
    have colon : isSchemeChar ':' = false := by decide
    rw [List.takeWhile_append_of_pos nameValid]
    simp [colon]
  have separated : ((latin name ++ ("://".toList ++ latin rest)).drop (latin name).length).take 3 =
      "://".toList := by
    rw [List.drop_left]
    simp
  have width : (latin name).length + 3 = (name ++ Bytes.ofString "://").length := by
    rw [length_latin, List.length_append]
    rfl
  rw [afterScheme, chars, front, if_pos separated, width, List.drop_left]

theorem takeWhile_reverse_append (userEnds : user = [] ∨ user.getLast? = some 64)
    (hostPlain : 64 ∉ host) :
    ((user ++ host).reverse.takeWhile (· ≠ 64)).reverse = host := by
  have passes : ∀ b ∈ host.reverse, decide (b ≠ 64) = true := by
    intro b inside
    rw [decide_eq_true_eq]
    rintro rfl
    exact hostPlain (List.mem_reverse.mp inside)
  have stops : user.reverse.takeWhile (· ≠ 64) = [] := by
    rcases userEnds with rfl | ends
    · rfl
    · obtain ⟨front, rfl⟩ := List.getLast?_eq_some_iff.mp ends
      simp
  rw [List.reverse_append, List.takeWhile_append_of_pos passes, stops, List.append_nil,
    List.reverse_reverse]

/-- Whatever the scheme, the user and the fragment are, a colon and digits in the user included. -/
theorem essentials_append (nameValid : ∀ c ∈ latin name, isSchemeChar c = true)
    (authorityPlain : ∀ b ∈ user ++ host, b ≠ 47 ∧ b ≠ 63 ∧ b ≠ 35)
    (userEnds : user = [] ∨ user.getLast? = some 64) (hostPlain : 64 ∉ host)
    (targetBegins : ∀ b ∈ target.head?, b = 47 ∨ b = 63) (targetPlain : 35 ∉ target)
    (fragmentBegins : ∀ b ∈ fragment.head?, b = 35) :
    essentials (name ++ Bytes.ofString "://" ++ (user ++ host ++ target ++ fragment)) =
      (host, target) := by
  have other : name ++ Bytes.ofString "://" ++ (user ++ host ++ target ++ fragment) ≠ [42] := by
    intro same
    have width : (Bytes.ofString "://").length = 3 := by decide
    have lengths := congrArg List.length same
    simp only [List.length_append, List.length_singleton, width] at lengths
    omega
  have begins : BeginsAfterAuthority (target ++ fragment) := by
    cases target with
    | nil =>
      cases fragment with
      | nil => exact .inl rfl
      | cons b rest =>
        rw [fragmentBegins b rfl]
        exact .inr ⟨35, rest, rfl, by decide⟩
    | cons b rest =>
      rcases targetBegins b rfl with rfl | rfl
      · exact .inr ⟨47, rest ++ fragment, rfl, by decide⟩
      · exact .inr ⟨63, rest ++ fragment, rfl, by decide⟩
  have cut : (target ++ fragment).takeWhile (· ≠ 35) = target := by
    have passes : ∀ b ∈ target, decide (b ≠ 35) = true := by
      intro b inside
      rw [decide_eq_true_eq]
      rintro rfl
      exact targetPlain inside
    have stops : fragment.takeWhile (· ≠ 35) = [] := by
      cases fragment with
      | nil => rfl
      | cons b rest =>
        rw [fragmentBegins b rfl]
        rfl
    rw [List.takeWhile_append_of_pos passes, stops, List.append_nil]
  have follows : afterScheme (name ++ Bytes.ofString "://" ++ (user ++ host ++ target ++ fragment)) =
      user ++ host ++ (target ++ fragment) := by
    rw [afterScheme_append nameValid, List.append_assoc]
  rw [essentials_eq other follows authorityPlain begins, cut,
    takeWhile_reverse_append userEnds hostPlain]

example : essentials (Bytes.ofString "HTTP://u:80@h/x?y#z") =
    (Bytes.ofString "h", Bytes.ofString "/x?y") := by decide

end written

section scheme

theorem eq_of_toLower {chars word : List Char} (same : chars.map Char.toLower = word)
    (plain : ∀ c ∈ word, c.isAlpha = false) : chars = word := by
  subst same
  refine (List.map_id chars).symm.trans (List.map_congr_left ?_)
  intro c inside
  have lower := plain _ (List.mem_map_of_mem inside)
  rw [Char.isAlpha_toLower_eq_isAlpha] at lower
  have kept : ¬ c.isUpper = true := by
    intro upper
    simp [Char.isAlpha, upper] at lower
  exact (Char.toLower_eq_of_not_isUpper kept).symm

theorem isSchemeChar_of_toLower {c : Char} (valid : isSchemeChar c.toLower = true) :
    isSchemeChar c = true := by
  by_cases upper : c.isUpper = true
  · simp [isSchemeChar, Char.isAlphanum, Char.isAlpha, upper]
  · rwa [Char.toLower_eq_of_not_isUpper upper] at valid

/-- A text that begins with a scheme in any case. -/
theorem takeWhile_of_map_toLower {chars : List Char} {word : String}
    (valid : word.toList.all isSchemeChar = true)
    (begins : (chars.take (word.toList.length + 3)).map Char.toLower = (word ++ "://").toList) :
    chars.takeWhile isSchemeChar = chars.take word.toList.length ∧
      (chars.drop word.toList.length).take 3 = "://".toList := by
  have parts := begins
  rw [List.take_add, List.map_append, String.toList_append] at parts
  have long : word.toList.length ≤ chars.length := by
    have lengths := congrArg List.length begins
    simp at lengths
    omega
  obtain ⟨name, separator⟩ := List.append_inj parts (by simpa using long)
  have separated := eq_of_toLower separator (by simp)
  refine ⟨?_, separated⟩
  have whole := chars.take_append_drop word.toList.length
  have nameValid : ∀ c ∈ chars.take word.toList.length, isSchemeChar c = true := by
    intro c inside
    apply isSchemeChar_of_toLower
    exact List.all_eq_true.mp valid _ (name ▸ List.mem_map_of_mem inside)
  have colon : (chars.drop word.toList.length).takeWhile isSchemeChar = [] := by
    rw [← List.take_append_drop 3 (chars.drop word.toList.length), separated]
    rfl
  conv_lhs => rw [← whole, List.takeWhile_append_of_pos nameValid, colon, List.append_nil]

variable {scheme : Scheme} {bytes rest : Bytes}

theorem afterScheme_of_word (word : String) (valid : word.toList.all isSchemeChar = true)
    (begins : ((latin bytes).take (word.toList.length + 3)).map Char.toLower =
      (word ++ "://").toList) :
    afterScheme bytes = bytes.drop (word.toList.length + 3) := by
  obtain ⟨name, separated⟩ := takeWhile_of_map_toLower valid begins
  have width : ((latin bytes).takeWhile isSchemeChar).length = word.toList.length := by
    have lengths := congrArg List.length begins
    rw [name]
    simp at lengths ⊢
    omega
  rw [afterScheme, width, if_pos separated]

theorem afterScheme_of_splitScheme (split : splitScheme bytes = .ok (some (scheme, rest))) :
    afterScheme bytes = rest := by
  simp only [splitScheme] at split
  split at split
  · rename_i begins
    cases split
    exact afterScheme_of_word "http" (by decide) begins
  split at split
  · rename_i begins
    cases split
    exact afterScheme_of_word "https" (by decide) begins
  split at split
  · rename_i separated
    split at split
    · cases split
    · obtain ⟨_, -, pair⟩ := Option.map_eq_some_iff.mp (Except.ok.inj split)
      cases pair
      exact if_pos separated.2
  · cases split

/-- Without a slash there is no scheme. -/
theorem afterScheme_of_not_mem (plain : '/' ∉ latin bytes) : afterScheme bytes = bytes := by
  apply if_neg
  intro separated
  have inside : '/' ∈ "://".toList := by decide
  rw [← separated] at inside
  exact plain (List.mem_of_mem_drop (List.mem_of_mem_take inside))

end scheme

section reading

variable {text bytes rest : Bytes} {authority : Authority} {scheme : Scheme} {uri : Uri}

theorem not_isAuthorityEnd {b : UInt8} (inside : b ∈ Bytes.ofString authority.text) :
    b ≠ 47 ∧ b ≠ 63 ∧ b ≠ 35 := by
  have listed : Char.ofNat b.toNat ∈ authority.text.toList := by
    rw [← authority.latin_text]
    exact List.mem_map.mpr ⟨b, inside, rfl⟩
  have plain := Authority.isAuthorityEnd_eq_false listed
  rw [← Bool.not_eq_true, isAuthorityEnd_ofNat_iff] at plain
  simpa only [not_or] using plain

theorem latin_takeWhile_reverse (bytes : Bytes) :
    latin (bytes.reverse.takeWhile (· ≠ 64)).reverse =
      ((latin bytes).reverse.takeWhile (· ≠ '@')).reverse := by
  have sameByte : ∀ b : UInt8, decide (b ≠ 64) = decide (Char.ofNat b.toNat ≠ '@') := by
    decide +kernel
  have same : (fun b : UInt8 => decide (b ≠ 64)) =
      (fun c : Char => decide (c ≠ '@')) ∘ fun b => Char.ofNat b.toNat := funext sameByte
  rw [same, latin, latin, List.map_reverse, ← List.takeWhile_map, ← List.map_reverse]

theorem essentials_of_afterScheme (other : text ≠ [42])
    (follows : afterScheme text = Bytes.ofString authority.text ++ rest)
    (begins : BeginsAfterAuthority rest) :
    authority.hostAndPort = latin (essentials text).1 ∧
      (essentials text).2 = rest.takeWhile (· ≠ 35) := by
  rw [essentials_eq other follows (fun _ inside => not_isAuthorityEnd inside) begins,
    latin_takeWhile_reverse, Authority.latin_text]
  exact ⟨rfl, rfl⟩

theorem parse_takeWhile (bytes : Bytes) :
    PathAndQuery.parse (bytes.takeWhile (· ≠ 35)) = PathAndQuery.parse bytes := by
  rw [PathAndQuery.parse, PathAndQuery.parse, List.takeWhile_idem]

/-- The address has the host and port and the path and query that are written. -/
def Tells (uri : Uri) (text : Bytes) : Prop :=
  (uri.authority?.map Authority.hostAndPort).getD [] = latin (essentials text).1 ∧
    PathAndQuery.parse (essentials text).2 = .ok (uri.target?.getD .root)

theorem tells_of_parseAuthority {fault : UriFault} (other : text ≠ [42])
    (read : parseAuthority fault text = .ok uri) : uri.Tells text := by
  obtain ⟨authority, rfl, written⟩ := parseAuthority_eq_ok read
  have plain : '/' ∉ latin text := by
    rw [← written, authority.latin_text]
    intro inside
    exact absurd (Authority.isAuthorityEnd_eq_false inside) (by decide)
  have follows : afterScheme text = Bytes.ofString authority.text ++ [] := by
    rw [afterScheme_of_not_mem plain, List.append_nil, written]
  obtain ⟨host, path⟩ := essentials_of_afterScheme other follows (.inl rfl)
  exact ⟨host, by rw [path]; rfl⟩

theorem tells_of_parseAbsolute (other : text ≠ [42]) (follows : afterScheme text = bytes)
    (read : parseAbsolute scheme bytes = .ok uri) : uri.Tells text := by
  rw [parseAbsolute] at read
  split at read
  · cases read
  split at read
  · cases read
  · rename_i authority rest split
    obtain ⟨whole, -, begins⟩ := splitAuthority_eq_ok split
    split at read
    · cases read
    · obtain ⟨target, targetRead, rfl⟩ := Except.map_eq_ok read
      obtain ⟨host, path⟩ := essentials_of_afterScheme other (follows.trans whole) begins
      refine ⟨host, ?_⟩
      rw [path, parse_takeWhile]
      exact targetRead

theorem tells_of_parse_slash {target : PathAndQuery}
    (read : PathAndQuery.parse (47 :: bytes) = .ok target) :
    (Uri.originForm target).Tells (47 :: bytes) := by
  have follows : afterScheme (47 :: bytes) = 47 :: bytes := by
    rw [afterScheme]
    apply if_neg
    intro separated
    cases congrArg List.head? separated
  have path : (essentials (47 :: bytes)).2 = (47 :: bytes).takeWhile (· ≠ 35) := by
    rw [essentials, if_neg (by simp), follows]
    rfl
  refine ⟨?_, ?_⟩
  · rw [essentials, if_neg (by simp), follows]
    rfl
  · rw [path, parse_takeWhile]
    exact read

theorem tells_of_parse (read : parse text = .ok uri) : uri.Tells text := by
  rw [parse.eq_def] at read
  split at read
  · cases read
  split at read
  · cases read
  · rename_i b
    split at read
    · rename_i slash
      cases slash
      cases read
      exact tells_of_parse_slash rfl
    split at read
    · rename_i star
      cases star
      cases read
      exact ⟨rfl, by decide⟩
    rename_i other
    exact tells_of_parseAuthority (by simpa using other) read
  · rename_i b rest long _
    have other : b :: rest ≠ [42] := by
      intro same
      cases same
      exact long rfl
    split at read
    · rename_i slash
      cases slash
      obtain ⟨target, targetRead, rfl⟩ := Except.map_eq_ok read
      exact tells_of_parse_slash targetRead
    split at read
    · cases read
    · exact tells_of_parseAuthority other read
    · rename_i split
      exact tells_of_parseAbsolute other (afterScheme_of_splitScheme split) read

end reading

section congruence

variable {left right : Uri} {leftText rightText : Bytes}

theorem Tells.target (tellsLeft : left.Tells leftText) (tellsRight : right.Tells rightText)
    (same : essentials leftText = essentials rightText) :
    left.target?.getD .root = right.target?.getD .root := by
  have read := tellsLeft.2
  rw [same, tellsRight.2] at read
  exact (Except.ok.inj read).symm

/-- An address without an authority is like one whose authority has neither host nor port. -/
theorem Tells.authority (tellsLeft : left.Tells leftText) (tellsRight : right.Tells rightText)
    (same : essentials leftText = essentials rightText) :
    left.host? = right.host? ∧
      left.authority?.bind Authority.port? = right.authority?.bind Authority.port? := by
  have alike : (left.authority?.map Authority.hostAndPort).getD [] =
      (right.authority?.map Authority.hostAndPort).getD [] := by
    rw [tellsLeft.1, tellsRight.1, same]
  have nothing {authority : Authority} (empty : authority.hostAndPort = []) :
      authority.host = "" ∧ authority.port? = none := by
    rw [Authority.host, Authority.port?_eq, empty]
    exact ⟨rfl, rfl⟩
  rw [host?, host?]
  generalize left.authority? = first at alike ⊢
  generalize right.authority? = second at alike ⊢
  cases first with
  | none =>
    cases second with
    | none => exact ⟨rfl, rfl⟩
    | some authority =>
      have empty : authority.hostAndPort = [] := alike.symm
      obtain ⟨host, port⟩ := nothing empty
      simp [host, port, Option.filter]
  | some authority =>
    cases second with
    | none =>
      have empty : authority.hostAndPort = [] := alike
      obtain ⟨host, port⟩ := nothing empty
      simp [host, port, Option.filter]
    | some other =>
      have sameAuthority : authority.hostAndPort = other.hostAndPort := alike
      simp [Authority.host_congr sameAuthority, Authority.port?_congr sameAuthority]

end congruence

end Uri

end RequestSigning.Http
