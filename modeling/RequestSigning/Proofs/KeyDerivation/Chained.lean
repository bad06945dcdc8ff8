import Mathlib
import RequestSigning.KeyDerivation.Chained
set_option autoImplicit false

namespace RequestSigning.KeyDerivation

section Links

variable (passphrase salt : Bytes)

/-- The first link is the digest of passphrase and salt, and a later one that of the link before
it, passphrase and salt. -/
def link : (place : Nat) → Bytes
  | 0 => Md5.digest (passphrase ++ salt)
  | place + 1 => Md5.digest (link place ++ passphrase ++ salt)

/-- The first `count` links, one after another. -/
def links (count : Nat) : Bytes :=
  (List.range count).flatMap (link passphrase salt)

theorem length_link (place : Nat) : (link passphrase salt place).length = 16 := by
  cases place with
  | zero => exact Md5.length_digest _
  | succ place => exact Md5.length_digest _

theorem links_succ (count : Nat) :
    links passphrase salt (count + 1) =
      links passphrase salt count ++ link passphrase salt count := by
  rw [links, List.range_succ, List.flatMap_append, List.flatMap_singleton, links]

theorem length_links (count : Nat) : (links passphrase salt count).length = 16 * count := by
  induction count with
  | zero => rfl
  | succ count ih =>
    rw [links_succ, List.length_append, ih, length_link]
    omega

theorem links_isPrefix {fewer more : Nat} (le : fewer ≤ more) :
    links passphrase salt fewer <+: links passphrase salt more := by
  induction more, le using Nat.le_induction with
  | base => exact List.prefix_rfl
  | succ more _ ih =>
    rw [links_succ]
    exact ih.trans (List.prefix_append _ _)

/-- How many links are made does not matter, as long as they are enough. -/
theorem take_links {fewer more length : Nat} (le : fewer ≤ more) (enough : length ≤ 16 * fewer) :
    (links passphrase salt more).take length = (links passphrase salt fewer).take length := by
  obtain ⟨rest, parts⟩ := links_isPrefix passphrase salt le
  rw [← parts, List.take_append_of_le_length (by rw [length_links]; exact enough)]

end Links

namespace Chain

variable (passphrase salt : Bytes)

/-- The chain of the first `count` links. -/
def ofLinks : (count : Nat) → Chain
  | 0 => empty
  | count + 1 => ⟨links passphrase salt (count + 1), link passphrase salt count⟩

theorem bytes_ofLinks (count : Nat) :
    (ofLinks passphrase salt count).bytes = links passphrase salt count := by
  cases count <;> rfl

/-- One round makes the link that comes next. -/
theorem extend_ofLinks (count : Nat) :
    (ofLinks passphrase salt count).extend passphrase salt =
      ofLinks passphrase salt (count + 1) := by
  cases count with
  | zero => rfl
  | succ count =>
    rw [ofLinks, extend, ofLinks, links_succ passphrase salt (count + 1)]
    rfl

/-- After so many rounds there are so many links. -/
theorem iterate_extend (rounds : Nat) :
    (extend passphrase salt)^[rounds] empty = ofLinks passphrase salt rounds := by
  induction rounds with
  | zero => rfl
  | succ rounds ih => rw [Function.iterate_succ_apply', ih, extend_ofLinks]

/-- A loop that goes on while there are fewer than `length` bytes is left after `rounds` rounds. -/
structure StopsAfter (length : Nat) (chain : Chain) (rounds : Nat) : Prop where
  goesOn : ∀ round < rounds, ((extend passphrase salt)^[round] chain).bytes.length < length
  stops : length ≤ ((extend passphrase salt)^[rounds] chain).bytes.length

variable {passphrase salt}

theorem extendTo_eq_iterate {length rounds : Nat} {chain : Chain}
    (left : StopsAfter passphrase salt length chain rounds) :
    chain.extendTo passphrase salt length = (extend passphrase salt)^[rounds] chain := by
  induction rounds generalizing chain with
  | zero =>
    have long : ¬ chain.bytes.length < length := Nat.not_lt.mpr left.stops
    rw [extendTo, if_neg long, Function.iterate_zero_apply]
  | succ rounds ih =>
    have short : chain.bytes.length < length := left.goesOn 0 (Nat.succ_pos rounds)
    have later : StopsAfter passphrase salt length (chain.extend passphrase salt) rounds :=
      ⟨fun round within => left.goesOn (round + 1) (Nat.succ_lt_succ within), left.stops⟩
    rw [extendTo, if_pos short, ih later, Function.iterate_succ_apply]

variable (passphrase salt)

/-- A round for each sixteen bytes, and one for what is left. -/
theorem stopsAfter_empty (length : Nat) :
    StopsAfter passphrase salt length empty ((length + 15) / 16) where
  goesOn := by
    intro round within
    rw [iterate_extend, bytes_ofLinks, length_links]
    omega
  stops := by
    rw [iterate_extend, bytes_ofLinks, length_links]
    omega

end Chain

variable (passphrase salt : Bytes)

theorem chained_eq_take_links {length count : Nat} (enough : length ≤ 16 * count) :
    chained passphrase salt length = (links passphrase salt count).take length := by
  have needed : length ≤ 16 * ((length + 15) / 16) := by omega
  have fewest : (length + 15) / 16 ≤ count := by omega
  rw [chained, Chain.extendTo_eq_iterate (Chain.stopsAfter_empty passphrase salt length),
    Chain.iterate_extend, Chain.bytes_ofLinks, take_links passphrase salt fewest needed]

/-- The chain is long enough for a key of any length. -/
@[simp] theorem length_chained (length : Nat) :
    (chained passphrase salt length).length = length := by
  have enough : length ≤ 16 * length := by omega
  rw [chained_eq_take_links passphrase salt enough, List.length_take, length_links,
    min_eq_left enough]

theorem chained_isPrefix {shorter length : Nat} (le : shorter ≤ length) :
    chained passphrase salt shorter <+: chained passphrase salt length := by
  have enough : length ≤ 16 * length := by omega
  rw [chained_eq_take_links passphrase salt enough,
    chained_eq_take_links passphrase salt (le.trans enough)]
  exact List.take_prefix_take_left le

/-- The loop ends, its bytes are cut to a key of the length that was asked for, and this is what
the links in a row begin with. So a shorter key is the beginning of a longer one. -/
theorem chained_eq_beginning (length : Nat) :
    (∃ rounds, Chain.StopsAfter passphrase salt length .empty rounds ∧
      chained passphrase salt length =
        ((Chain.extend passphrase salt)^[rounds] .empty).bytes.take length) ∧
    (chained passphrase salt length).length = length ∧
    (∀ count, length ≤ 16 * count →
      chained passphrase salt length = (links passphrase salt count).take length) ∧
    ∀ shorter ≤ length, chained passphrase salt shorter <+: chained passphrase salt length := by
  have left := Chain.stopsAfter_empty passphrase salt length
  refine ⟨⟨_, left, ?_⟩, length_chained passphrase salt length, ?_, ?_⟩
  · rw [chained, Chain.extendTo_eq_iterate left]
  · intro count enough
    exact chained_eq_take_links passphrase salt enough
  · intro shorter le
    exact chained_isPrefix passphrase salt le

/-- A key of two and a half digests, and one of one and a half. -/
theorem chained_eq_beginning_forty :
    let passphrase : Bytes := [112, 97, 115, 115]
    let salt : Bytes := [115, 97, 108, 116, 115, 97, 108, 116]
    40 ≤ 16 * 3 ∧ 24 ≤ 40 ∧
      chained passphrase salt 40 =
        [4, 210, 208, 146, 222, 246, 169, 112, 171, 108, 55, 214, 126, 6, 253, 63, 226, 8, 110, 179,
          56, 86, 205, 211, 104, 36, 67, 199, 189, 182, 182, 91, 97, 16, 4, 168, 171, 25, 4, 74] ∧
      chained passphrase salt 24 <+: chained passphrase salt 40 := by
  intro passphrase salt
  obtain ⟨-, -, cut, begins⟩ := chained_eq_beginning passphrase salt 40
  refine ⟨by decide, by decide, ?_, begins 24 (by decide)⟩
  rw [cut 3 (by decide)]
  decide +kernel

end RequestSigning.KeyDerivation
