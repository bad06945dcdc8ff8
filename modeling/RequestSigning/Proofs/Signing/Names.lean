import Mathlib
import RequestSigning.Signing.Names
set_option autoImplicit false

namespace RequestSigning

namespace Http

theorem toList_lowercase (text : String) :
    (lowercase text).toList = text.toList.map Char.toLower :=
  String.toList_ofList

@[simp] theorem lowercase_lowercase (text : String) :
    lowercase (lowercase text) = lowercase text := by
  apply String.toList_inj.mp
  simp [toList_lowercase]

/-- Only letters change, so that all else was there before. -/
theorem mem_of_mem_lowercase {text : String} {c : Char} (inside : c ∈ (lowercase text).toList)
    (other : c.isAlpha = false) : c ∈ text.toList := by
  rw [toList_lowercase, List.mem_map] at inside
  obtain ⟨d, found, rfl⟩ := inside
  rw [Char.isAlpha_toLower_eq_isAlpha] at other
  have : ¬ d.isUpper := by
    intro upper
    simp [Char.isAlpha, upper] at other
  rwa [Char.toLower_eq_of_not_isUpper this]

theorem mem_lowercase_iff {text : String} {c : Char} (other : c.isAlpha = false) :
    c ∈ (lowercase text).toList ↔ c ∈ text.toList := by
  refine ⟨fun inside => mem_of_mem_lowercase inside other, fun inside => ?_⟩
  have kept : c.toLower = c := by
    apply Char.toLower_eq_of_not_isUpper
    intro upper
    simp [Char.isAlpha, upper] at other
  rw [toList_lowercase, List.mem_map]
  exact ⟨c, inside, kept⟩

theorem lowercase_eq_empty_iff {text : String} : lowercase text = "" ↔ text = "" := by
  rw [← String.toList_inj, toList_lowercase, ← String.toList_inj]
  simp

theorem HeaderName.text_of_ofText? {text : String} {name : HeaderName}
    (read : ofText? text = some name) : name.text = lowercase text := by
  rw [ofText?] at read
  split at read
  · cases read
    rfl
  · cases read

theorem HeaderName.not_mem_text (name : HeaderName) {c : Char} (other : isTokenChar c = false) :
    c ∉ name.text.toList := by
  intro inside
  have token := List.all_eq_true.mp name.token c inside
  simp [isHeaderNameChar, other] at token

end Http

namespace Signing

open Http

/-- What may stand in a list of names to sign: a header's name or the name of the line for
method, path and query, in any case. -/
def IsSignable (name : String) : Prop :=
  lowercase name = requestTargetName ∨ (HeaderName.ofText? name).isSome

instance (name : String) : Decidable (IsSignable name) :=
  inferInstanceAs (Decidable (_ ∨ _))

namespace IsSignable

variable {name : String}

theorem not_mem_lowercase (signable : IsSignable name) {c : Char} (other : isTokenChar c = false)
    (outside : c ∉ requestTargetName.toList) : c ∉ (lowercase name).toList := by
  rcases signable with target | header
  · rw [target]
    exact outside
  · obtain ⟨header, read⟩ := Option.isSome_iff_exists.mp header
    rw [← HeaderName.text_of_ofText? read]
    exact header.not_mem_text other

theorem newline_not_mem (signable : IsSignable name) : '\n' ∉ (lowercase name).toList :=
  signable.not_mem_lowercase (by decide) (by decide)

theorem colon_not_mem (signable : IsSignable name) : ':' ∉ (lowercase name).toList :=
  signable.not_mem_lowercase (by decide) (by decide)

theorem space_not_mem (signable : IsSignable name) : ' ' ∉ (lowercase name).toList :=
  signable.not_mem_lowercase (by decide) (by decide)

theorem lowercase_ne_empty (signable : IsSignable name) : lowercase name ≠ "" := by
  rcases signable with target | header
  · rw [target]
    decide
  · obtain ⟨header, read⟩ := Option.isSome_iff_exists.mp header
    rw [← HeaderName.text_of_ofText? read]
    exact header.nonempty

end IsSignable

end Signing

end RequestSigning
