import DeclarativeSql.Proofs.Results
import DeclarativeSql.Record.Annotation
import Mathlib.Data.List.Basic

/-!
# Default names of tables

A table without a name of its own is named after its record, in words with underscores between
them. Where a word begins is decided by the capitals of Unicode, but only those of ASCII are
lowered. So the capitals that the name keeps are the ones beyond ASCII, and taking the name apart
once more puts another underscore in front of each of them.
-/
namespace DeclarativeSql

variable {c : Char} {s : List Char}

namespace CharClass

/-- A capital that ASCII does not have. -/
def isWideCapital (c : Char) : Bool := isUppercase c && 128 ≤ c.toNat

theorem isUpper_iff_toNat : c.isUpper = true ↔ 65 ≤ c.toNat ∧ c.toNat ≤ 90 := by
  have hupper : c.isUpper = decide (65 ≤ c.val ∧ c.val ≤ 90) := rfl
  rw [hupper, decide_eq_true_eq, UInt32.le_iff_toNat_le, UInt32.le_iff_toNat_le]
  exact Iff.rfl

theorem toLower_of_not_isUpper (h : c.isUpper = false) : c.toLower = c :=
  dif_neg (of_decide_eq_false h)

theorem toNat_toLower_of_isUpper (h : c.isUpper = true) : c.toLower.toNat = c.toNat + 32 := by
  have hrange := isUpper_iff_toNat.mp h
  have hlower : c.toLower.val = c.val + 32 := congrArg Char.val (dif_pos (of_decide_eq_true h))
  rw [← Char.toNat_val, hlower, UInt32.toNat_add, Char.toNat_val]
  exact Nat.mod_eq_of_lt (by simp; omega)

theorem isUpper_toLower : c.toLower.isUpper = false := by
  rw [Bool.eq_false_iff, Ne, isUpper_iff_toNat]
  by_cases h : c.isUpper = true
  · have hrange := isUpper_iff_toNat.mp h
    rw [toNat_toLower_of_isUpper h]
    omega
  · rwa [toLower_of_not_isUpper (by simpa using h), ← isUpper_iff_toNat]

theorem isUppercase_toLower : isUppercase c.toLower = isWideCapital c := by
  by_cases h : c.isUpper = true
  · have hrange := isUpper_iff_toNat.mp h
    have hlow : c.toLower.toNat < 128 := by
      rw [toNat_toLower_of_isUpper h]
      omega
    have hwide : ¬ 128 ≤ c.toNat := by omega
    rw [isUppercase, if_pos hlow, isUpper_toLower, isWideCapital, decide_eq_false hwide,
      Bool.and_false]
  · rw [toLower_of_not_isUpper (by simpa using h), isWideCapital]
    by_cases hlow : c.toNat < 128
    · simp [isUppercase, hlow, h]
    · simp [Nat.not_lt.mp hlow]

theorem toLower_of_isWideCapital (h : isWideCapital c = true) : c.toLower = c := by
  apply toLower_of_not_isUpper
  rw [isWideCapital, Bool.and_eq_true, decide_eq_true_eq] at h
  rw [Bool.eq_false_iff, Ne, isUpper_iff_toNat]
  omega

end CharClass

open CharClass

/-- What a character in a name becomes that is not the first one. -/
def wordOf (c : Char) : List Char := if isUppercase c then ['_', c.toLower] else [c]

/-- The characters of a name in words. -/
def wordsOf : List Char → List Char
  | [] => []
  | c :: rest => c.toLower :: rest.flatMap wordOf

theorem toList_underscored (name : String) : (underscored name).toList = wordsOf name.toList := by
  rw [underscored]
  cases name.toList with
  | nil => rfl
  | cons c rest => exact String.toList_ofList

theorem filter_toLower : [c.toLower].filter isUppercase = [c].filter isWideCapital := by
  by_cases hwide : isWideCapital c = true
  · rw [List.filter_cons_of_pos (by rwa [isUppercase_toLower]), toLower_of_isWideCapital hwide,
      List.filter_cons_of_pos hwide, List.filter_nil, List.filter_nil]
  · simp [isUppercase_toLower, hwide]

theorem filter_wordOf : (wordOf c).filter isUppercase = [c].filter isWideCapital := by
  by_cases h : isUppercase c = true
  · rw [wordOf, if_pos h, List.filter_cons_of_neg (by decide), filter_toLower]
  · simp [wordOf, h, isWideCapital]

theorem filter_flatMap_wordOf :
    (s.flatMap wordOf).filter isUppercase = s.filter isWideCapital := by
  induction s with
  | nil => rfl
  | cons c s ih =>
    rw [List.flatMap_cons, List.filter_append, ih, filter_wordOf, ← List.filter_append,
      List.singleton_append]

/-- The capitals that are left are the ones beyond ASCII. -/
theorem filter_wordsOf : (wordsOf s).filter isUppercase = s.filter isWideCapital := by
  cases s with
  | nil => rfl
  | cons c s =>
    rw [wordsOf, ← List.singleton_append, List.filter_append, filter_toLower,
      filter_flatMap_wordOf, ← List.filter_append, List.singleton_append]

theorem length_flatMap_wordOf :
    (s.flatMap wordOf).length = s.length + s.countP isUppercase := by
  induction s with
  | nil => rfl
  | cons c s ih =>
    rw [List.flatMap_cons, List.length_append, ih, List.length_cons, List.countP_cons, wordOf]
    split
    · simp only [List.length_cons, List.length_nil]
      omega
    · simp only [List.length_cons, List.length_nil]
      omega

theorem flatMap_wordOf_eq_self_iff : s.flatMap wordOf = s ↔ s.filter isUppercase = [] := by
  constructor
  · intro h
    have hlength := congrArg List.length h
    rw [length_flatMap_wordOf, List.countP_eq_length_filter] at hlength
    exact List.eq_nil_of_length_eq_zero (by omega)
  · intro h
    rw [List.filter_eq_nil_iff] at h
    have hword : ∀ c ∈ s, wordOf c = [c] := fun c hc => if_neg (h c hc)
    rw [List.flatMap_congr hword, List.flatMap_singleton']

theorem wordsOf_wordsOf_eq_self_iff :
    wordsOf (wordsOf s) = wordsOf s ↔ s.tail.filter isWideCapital = [] := by
  cases s with
  | nil => simp [wordsOf]
  | cons c s =>
    rw [wordsOf, wordsOf, toLower_of_not_isUpper isUpper_toLower, List.cons.injEq,
      flatMap_wordOf_eq_self_iff, filter_flatMap_wordOf, List.tail_cons]
    exact and_iff_right rfl

/-- A default name keeps the capitals beyond ASCII and no others. So it has none exactly if the
record's name has none of these, and it is its own default name exactly if the record's name has
none of these behind its first character. -/
theorem underscored_capitals (name : String) :
    (underscored name).toList.filter isUppercase = name.toList.filter isWideCapital ∧
      ((∀ c ∈ (underscored name).toList, isUppercase c = false) ↔
        ∀ c ∈ name.toList, isWideCapital c = false) ∧
      (underscored (underscored name) = underscored name ↔
        ∀ c ∈ name.toList.tail, isWideCapital c = false) := by
  have hkept : (underscored name).toList.filter isUppercase = name.toList.filter isWideCapital := by
    rw [toList_underscored, filter_wordsOf]
  refine ⟨hkept, ?_, ?_⟩
  · simpa only [List.filter_eq_nil_iff, Bool.not_eq_true] using iff_of_eq (congrArg (· = []) hkept)
  · rw [← String.toList_inj, toList_underscored, toList_underscored, wordsOf_wordsOf_eq_self_iff,
      List.filter_eq_nil_iff]
    simp only [Bool.not_eq_true]

/-- A name with a capital beyond ASCII in it keeps that capital, and the name of the name has one
more underscore. -/
theorem underscored_keeps_capital :
    (∃ c rest, "UserÉtat".toList = c :: rest ∧ isIdentifierStart c = true ∧
      ∀ d ∈ rest, isIdentifier d = true) ∧
      underscored "UserÉtat" = "user_État" ∧ isUppercase 'É' = true ∧
      underscored (underscored "UserÉtat") = "user__État" := by
  have hrest : ∀ d ∈ "serÉtat".toList, isIdentifier d = true :=
    List.all_eq_true.mp (by decide +kernel)
  refine ⟨⟨'U', "serÉtat".toList, ?_, ?_, hrest⟩, ?_, ?_, ?_⟩ <;> decide +kernel

end DeclarativeSql
