/-!
# Placeholders

A placeholder is `@p` followed by a maximal run of digits. Text is split into placeholders and
single characters, without losing anything.
-/
namespace DeclarativeSql

inductive TextPart
  | plain (c : Char)
  | placeholder (digits : List Char)
  deriving DecidableEq

namespace TextPart

def chars : TextPart → List Char
  | plain c => [c]
  | placeholder digits => '@' :: 'p' :: digits

def join (parts : List TextPart) : List Char := parts.flatMap chars

/-- The digits at the front, and the rest. -/
def takeDigits : List TextPart → List Char × List TextPart
  | plain c :: rest =>
    if c.isDigit then
      let (digits, rest) := takeDigits rest
      (c :: digits, rest)
    else ([], plain c :: rest)
  | parts => ([], parts)

/-- Puts a character in front of text that is split already. -/
def push (c : Char) (parts : List TextPart) : List TextPart :=
  match parts with
  | plain 'p' :: rest =>
    if c = '@' then
      match takeDigits rest with
      | ([], _) => plain c :: parts
      | (digits, rest) => placeholder digits :: rest
    else plain c :: parts
  | _ => plain c :: parts

def split (s : List Char) : List TextPart := s.foldr push []

theorem join_takeDigits (parts : List TextPart) :
    (takeDigits parts).1 ++ join (takeDigits parts).2 = join parts := by
  induction parts with
  | nil => rfl
  | cons part parts ih =>
    cases part with
    | placeholder digits => rfl
    | plain c =>
      by_cases hc : c.isDigit
      · simpa [takeDigits, hc, join, chars] using ih
      · simp [takeDigits, hc]

theorem join_push (c : Char) (parts : List TextPart) : join (push c parts) = c :: join parts := by
  unfold push
  split
  · rename_i rest
    split
    · rename_i hc
      subst hc
      have h := join_takeDigits rest
      split
      · simp [join, chars]
      · rename_i digits rest' _ heq
        rw [heq] at h
        simp only [join, List.flatMap_cons, chars] at h ⊢
        simp [← h]
    · simp [join, chars]
  · simp [join, chars]

theorem join_split (s : List Char) : join (split s) = s := by
  induction s with
  | nil => rfl
  | cons c s ih => rw [split, List.foldr_cons, join_push, ← split, ih]

/-- The number that a run of digits spells. -/
def number (digits : List Char) : Nat :=
  digits.foldl (fun n c => 10 * n + (c.toNat - '0'.toNat)) 0

end TextPart

/-- The name of the parameter at position `n`. -/
def placeholderName (n : Nat) : String := "@p" ++ toString n

end DeclarativeSql
