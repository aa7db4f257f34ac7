import DeclarativeSql.Proofs.Parameters.Glyph

/-!
# Splitting any text

How texts split that may hold anything, also signs that look like a part of a placeholder. Where two
texts meet at punctuation no new placeholder comes up, and a split text splits the same way once its
placeholders have other numbers.
-/
namespace DeclarativeSql.TextPart

variable {c d : Char} {ps qs : List TextPart}

def startsWithDigit : List TextPart → Bool
  | plain c :: _ => c.isDigit
  | _ => false

/-- Behind an at sign, these parts would be taken for a placeholder. -/
def opensPlaceholder : List TextPart → Bool
  | plain c :: rest => c == 'p' && startsWithDigit rest
  | _ => false

theorem takeDigits_of_not_startsWithDigit (h : startsWithDigit ps = false) :
    takeDigits ps = ([], ps) := by
  cases ps with
  | nil => rfl
  | cons p ps =>
    cases p with
    | placeholder digits => rfl
    | plain c => exact if_neg (by simpa [startsWithDigit] using h)

theorem takeDigits_eq (ps : List TextPart) :
    ps = (takeDigits ps).1.map plain ++ (takeDigits ps).2 ∧
      (∀ d ∈ (takeDigits ps).1, d.isDigit = true) ∧ startsWithDigit (takeDigits ps).2 = false := by
  induction ps with
  | nil => exact ⟨rfl, by simp [takeDigits], rfl⟩
  | cons p ps ih =>
    cases p with
    | placeholder digits => exact ⟨rfl, by simp [takeDigits], rfl⟩
    | plain c =>
      by_cases hc : c.isDigit = true
      · simpa [takeDigits, hc] using ih
      · simp [takeDigits, hc, startsWithDigit]

theorem push_of_not_opensPlaceholder (h : c = '@' → opensPlaceholder ps = false) :
    push c ps = plain c :: ps := by
  by_cases hc : c = '@'
  · unfold push
    split
    next rest =>
      have hrest : startsWithDigit rest = false := by
        simpa [opensPlaceholder] using h hc
      rw [if_pos hc, takeDigits_of_not_startsWithDigit hrest]
    next => rfl
  · exact Glyph.push_of_ne hc ps

theorem push_of_opensPlaceholder (h : opensPlaceholder ps = true) :
    ∃ d digits rest, ps = plain 'p' :: ((d :: digits).map plain ++ rest) ∧
      (∀ x ∈ d :: digits, x.isDigit = true) ∧ startsWithDigit rest = false ∧
      push '@' ps = placeholder (d :: digits) :: rest := by
  rcases ps with _ | ⟨c | digits, ps⟩
  · cases h
  · obtain ⟨rfl, hdigit⟩ : c = 'p' ∧ startsWithDigit ps = true := by
      simpa [opensPlaceholder] using h
    obtain ⟨hps, hdigits, hrest⟩ := takeDigits_eq ps
    cases htake : takeDigits ps with
    | mk digits rest =>
      rw [htake] at hps hdigits hrest
      cases digits with
      | nil =>
        rw [hps] at hdigit
        exact absurd (hdigit.symm.trans hrest) (by decide)
      | cons d digits =>
        refine ⟨d, digits, rest, congrArg _ hps, hdigits, hrest, ?_⟩
        simp only [push, if_true, htake]
  · cases h

theorem split_of_notMem {s : List Char} (h : '@' ∉ s) : split s = s.map plain := by
  induction s with
  | nil => rfl
  | cons c s ih =>
    have hc : c ≠ '@' := fun hc => h (hc ▸ List.mem_cons_self)
    have hcons : split (c :: s) = push c (split s) := rfl
    rw [hcons, ih fun hs => h (List.mem_cons_of_mem _ hs), Glyph.push_of_ne hc, List.map_cons]

/-- Nothing in these parts is left to be taken for a placeholder, or for more of one. -/
inductive AreSplit : List TextPart → Prop
  | nil : AreSplit []
  | plain {c : Char} {ps : List TextPart} (h : AreSplit ps)
    (hopens : c = '@' → opensPlaceholder ps = false) : AreSplit (plain c :: ps)
  | placeholder {digits : List Char} {ps : List TextPart} (h : AreSplit ps)
    (hne : digits ≠ []) (hdigits : ∀ d ∈ digits, d.isDigit = true)
    (hends : startsWithDigit ps = false) : AreSplit (placeholder digits :: ps)

namespace AreSplit

theorem of_append (h : AreSplit (ps ++ qs)) : AreSplit qs := by
  induction ps with
  | nil => exact h
  | cons p ps ih =>
    cases h with
    | plain h => exact ih h
    | placeholder h => exact ih h

theorem push (h : AreSplit ps) : AreSplit (TextPart.push c ps) := by
  by_cases hc : c = '@' ∧ opensPlaceholder ps = true
  · obtain ⟨rfl, hopens⟩ := hc
    obtain ⟨d, digits, rest, rfl, hdigits, hends, hpush⟩ := push_of_opensPlaceholder hopens
    rw [hpush]
    rw [← List.cons_append] at h
    exact .placeholder h.of_append (List.cons_ne_nil _ _) hdigits hends
  · have hopens : c = '@' → opensPlaceholder ps = false := by simpa using hc
    rw [push_of_not_opensPlaceholder hopens]
    exact .plain h hopens

theorem split (s : List Char) : AreSplit (TextPart.split s) := by
  induction s with
  | nil => exact .nil
  | cons c s ih => exact ih.push

theorem split_join (h : AreSplit ps) : TextPart.split (join ps) = ps := by
  induction h with
  | nil => rfl
  | @plain c ps _ hopens ih =>
    have hsplit : TextPart.split (join (.plain c :: ps)) =
        TextPart.push c (TextPart.split (join ps)) := rfl
    rw [hsplit, ih, push_of_not_opensPlaceholder hopens]
  | @placeholder digits ps _ hne hdigits hends ih =>
    have hsplit : TextPart.split (join (.placeholder digits :: ps)) =
        TextPart.push '@' (TextPart.push 'p' (digits.foldr TextPart.push
          (TextPart.split (join ps)))) := by
      simp [TextPart.split, join, chars]
    rw [hsplit, ih, Glyph.foldr_push_digits hdigits, Glyph.push_of_ne (c := 'p') (by decide)]
    exact Glyph.push_placeholder hne hdigits (takeDigits_of_not_startsWithDigit hends)

theorem of_mem (h : AreSplit ps) {digits : List Char} (hmem : TextPart.placeholder digits ∈ ps) :
    digits ≠ [] ∧ ∀ d ∈ digits, d.isDigit = true := by
  induction h with
  | nil => cases hmem
  | plain _ _ ih => exact ih (by simpa using hmem)
  | placeholder _ hne hdigits _ ih =>
    rcases List.mem_cons.mp hmem with heq | hmem
    · cases heq
      exact ⟨hne, hdigits⟩
    · exact ih hmem

end AreSplit

/-- The same character, or placeholders both, the second with a number. -/
inductive Alike : TextPart → TextPart → Prop
  | plain (c : Char) : Alike (plain c) (plain c)
  | placeholder (digits : List Char) (n : Nat) :
    Alike (placeholder digits) (placeholder (Nat.toDigits 10 n))

section Alike

variable (h : List.Forall₂ Alike ps qs)

include h

theorem startsWithDigit_of_alike : startsWithDigit qs = startsWithDigit ps := by
  cases h with
  | nil => rfl
  | cons hpart _ => cases hpart <;> rfl

theorem opensPlaceholder_of_alike : opensPlaceholder qs = opensPlaceholder ps := by
  cases h with
  | nil => rfl
  | cons hpart hrest =>
    cases hpart with
    | plain c => simp only [opensPlaceholder, startsWithDigit_of_alike hrest]
    | placeholder => rfl

/-- Other numbers of placeholders do not change how a text splits. -/
theorem AreSplit.of_alike (hps : AreSplit ps) : AreSplit qs := by
  induction h with
  | nil => exact .nil
  | cons hpart hrest ih =>
    cases hpart with
    | plain c =>
      cases hps with
      | plain hps hopens =>
        exact .plain (ih hps) fun hc => (opensPlaceholder_of_alike hrest).trans (hopens hc)
    | placeholder digits n =>
      cases hps with
      | placeholder hps _ _ hends =>
        exact .placeholder (ih hps) Nat.toDigits_ne_nil (fun d => Glyph.isDigit_of_mem_toDigits)
          ((startsWithDigit_of_alike hrest).trans hends)

end Alike

/-- A character that is no part of a placeholder. -/
def IsBreak (c : Char) : Prop := c ≠ '@' ∧ c ≠ 'p' ∧ c.isDigit = false

theorem isBreak_of_isSymbol (h : Spacing.isSymbol c = true) : IsBreak c := by
  have hletter : c.isAlphanum = false := by
    by_contra hc
    rw [Spacing.isSymbol_of_isAlphanum (by simpa using hc)] at h
    cases h
  refine ⟨?_, ?_, ?_⟩
  · rintro rfl
    exact absurd h (by decide)
  · rintro rfl
    exact absurd hletter (by decide)
  · rw [Char.isAlphanum, Bool.or_eq_false_iff] at hletter
    exact hletter.2

theorem takeDigits_append_break (hc : IsBreak c) (ps qs : List TextPart) :
    takeDigits (ps ++ plain c :: qs) = ((takeDigits ps).1, (takeDigits ps).2 ++ plain c :: qs) := by
  induction ps with
  | nil => exact takeDigits_of_not_startsWithDigit hc.2.2
  | cons p ps ih =>
    cases p with
    | placeholder digits => rfl
    | plain d =>
      by_cases hd : d.isDigit = true
      · simp only [List.cons_append, takeDigits, hd, if_true, ih]
      · simp only [List.cons_append, takeDigits, hd, Bool.false_eq_true, if_false]

theorem push_append_break (hc : IsBreak c) (d : Char) (ps qs : List TextPart) :
    push d (ps ++ plain c :: qs) = push d ps ++ plain c :: qs := by
  by_cases hd : d = '@' ∧ opensPlaceholder ps = true
  · obtain ⟨rfl, hopens⟩ := hd
    obtain ⟨e, digits, rest, rfl, hdigits, hends, hpush⟩ := push_of_opensPlaceholder hopens
    have htake := takeDigits_of_not_startsWithDigit hends
    have hrest : takeDigits (rest ++ plain c :: qs) = ([], rest ++ plain c :: qs) := by
      rw [takeDigits_append_break hc, htake]
    rw [hpush, List.cons_append, List.append_assoc,
      Glyph.push_placeholder (List.cons_ne_nil _ _) hdigits hrest, List.cons_append]
  · have hopens : d = '@' → opensPlaceholder ps = false := by simpa using hd
    have hopens' : d = '@' → opensPlaceholder (ps ++ plain c :: qs) = false := by
      intro hat
      have hps := hopens hat
      rcases ps with _ | ⟨x | digits, _ | ⟨y | digits', ps⟩⟩
      · simp [opensPlaceholder, hc.2.1]
      · simp [opensPlaceholder, startsWithDigit, hc.2.2]
      all_goals exact hps
    rw [push_of_not_opensPlaceholder hopens, push_of_not_opensPlaceholder hopens',
      List.cons_append]

/-- Around a character that is no part of a placeholder, a text splits on its own on both sides. -/
theorem split_append_break (hc : IsBreak c) (s t : List Char) :
    split (s ++ c :: t) = split s ++ plain c :: split t := by
  induction s with
  | nil => exact Glyph.push_of_ne hc.1 _
  | cons d s ih =>
    have hcons : ∀ xs, split (d :: xs) = push d (split xs) := fun _ => rfl
    rw [List.cons_append, hcons, ih, push_append_break hc, hcons]

end DeclarativeSql.TextPart
