import DeclarativeSql.Proofs.Parameters.Splitting

/-!
# Rewriting placeholders

What becomes of a text once its placeholders are positional. The rule is stated on the text alone:
`@p` and all the digits behind it give a dollar sign and the next number, anything else is copied.
It settles the outcome, and no placeholder comes up where a number meets what was copied, so there
is nothing left to rewrite.
-/
namespace DeclarativeSql

namespace TextPart

variable {c : Char} {digits : List Char} {ps : List TextPart}

theorem startsWithDigit_eq (ps : List TextPart) :
    startsWithDigit ps = (join ps).head?.any Char.isDigit := by
  rcases ps with _ | ⟨c | digits, ps⟩ <;> rfl

theorem opensPlaceholder_iff : opensPlaceholder ps = true ↔
    ∃ d rest, join ps = 'p' :: d :: rest ∧ d.isDigit = true := by
  rcases ps with _ | ⟨c | digits, ps⟩
  · simp [opensPlaceholder, join]
  · have hjoin : join (plain c :: ps) = c :: join ps := rfl
    rw [opensPlaceholder, startsWithDigit_eq, hjoin]
    cases join ps <;> simp
  · simp [opensPlaceholder, join, chars]

theorem placeholder_mem_push (h : placeholder digits ∈ ps) : placeholder digits ∈ push c ps := by
  by_cases hc : c = '@' ∧ opensPlaceholder ps = true
  · obtain ⟨rfl, hopens⟩ := hc
    obtain ⟨d, ds, rest, rfl, -, -, hpush⟩ := push_of_opensPlaceholder hopens
    rw [hpush]
    apply List.mem_cons_of_mem
    simpa using h
  · rw [push_of_not_opensPlaceholder (by simpa using hc)]
    exact List.mem_cons_of_mem _ h

end TextPart

namespace Postgres

variable {c : Char} {digits s t : List Char}

/-- No digit stands in front. -/
def EndsDigits (s : List Char) : Prop := ∀ d ∈ s.head?, d.isDigit = false

/-- Somewhere in the text, these are all the digits behind `@p`. -/
def IsRunIn (digits s : List Char) : Prop :=
  ∃ before after, s = before ++ '@' :: 'p' :: (digits ++ after) ∧
    (∀ d ∈ digits, d.isDigit = true) ∧ EndsDigits after

/-- A placeholder stands in front. -/
def StartsPlaceholder (s : List Char) : Prop :=
  ∃ d rest, s = '@' :: 'p' :: d :: rest ∧ d.isDigit = true

/-- The second text is the first one with positional placeholders. -/
inductive Rewrites : List Char → List Char → Prop
  | nil : Rewrites [] []
  | placeholder {digits s t : List Char} (hne : digits ≠ [])
    (hdigits : ∀ d ∈ digits, d.isDigit = true) (hends : EndsDigits s) (h : Rewrites s t) :
    Rewrites ('@' :: 'p' :: (digits ++ s))
      ('$' :: (Nat.toDigits 10 (Nat.ofDigitChars 10 digits 0 + 1) ++ t))
  | copied {c : Char} {s t : List Char} (hc : ¬ StartsPlaceholder (c :: s)) (h : Rewrites s t) :
    Rewrites (c :: s) (c :: t)

theorem endsDigits_iff : EndsDigits s ↔ TextPart.startsWithDigit (TextPart.split s) = false := by
  rw [TextPart.startsWithDigit_eq, TextPart.join_split, EndsDigits]
  cases s <;> simp

theorem opensPlaceholder_split (hc : ¬ StartsPlaceholder (c :: s)) :
    c = '@' → TextPart.opensPlaceholder (TextPart.split s) = false := by
  rintro rfl
  rw [Bool.eq_false_iff]
  intro hopens
  obtain ⟨d, rest, hs, hd⟩ := TextPart.opensPlaceholder_iff.mp hopens
  rw [TextPart.join_split] at hs
  exact hc ⟨d, rest, by rw [hs], hd⟩

theorem split_placeholder (hne : digits ≠ []) (hdigits : ∀ d ∈ digits, d.isDigit = true)
    (hends : EndsDigits s) : TextPart.split ('@' :: 'p' :: (digits ++ s)) =
      .placeholder digits :: TextPart.split s := by
  have hsplit : TextPart.AreSplit (.placeholder digits :: TextPart.split s) :=
    .placeholder (.split s) hne hdigits (endsDigits_iff.mp hends)
  have hjoin : TextPart.join (.placeholder digits :: TextPart.split s) =
      '@' :: 'p' :: (digits ++ s) :=
    congrArg (fun rest => '@' :: 'p' :: (digits ++ rest)) (TextPart.join_split s)
  rw [← hjoin, hsplit.split_join]

/-- The placeholders of a text are its runs of digits behind `@p`. -/
theorem isRunIn_iff (hne : digits ≠ []) :
    IsRunIn digits s ↔ .placeholder digits ∈ TextPart.split s := by
  constructor
  · rintro ⟨before, after, rfl, hdigits, hends⟩
    induction before with
    | nil =>
      rw [List.nil_append, split_placeholder hne hdigits hends]
      exact List.mem_cons_self
    | cons c before ih => exact TextPart.placeholder_mem_push ih
  · intro hmem
    have hsplit := TextPart.AreSplit.split s
    obtain ⟨before, after, hparts⟩ := List.append_of_mem hmem
    have hs := congrArg TextPart.join hparts
    rw [TextPart.join_split, TextPart.join, List.flatMap_append, List.flatMap_cons] at hs
    rw [hparts] at hsplit
    cases hsplit.of_append with
    | placeholder hafter _ hdigits hends =>
      refine ⟨_, TextPart.join after, hs, hdigits, ?_⟩
      rw [endsDigits_iff, hafter.split_join]
      exact hends

/-- The placeholders of the text have numbers whose successors are words. -/
def HasWords (s : List Char) : Prop :=
  ∀ digits, .placeholder digits ∈ TextPart.split s → TextPart.number digits < UInt64.size - 1

/-- The function does what the rule says. -/
theorem rewrites_of_areSplit {ps : List TextPart} (h : TextPart.AreSplit ps)
    (hwords : ∀ digits, .placeholder digits ∈ ps → TextPart.number digits < UInt64.size - 1) :
    Rewrites (TextPart.join ps) (ps.flatMap positionalPart) := by
  induction h with
  | nil => exact .nil
  | @plain c ps hps hopens ih =>
    refine .copied ?_ (ih fun ds hds => hwords ds (List.mem_cons_of_mem _ hds))
    rintro ⟨d, rest, hstart, hd⟩
    obtain ⟨rfl, hjoin⟩ := List.cons.inj hstart
    have htrue := TextPart.opensPlaceholder_iff.mpr ⟨d, rest, hjoin, hd⟩
    rw [hopens rfl] at htrue
    cases htrue
  | @placeholder digits ps hps hne hdigits hends ih =>
    have hjoin : EndsDigits (TextPart.join ps) := by rwa [endsDigits_iff, hps.split_join]
    rw [List.flatMap_cons, positionalPart_placeholder (hwords digits List.mem_cons_self)]
    exact .placeholder hne hdigits hjoin
      (ih fun ds hds => hwords ds (List.mem_cons_of_mem _ hds))

theorem Rewrites.eq_flatMap (h : Rewrites s t) (hwords : HasWords s) :
    t = (TextPart.split s).flatMap positionalPart := by
  induction h with
  | nil => rfl
  | @placeholder digits s t hne hdigits hends h ih =>
    rw [HasWords, split_placeholder hne hdigits hends] at hwords
    rw [split_placeholder hne hdigits hends, List.flatMap_cons,
      positionalPart_placeholder (hwords digits List.mem_cons_self),
      ← ih fun ds hds => hwords ds (List.mem_cons_of_mem _ hds), List.cons_append]
    rfl
  | @copied c s t hc h ih =>
    have hsplit : TextPart.split (c :: s) = .plain c :: TextPart.split s :=
      TextPart.push_of_not_opensPlaceholder (opensPlaceholder_split hc)
    rw [HasWords, hsplit] at hwords
    rw [hsplit, List.flatMap_cons, ← ih fun ds hds => hwords ds (List.mem_cons_of_mem _ hds)]
    rfl

/-- Nowhere in the text a digit follows `@p`. -/
def HasNoPlaceholder (s : List Char) : Prop := ∀ d, d.isDigit = true → ¬ ['@', 'p', d] <:+: s

theorem HasNoPlaceholder.append (h : HasNoPlaceholder t) {s : List Char} (hs : '@' ∉ s) :
    HasNoPlaceholder (s ++ t) := by
  induction s with
  | nil => exact h
  | cons c s ih =>
    rw [List.mem_cons, not_or] at hs
    intro d hd hinfix
    rcases List.infix_cons_iff.mp hinfix with hstart | hinfix
    · exact hs.1 (List.cons_prefix_cons.mp hstart).1
    · exact ih hs.2 d hd hinfix

/-- What begins with `p` and a digit was copied. -/
theorem Rewrites.startsAlike {d : Char} (h : Rewrites s ('p' :: d :: t)) (hd : d.isDigit = true) :
    ∃ rest, s = 'p' :: d :: rest := by
  cases h with
  | copied _ h =>
    cases h with
    | placeholder => cases hd
    | @copied _ rest => exact ⟨rest, rfl⟩

/-- No placeholder comes up, neither in the numbers nor where they meet the rest. -/
theorem Rewrites.hasNoPlaceholder (h : Rewrites s t) : HasNoPlaceholder t := by
  induction h with
  | nil => exact fun d hd hinfix => absurd hinfix (by simp)
  | @placeholder digits s t hne hdigits hends h ih =>
    rw [← List.cons_append]
    apply ih.append
    rw [List.mem_cons, not_or]
    refine ⟨by decide, fun hat => ?_⟩
    exact absurd (Glyph.isDigit_of_mem_toDigits hat) (by decide)
  | @copied c s t hc h ih =>
    intro d hd hinfix
    rcases List.infix_cons_iff.mp hinfix with ⟨rest, hstart⟩ | hinfix
    · obtain ⟨rfl, ht⟩ := List.cons.inj hstart
      rw [← ht] at h
      obtain ⟨rest, rfl⟩ := h.startsAlike hd
      exact hc ⟨d, rest, rfl, hd⟩
    · exact ih d hd hinfix

theorem toPositional_of_hasNoPlaceholder {text : String} (h : HasNoPlaceholder text.toList) :
    toPositional text = text := by
  have hplain : ∀ part ∈ TextPart.split text.toList, positionalPart part = part.chars := by
    intro part hpart
    cases part with
    | plain c => rfl
    | placeholder digits =>
      obtain ⟨hne, hdigits⟩ := (TextPart.AreSplit.split _).of_mem hpart
      obtain ⟨d, ds, rfl⟩ := List.exists_cons_of_ne_nil hne
      obtain ⟨before, after, htext, -⟩ := (isRunIn_iff hne).mpr hpart
      refine absurd ?_ (h d (hdigits d List.mem_cons_self))
      exact ⟨before, ds ++ after, by simp [htext]⟩
  rw [toPositional, List.flatMap_congr hplain, ← TextPart.join, TextPart.join_split,
    String.ofList_toList]

/-- Each placeholder becomes the positional one of the next number and the rest is copied. The
outcome has no placeholder, so it is its own. -/
theorem toPositional_rewrites {text : String}
    (hsmall : ∀ digits, IsRunIn digits text.toList →
      Nat.ofDigitChars 10 digits 0 < UInt64.size - 1) :
    (∀ out, Rewrites text.toList out ↔ out = (toPositional text).toList) ∧
      HasNoPlaceholder (toPositional text).toList ∧
      toPositional (toPositional text) = toPositional text := by
  have hsplit := TextPart.AreSplit.split text.toList
  have hwords : HasWords text.toList := by
    intro digits hdigits
    exact hsmall digits ((isRunIn_iff (hsplit.of_mem hdigits).1).mpr hdigits)
  have hout : (toPositional text).toList = (TextPart.split text.toList).flatMap positionalPart :=
    String.toList_ofList
  have hrewrites : Rewrites text.toList (toPositional text).toList := by
    have hjoined := rewrites_of_areSplit hsplit hwords
    rwa [TextPart.join_split, ← hout] at hjoined
  refine ⟨fun out => ⟨fun h => ?_, ?_⟩, hrewrites.hasNoPlaceholder, ?_⟩
  · rw [hout]
    exact h.eq_flatMap hwords
  · rintro rfl
    exact hrewrites
  · exact toPositional_of_hasNoPlaceholder hrewrites.hasNoPlaceholder

/-- At signs in front of others, a mark without digits, zeros in front, and the last number. -/
def crowded : String := "@@p1@p@p007é@p18446744073709551614p@ p2"

theorem crowded_rewrites :
    (∀ digits, IsRunIn digits crowded.toList →
      Nat.ofDigitChars 10 digits 0 < UInt64.size - 1) ∧
      (∀ out, Rewrites crowded.toList out ↔
        out = "@$2@p$8é$18446744073709551615p@ p2".toList) ∧
      HasNoPlaceholder "@$2@p$8é$18446744073709551615p@ p2".toList := by
  have hout : toPositional crowded = "@$2@p$8é$18446744073709551615p@ p2" := by decide +kernel
  have hsmall : ∀ digits, IsRunIn digits crowded.toList →
      Nat.ofDigitChars 10 digits 0 < UInt64.size - 1 := by
    intro digits hrun
    by_cases hne : digits = []
    · rw [hne]
      decide
    · have hall : ∀ part ∈ TextPart.split crowded.toList, ∀ n ∈ part.number?,
          n < UInt64.size - 1 := by
        decide +kernel
      exact hall _ ((isRunIn_iff hne).mp hrun) _ rfl
  obtain ⟨hrewrites, hnone, -⟩ := toPositional_rewrites hsmall
  rw [hout] at hrewrites hnone
  exact ⟨hsmall, hrewrites, hnone⟩

end Postgres

end DeclarativeSql
