import DeclarativeSql.Code.Command
import DeclarativeSql.Postgres.Positional
import Mathlib.Data.List.Chain

/-!
# Glyphs

A text with placeholders as characters and numbers of parameters. If no character is taken for a
part of a placeholder, the text splits into just these glyphs. Text that is written token by token
stays so, because a token that begins with a digit never follows a placeholder without a space.
-/
namespace DeclarativeSql

/-- A token that can not be taken for a placeholder, nor for a part of one. -/
def IsPlainText (token : String) : Prop := '@' ∉ token.toList ∧ '$' ∉ token.toList

instance (token : String) : Decidable (IsPlainText token) :=
  inferInstanceAs (Decidable ('@' ∉ token.toList ∧ '$' ∉ token.toList))

inductive Glyph
  | char (c : Char)
  /-- The placeholder of the parameter with this number. -/
  | parameter (n : Nat)

/-- The numbers of the parameters in a text, from left to right. -/
def TextPart.number? : TextPart → Option Nat
  | plain _ => none
  | placeholder digits => some (number digits)

def numbersIn (text : String) : List Nat :=
  (TextPart.split text.toList).filterMap TextPart.number?

def TextPart.placeholder? : TextPart → Option String
  | plain _ => none
  | placeholder digits => some (String.ofList (placeholder digits).chars)

/-- The placeholders in a text, from left to right. -/
def placeholdersIn (text : String) : List String :=
  (TextPart.split text.toList).filterMap TextPart.placeholder?

namespace Glyph

def part : Glyph → TextPart
  | char c => .plain c
  | parameter n => .placeholder (Nat.toDigits 10 n)

def text (gs : List Glyph) : List Char := TextPart.join (gs.map part)

def IsPlain : Glyph → Prop
  | char c => c ≠ '@' ∧ c ≠ '$'
  | parameter _ => True

/-- The second glyph does not go on with the number of the first. -/
def Apart (g h : Glyph) : Prop := ∀ n c, g = parameter n → h = char c → c.isDigit = false

structure AreLegible (gs : List Glyph) : Prop where
  plain : ∀ g ∈ gs, g.IsPlain
  apart : gs.IsChain Apart

def number? : Glyph → Option Nat
  | char _ => none
  | parameter n => some n

theorem isDigit_of_mem_toDigits {n : Nat} {c : Char} (h : c ∈ Nat.toDigits 10 n) :
    c.isDigit = true := Nat.isDigit_of_mem_toDigits (by decide) (by decide) h

theorem number_toDigits (n : Nat) : TextPart.number (Nat.toDigits 10 n) = n :=
  Nat.ofDigitChars_ten_toDigits

theorem number?_part (g : Glyph) : g.part.number? = g.number? := by
  cases g with
  | char c => rfl
  | parameter n => exact congrArg some (number_toDigits n)

theorem push_of_ne {c : Char} (h : c ≠ '@') (parts : List TextPart) :
    TextPart.push c parts = .plain c :: parts := by
  unfold TextPart.push
  split
  · rw [if_neg h]
  · rfl

theorem foldr_push_digits {ds : List Char} (h : ∀ d ∈ ds, d.isDigit = true)
    (parts : List TextPart) :
    ds.foldr TextPart.push parts = ds.map .plain ++ parts := by
  induction ds with
  | nil => rfl
  | cons d ds ih =>
    have hd : d ≠ '@' := by
      rintro rfl
      exact absurd (h _ List.mem_cons_self) (by decide)
    rw [List.foldr_cons, ih fun x hx => h x (List.mem_cons_of_mem _ hx), push_of_ne hd]
    rfl

theorem takeDigits_append {ds : List Char} (h : ∀ d ∈ ds, d.isDigit = true)
    {parts : List TextPart} (hparts : TextPart.takeDigits parts = ([], parts)) :
    TextPart.takeDigits (ds.map .plain ++ parts) = (ds, parts) := by
  induction ds with
  | nil => exact hparts
  | cons d ds ih =>
    simp only [List.map_cons, List.cons_append, TextPart.takeDigits, h d List.mem_cons_self,
      if_true, ih fun x hx => h x (List.mem_cons_of_mem _ hx)]

theorem push_placeholder {ds : List Char} (hne : ds ≠ []) (h : ∀ d ∈ ds, d.isDigit = true)
    {parts : List TextPart} (hparts : TextPart.takeDigits parts = ([], parts)) :
    TextPart.push '@' (.plain 'p' :: (ds.map .plain ++ parts)) = .placeholder ds :: parts := by
  obtain ⟨d, ds, rfl⟩ := List.exists_cons_of_ne_nil hne
  simp only [TextPart.push, if_true, takeDigits_append h hparts]

/-- The glyphs behind a placeholder do not go on with its number. -/
theorem takeDigits_map_part {n : Nat} {gs : List Glyph}
    (h : (parameter n :: gs).IsChain Apart) :
    TextPart.takeDigits (gs.map part) = ([], gs.map part) := by
  cases gs with
  | nil => rfl
  | cons g gs =>
    cases g with
    | parameter m => rfl
    | char c =>
      have hc : c.isDigit = false := (List.isChain_cons_cons.mp h).1 n c rfl rfl
      simp only [List.map_cons, part, TextPart.takeDigits, hc, Bool.false_eq_true, if_false]

theorem AreLegible.tail {g : Glyph} {gs : List Glyph} (h : AreLegible (g :: gs)) :
    AreLegible gs :=
  ⟨fun x hx => h.plain x (List.mem_cons_of_mem _ hx), h.apart.tail⟩

theorem split_text {gs : List Glyph} (h : AreLegible gs) :
    TextPart.split (text gs) = gs.map part := by
  induction gs with
  | nil => rfl
  | cons g gs ih =>
    have hsplit : TextPart.split (text (g :: gs)) =
        g.part.chars.foldr TextPart.push (gs.map part) := by
      rw [← ih h.tail, text, List.map_cons, TextPart.join, List.flatMap_cons, TextPart.split,
        List.foldr_append]
      rfl
    rw [hsplit]
    cases g with
    | char c => exact push_of_ne (h.plain _ List.mem_cons_self).1 _
    | parameter n =>
      have hdigits : ∀ d ∈ Nat.toDigits 10 n, d.isDigit = true := fun d => isDigit_of_mem_toDigits
      have hne : Nat.toDigits 10 n ≠ [] := Nat.toDigits_ne_nil
      rw [part, TextPart.chars, List.foldr_cons, List.foldr_cons, foldr_push_digits hdigits,
        push_of_ne (show 'p' ≠ '@' by decide)]
      exact push_placeholder hne hdigits (takeDigits_map_part h.apart)

end Glyph

theorem toList_placeholderName (n : Nat) :
    (placeholderName n).toList = (Glyph.part (.parameter n)).chars := by
  rw [placeholderName, String.toList_append, Nat.toString_eq_repr, Nat.toList_repr]
  rfl

theorem Spacing.isSymbol_of_isAlphanum {x : Char} (hx : x.isAlphanum = true) :
    isSymbol x = false := by
  have hnone : symbols.all (fun y => !y.isAlphanum) = true := by decide
  have hnot : x ∉ symbols := by
    intro hmem
    have hfalse := List.all_eq_true.mp hnone x hmem
    simp [hx] at hfalse
  have hrange : 48 ≤ x.toNat ∧ x.toNat ≤ 122 := by
    change ((decide ('A'.val ≤ x.val ∧ x.val ≤ 'Z'.val) ||
      (decide ('a'.val ≤ x.val) && decide (x.val ≤ 'z'.val))) ||
      (decide ('0'.val ≤ x.val) && decide (x.val ≤ '9'.val))) = true at hx
    simp only [Bool.or_eq_true, Bool.and_eq_true, decide_eq_true_eq,
      UInt32.le_iff_toNat_le] at hx
    have hval : x.toNat = x.val.toNat := rfl
    simp only [Char.isValue, Char.reduceVal, UInt32.reduceToNat, Char.toNat_val] at hx
    omega
  have hspace : x ≠ ' ' := by
    rintro rfl
    exact absurd hrange.1 (by decide)
  have hblank : CharClass.isBlank x = false := by
    simp only [CharClass.isBlank, if_pos (show x.toNat < 128 by omega), Bool.or_eq_false_iff,
      Bool.and_eq_false_iff, decide_eq_false_iff_not, beq_eq_false_iff_ne]
    exact ⟨.inr (by omega), hspace⟩
  simp [isSymbol, hblank, hnot]

/-- The text consists of these glyphs. -/
def Spells (gs : List Glyph) (text : String) : Prop :=
  text.toList = Glyph.text gs ∧ Glyph.AreLegible gs

namespace Spells

variable {gs hs : List Glyph} {s t : String}

theorem split (h : Spells gs s) : TextPart.split s.toList = gs.map Glyph.part := by
  rw [h.1, Glyph.split_text h.2]

theorem numbersIn (h : Spells gs s) : numbersIn s = gs.filterMap Glyph.number? := by
  rw [DeclarativeSql.numbersIn, h.split, List.filterMap_map]
  exact List.filterMap_congr fun g _ => g.number?_part

theorem placeholdersIn (h : Spells gs s) :
    placeholdersIn s = (DeclarativeSql.numbersIn s).map placeholderName := by
  rw [DeclarativeSql.placeholdersIn, h.numbersIn, h.split, List.filterMap_map,
    List.map_filterMap]
  refine List.filterMap_congr fun g _ => ?_
  cases g with
  | char c => rfl
  | parameter n =>
    refine congrArg some ?_
    rw [← String.ofList_toList (s := placeholderName n), toList_placeholderName]
    rfl

theorem placeholder_mem_split_iff (h : Spells gs s) {digits : List Char} :
    .placeholder digits ∈ TextPart.split s.toList ↔
      ∃ n ∈ DeclarativeSql.numbersIn s, digits = Nat.toDigits 10 n := by
  rw [h.split, h.numbersIn]
  constructor
  · intro hmem
    obtain ⟨g, hg, hpart⟩ := List.mem_map.mp hmem
    cases g with
    | char c => cases hpart
    | parameter n =>
      cases hpart
      exact ⟨n, List.mem_filterMap.mpr ⟨_, hg, rfl⟩, rfl⟩
  · rintro ⟨n, hn, rfl⟩
    obtain ⟨g, hg, hnumber⟩ := List.mem_filterMap.mp hn
    cases g with
    | char c => cases hnumber
    | parameter m =>
      cases hnumber
      exact List.mem_map_of_mem hg

theorem nil : Spells [] "" := ⟨rfl, ⟨by simp, .nil⟩⟩

theorem ofPlain (h : IsPlainText s) : Spells (s.toList.map .char) s := by
  refine ⟨?_, ?_, ?_⟩
  · simp [Glyph.text, TextPart.join, List.flatMap_map, Glyph.part, TextPart.chars]
  · intro g hg
    obtain ⟨c, hc, rfl⟩ := List.mem_map.mp hg
    exact ⟨fun he => h.1 (he ▸ hc), fun he => h.2 (he ▸ hc)⟩
  · rw [List.isChain_map]
    refine (List.pairwise_of_forall fun c d n e he => ?_).isChain
    cases he

theorem placeholderName (n : Nat) : Spells [.parameter n] (placeholderName n) := by
  refine ⟨?_, by simp [Glyph.IsPlain], .singleton _⟩
  rw [toList_placeholderName]
  exact (List.append_nil _).symm

theorem append (h : Spells gs s) (h' : Spells hs t)
    (hapart : ∀ x ∈ gs.getLast?, ∀ y ∈ hs.head?, Glyph.Apart x y) :
    Spells (gs ++ hs) (s ++ t) := by
  refine ⟨?_, ?_, List.isChain_append.mpr ⟨h.2.apart, h'.2.apart, hapart⟩⟩
  · rw [String.toList_append, h.1, h'.1, Glyph.text, Glyph.text, Glyph.text, List.map_append,
      TextPart.join, TextPart.join, TextPart.join, List.flatMap_append]
  · intro g hg
    exact (List.mem_append.mp hg).elim (h.2.plain g) (h'.2.plain g)

/-- A placeholder ends with a digit. -/
theorem back?_of_parameter {n : Nat} (h : Spells gs s) (hlast : gs.getLast? = some (.parameter n)) :
    ∃ d, s.back? = some d ∧ d.isDigit = true := by
  obtain ⟨front, rfl⟩ := List.getLast?_eq_some_iff.mp hlast
  have htext : s.toList = Glyph.text front ++ '@' :: 'p' :: Nat.toDigits 10 n := by
    rw [h.1, Glyph.text, List.map_append, TextPart.join, List.flatMap_append]
    exact congrArg (Glyph.text front ++ ·) (List.append_nil _)
  have hne : Nat.toDigits 10 n ≠ [] := Nat.toDigits_ne_nil
  refine ⟨(Nat.toDigits 10 n).getLast hne, ?_,
    Glyph.isDigit_of_mem_toDigits (List.getLast_mem hne)⟩
  rw [String.back?_eq, htext]
  simp [List.getLast?_append, List.getLast?_cons, List.getLast?_eq_some_getLast hne]

theorem front?_of_char {c : Char} (h : Spells gs s) (hfirst : gs.head? = some (.char c)) :
    s.front? = some c := by
  obtain ⟨rest, rfl⟩ := List.head?_eq_some_iff.mp hfirst
  rw [String.front?_eq, h.1]
  rfl

theorem isNeeded_of_digits {c d : Char} (hc : c.isDigit = true) (hd : d.isDigit = true) :
    Spacing.isNeeded c d = true := by
  have hsymbol : ∀ {x : Char}, x.isDigit = true → Spacing.isSymbol x = false :=
    fun hx => Spacing.isSymbol_of_isAlphanum (by simp [Char.isAlphanum, hx])
  simp [Spacing.isNeeded, hsymbol hc, hsymbol hd]

/-- A token is set apart from the text in front of it where that is needed. -/
theorem join (h : Spells gs s) (h' : Spells hs t) :
    ∃ ks, Spells ks (Spacing.join s t) ∧
      ks.filterMap Glyph.number? = gs.filterMap Glyph.number? ++ hs.filterMap Glyph.number? := by
  by_cases hspace : Spacing.join s t = s ++ " " ++ t
  · have hblank : Spells [.char ' '] " " := ofPlain (s := " ") (by decide)
    refine ⟨gs ++ [Glyph.char ' '] ++ hs, ?_, by
      rw [List.filterMap_append, List.filterMap_append, List.append_assoc]
      rfl⟩
    rw [hspace]
    refine (h.append hblank ?_).append h' ?_
    · rintro x - y hy n c - rfl
      cases hy
      decide
    · rintro x hx y - n c rfl -
      simp at hx
  · have hjoin : Spacing.join s t = s ++ t := by
      unfold Spacing.join at hspace ⊢
      split
      · split
        next hb hf hn => exact absurd (by rw [hb, hf]; exact if_pos hn) hspace
        next => rfl
      · rfl
    refine ⟨gs ++ hs, ?_, List.filterMap_append⟩
    rw [hjoin]
    refine h.append h' ?_
    rintro x hx y hy n c rfl rfl
    obtain ⟨d, hback, hd⟩ := h.back?_of_parameter hx
    by_contra hc
    refine hspace ?_
    rw [Spacing.join, hback, h'.front?_of_char hy]
    exact if_pos (isNeeded_of_digits hd (Bool.not_eq_false _ ▸ hc))

/-- The body is all but the terminator, which is a glyph of its own. -/
theorem body_cases {c : Compiled} (h : Spells gs c.text) :
    ∃ hs, Spells hs c.body ∧
      (gs = hs ++ [Glyph.char ';'] ∨ gs = hs ∧ gs.getLast? ≠ some (.char ';')) := by
  unfold Compiled.body
  split
  next hlast =>
    have hne : gs ≠ [] := by
      rintro rfl
      rw [h.1] at hlast
      cases hlast
    obtain ⟨front, g, rfl⟩ := (List.eq_nil_or_concat' gs).resolve_left hne
    cases g with
    | parameter n =>
      obtain ⟨d, hback, hd⟩ := h.back?_of_parameter (n := n) (by simp)
      rw [String.back?_eq, hlast] at hback
      cases hback
      exact absurd hd (by decide)
    | char d =>
      have htext : c.text.toList = Glyph.text front ++ [d] := by
        rw [h.1, Glyph.text, List.map_append, TextPart.join, List.flatMap_append]
        rfl
      rw [htext, List.getLast?_concat, Option.some.injEq] at hlast
      subst hlast
      refine ⟨front, ⟨?_, ?_⟩, .inl rfl⟩
      · rw [htext, List.dropLast_concat, String.toList_ofList]
      · exact ⟨fun g hg => h.2.plain g (List.mem_append_left _ hg), h.2.apart.left_of_append⟩
  next hlast =>
    refine ⟨gs, h, .inr ⟨rfl, fun hg => hlast ?_⟩⟩
    obtain ⟨front, rfl⟩ := List.getLast?_eq_some_iff.mp hg
    rw [h.1, Glyph.text, List.map_append, TextPart.join, List.flatMap_append]
    simp [Glyph.part, TextPart.chars]

theorem body {c : Compiled} (h : Spells gs c.text) :
    ∃ hs, Spells hs c.body ∧ hs.filterMap Glyph.number? = gs.filterMap Glyph.number? := by
  obtain ⟨hs, hspells, rfl | ⟨rfl, -⟩⟩ := h.body_cases
  · exact ⟨hs, hspells, by simp [Glyph.number?]⟩
  · exact ⟨_, hspells, rfl⟩

end Spells

namespace Postgres

/-- Puts a character in front of text that is split at its positional placeholders already. -/
def push (c : Char) (parts : List TextPart) : List TextPart :=
  if c = '$' then
    match TextPart.takeDigits parts with
    | ([], _) => .plain c :: parts
    | (digits, rest) => .placeholder digits :: rest
  else .plain c :: parts

/-- Splits text at its positional placeholders, a dollar sign and a maximal run of digits each. -/
def split (s : List Char) : List TextPart := s.foldr push []

/-- The placeholder of the same parameter, counted from one. -/
def successor : TextPart → TextPart
  | .plain c => .plain c
  | .placeholder digits => .placeholder (Nat.toDigits 10 (TextPart.number digits + 1))

theorem foldr_push_of_digits {ds : List Char} (h : ∀ d ∈ ds, d.isDigit = true)
    (parts : List TextPart) : ds.foldr push parts = ds.map .plain ++ parts := by
  induction ds with
  | nil => rfl
  | cons d ds ih =>
    have hd : d ≠ '$' := by
      rintro rfl
      exact absurd (h _ List.mem_cons_self) (by decide)
    rw [List.foldr_cons, ih fun x hx => h x (List.mem_cons_of_mem _ hx), push, if_neg hd]
    rfl

def shift : Glyph → Glyph
  | .char c => .char c
  | .parameter n => .parameter (n + 1)

theorem successor_part (g : Glyph) : successor g.part = (shift g).part := by
  cases g with
  | char c => rfl
  | parameter n => simp only [Glyph.part, successor, Glyph.number_toDigits, shift]

theorem isChain_shift {gs : List Glyph} (h : gs.IsChain Glyph.Apart) :
    (gs.map shift).IsChain Glyph.Apart := by
  rw [List.isChain_map]
  refine h.imp fun x y hxy n c hn hc => ?_
  cases x with
  | char d => cases hn
  | parameter m =>
    cases y with
    | char d =>
      cases hc
      exact hxy m c rfl rfl
    | parameter k => cases hc

/-- The number is one larger if a word holds it. -/
theorem positionalPart_placeholder {digits : List Char}
    (h : TextPart.number digits < UInt64.size - 1) :
    positionalPart (.placeholder digits) =
      '$' :: Nat.toDigits 10 (TextPart.number digits + 1) := by
  have hword : TextPart.number digits < UInt64.size := Nat.lt_of_lt_pred h
  have hnext : TextPart.number digits + 1 < UInt64.size := Nat.add_lt_of_lt_sub h
  have hsucc : ((TextPart.number digits).toUInt64 + 1).toNat = TextPart.number digits + 1 := by
    rw [UInt64.toNat_add, UInt64.toNat_ofNat_of_lt' hword]
    exact Nat.mod_eq_of_lt hnext
  simp only [positionalPart, if_pos hword, hsucc]

theorem split_positionalParts {gs : List Glyph} (h : Glyph.AreLegible gs)
    (hsize : ∀ n, .parameter n ∈ gs → n < UInt64.size - 1) :
    split ((gs.map Glyph.part).flatMap positionalPart) = (gs.map shift).map Glyph.part := by
  induction gs with
  | nil => rfl
  | cons g gs ih =>
    have hrest := ih h.tail fun n hn => hsize n (List.mem_cons_of_mem _ hn)
    rw [List.map_cons, List.flatMap_cons, split, List.foldr_append, ← split, hrest]
    cases g with
    | char c => exact if_neg (h.plain _ List.mem_cons_self).2
    | parameter n =>
      have hdigits : ∀ d ∈ Nat.toDigits 10 (n + 1), d.isDigit = true :=
        fun d => Glyph.isDigit_of_mem_toDigits
      have hpart : positionalPart (Glyph.part (.parameter n)) =
          '$' :: Nat.toDigits 10 (n + 1) := by
        have hword := hsize n List.mem_cons_self
        rw [← Glyph.number_toDigits n] at hword
        rw [Glyph.part, positionalPart_placeholder hword, Glyph.number_toDigits]
      have htake := Glyph.takeDigits_map_part (isChain_shift h.apart)
      obtain ⟨d, ds, hd⟩ := List.exists_cons_of_ne_nil (Nat.toDigits_ne_nil (n := n + 1) (b := 10))
      rw [hpart, List.foldr_cons, foldr_push_of_digits hdigits, push, if_pos rfl,
        Glyph.takeDigits_append hdigits htake]
      simp only [hd, List.map_cons, shift, Glyph.part]

/-- Each placeholder becomes its positional one, and there are no others. -/
theorem split_toPositional {gs : List Glyph} {s : String} (h : Spells gs s)
    (hsize : ∀ n ∈ numbersIn s, n < UInt64.size - 1) :
    split (toPositional s).toList = (TextPart.split s.toList).map successor := by
  have hnumbers : ∀ n, .parameter n ∈ gs → n < UInt64.size - 1 := by
    intro n hn
    refine hsize n ?_
    rw [h.numbersIn]
    exact List.mem_filterMap.mpr ⟨_, hn, rfl⟩
  rw [toPositional, String.toList_ofList, h.split, split_positionalParts h.2 hnumbers,
    List.map_map, List.map_map]
  exact List.map_congr_left fun g _ => (successor_part g).symm

theorem placeholder_mem_split_toPositional_iff {gs : List Glyph} {s : String} (h : Spells gs s)
    (hsize : ∀ n ∈ numbersIn s, n < UInt64.size - 1) {digits : List Char} :
    .placeholder digits ∈ split (toPositional s).toList ↔
      ∃ n ∈ numbersIn s, digits = Nat.toDigits 10 (n + 1) := by
  rw [split_toPositional h hsize]
  constructor
  · intro hmem
    obtain ⟨part, hpart, hsuccessor⟩ := List.mem_map.mp hmem
    cases part with
    | plain c => cases hsuccessor
    | placeholder ds =>
      cases hsuccessor
      obtain ⟨n, hn, rfl⟩ := h.placeholder_mem_split_iff.mp hpart
      exact ⟨n, hn, by rw [Glyph.number_toDigits]⟩
  · rintro ⟨n, hn, rfl⟩
    refine List.mem_map.mpr ⟨_, h.placeholder_mem_split_iff.mpr ⟨n, hn, rfl⟩, ?_⟩
    rw [successor, Glyph.number_toDigits]

end Postgres

end DeclarativeSql
