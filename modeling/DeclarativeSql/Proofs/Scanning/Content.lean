import DeclarativeSql.Proofs.Parameters.Replay
import DeclarativeSql.Proofs.Parameters.Splitting
import DeclarativeSql.Proofs.Scanning.Scanner

/-!
# Contents

What a text says, whatever the numbers of its parameters: a placeholder is that of a source. Tokens
are joined with a space where one is needed, and it does not matter which of them are joined first.
-/
namespace DeclarativeSql

open Parameter

/-- Characters and placeholders in the order of a text. -/
abbrev Content := List Mark

namespace Mark

/-- The first character that is written. -/
def first : Mark → Char
  | char c => c
  | placeholder _ => '@'

/-- The last character that is written. A placeholder ends with some digit. -/
def last : Mark → Char
  | char c => c
  | placeholder _ => '0'

def needsSpace (x y : Mark) : Bool := Spacing.isNeeded x.last y.first

end Mark

namespace Content

def gap : Option Mark → Option Mark → Content
  | some x, some y => if x.needsSpace y then [.char ' '] else []
  | _, _ => []

/-- Writes a token behind a text. -/
def join (text token : Content) : Content := text ++ gap text.getLast? token.head? ++ token

def joinAll (tokens : List Content) : Content := tokens.foldr join []

/-- A statement inside another one loses its terminator. -/
def body (c : Content) : Content := if c.getLast? = some (.char ';') then c.dropLast else c

variable {u v w : Content}

@[simp]
theorem nil_join (v : Content) : join [] v = v := by
  cases v <;> rfl

@[simp]
theorem join_nil (u : Content) : join u [] = u := by
  cases h : u.getLast? <;> simp [join, gap, h]

theorem head?_join (hu : u ≠ []) (v : Content) : (join u v).head? = u.head? := by
  obtain ⟨x, u, rfl⟩ := List.exists_cons_of_ne_nil hu
  rfl

theorem getLast?_join (u : Content) (hv : v ≠ []) : (join u v).getLast? = v.getLast? := by
  rw [join, List.getLast?_append_of_ne_nil _ hv]

theorem join_assoc (u v w : Content) : join (join u v) w = join u (join v w) := by
  by_cases hv : v = []
  · rw [hv, join_nil, nil_join]
  · rw [join, getLast?_join u hv]
    conv_rhs => rw [join, head?_join hv w]
    simp only [join, List.append_assoc]

theorem joinAll_cons (u : Content) (us : List Content) :
    joinAll (u :: us) = join u (joinAll us) := rfl

theorem joinAll_append (us vs : List Content) :
    joinAll (us ++ vs) = join (joinAll us) (joinAll vs) := by
  induction us with
  | nil => exact (nil_join _).symm
  | cons u us ih => rw [List.cons_append, joinAll_cons, ih, joinAll_cons, join_assoc]

theorem joinAll_concat (us : List Content) (u : Content) :
    joinAll (us ++ [u]) = join (joinAll us) u := by
  rw [joinAll_append, joinAll_cons]
  exact congrArg (join _) (join_nil u)

end Content

def TextPart.mark (ps : List Parameter) : TextPart → Mark
  | plain c => .char c
  | placeholder digits =>
    .placeholder ((named? ps (String.ofList (placeholder digits).chars)).map (·.source.id))

/-- What a text says that comes with some parameters. -/
def contentOf (ps : List Parameter) (text : String) : Content :=
  (TextPart.split text.toList).map (TextPart.mark ps)

def Compiled.content (c : Compiled) : Content := contentOf c.parameters c.text

def Glyph.mark (ps : List Parameter) : Glyph → Mark
  | char c => .char c
  | parameter n => .placeholder (ps[n]?.map (·.source.id))

theorem Glyph.mark_part {ps : List Parameter} (h : AreNumbered ps) (g : Glyph) :
    g.part.mark ps = g.mark ps := by
  cases g with
  | char c => rfl
  | parameter n =>
    rw [part, TextPart.mark, mark, ← h.named?_placeholderName, ← String.ofList_toList
      (s := placeholderName n), toList_placeholderName]
    rfl

/-- Parameters that come later do not matter to a number that is taken. -/
theorem Glyph.mark_of_isPrefix {ps qs : List Parameter} (h : ps <+: qs) {n : Nat}
    (hn : n < ps.length) : mark qs (.parameter n) = mark ps (.parameter n) := by
  obtain ⟨rest, rfl⟩ := h
  rw [mark, mark, List.getElem?_append_left hn]

namespace Spells

variable {gs hs : List Glyph} {s t : String} {ps qs : List Parameter}

theorem contentOf_eq (h : Spells gs s) (hps : AreNumbered ps) :
    contentOf ps s = gs.map (Glyph.mark ps) := by
  rw [contentOf, h.split, List.map_map]
  exact List.map_congr_left fun g _ => g.mark_part hps

theorem contentOf_of_isPrefix (h : Spells gs s) (hps : AreNumbered ps) (hqs : AreNumbered qs)
    (hgrows : ps <+: qs) (hknown : ∀ n ∈ DeclarativeSql.numbersIn s, n < ps.length) :
    contentOf qs s = contentOf ps s := by
  rw [h.contentOf_eq hps, h.contentOf_eq hqs]
  refine List.map_congr_left fun g hg => ?_
  cases g with
  | char c => rfl
  | parameter n =>
    refine Glyph.mark_of_isPrefix hgrows (hknown n ?_)
    rw [h.numbersIn]
    exact List.mem_filterMap.mpr ⟨_, hg, rfl⟩

end Spells

theorem isNeeded_of_isDigit {d : Char} (hd : d.isDigit = true) (c : Char) :
    Spacing.isNeeded d c = Spacing.isNeeded '0' c := by
  have hsymbol : Spacing.isSymbol d = false :=
    Spacing.isSymbol_of_isAlphanum (by simp [Char.isAlphanum, hd])
  have hne : ∀ {x : Char}, x.isDigit = false → (d == x) = false := by
    intro x hx
    rw [beq_eq_false_iff_ne]
    rintro rfl
    exact absurd (hd.symm.trans hx) (by decide)
  rw [Spacing.isNeeded, Spacing.isNeeded, hsymbol, hne (x := ')') (by decide),
    hne (x := '-') (by decide)]
  rfl

section Texts

variable (ps : List Parameter) {s t : String} {front back : List Char} {x y : Char}

theorem head?_contentOf (h : s.toList = x :: back) :
    ∃ m, (contentOf ps s).head? = some m ∧ m.first = x := by
  have hjoin := TextPart.join_split s.toList
  rw [contentOf]
  cases hsplit : TextPart.split s.toList with
  | nil =>
    rw [hsplit, h] at hjoin
    cases hjoin
  | cons part parts =>
    rw [hsplit, h, TextPart.join, List.flatMap_cons] at hjoin
    refine ⟨part.mark ps, rfl, ?_⟩
    cases part <;> exact (List.cons.inj hjoin).1

/-- The last mark asks for the same spaces as the last character. -/
theorem getLast?_contentOf (h : s.toList = front ++ [x]) :
    ∃ m, (contentOf ps s).getLast? = some m ∧
      (∀ c, Spacing.isNeeded m.last c = Spacing.isNeeded x c) ∧ ∀ c, m = .char c → c = x := by
  have hjoin := TextPart.join_split s.toList
  have hparts := TextPart.AreSplit.split s.toList
  rw [contentOf]
  rcases List.eq_nil_or_concat' (TextPart.split s.toList) with hnil | ⟨parts, part, hsplit⟩
  · rw [hnil, h] at hjoin
    exact absurd hjoin.symm (List.append_ne_nil_of_right_ne_nil _ (List.cons_ne_nil _ _))
  · rw [hsplit, h, TextPart.join, List.flatMap_append, List.flatMap_singleton] at hjoin
    have hlast := congrArg List.getLast? hjoin
    rw [List.getLast?_concat] at hlast
    rw [hsplit, List.map_append, List.map_singleton, List.getLast?_concat]
    refine ⟨_, rfl, ?_⟩
    cases part with
    | plain c =>
      rw [TextPart.chars, List.getLast?_concat] at hlast
      cases hlast
      exact ⟨fun _ => rfl, fun c hc => (Mark.char.inj hc).symm⟩
    | placeholder digits =>
      obtain ⟨hne, hdigits⟩ := hparts.of_mem (hsplit ▸ List.mem_concat_self)
      have hdigit : x.isDigit = true := by
        have hchars : (TextPart.placeholder digits).chars = ['@', 'p'] ++ digits := rfl
        rw [hchars, ← List.append_assoc, List.getLast?_append_of_ne_nil _ hne] at hlast
        exact hdigits x (List.mem_of_getLast? hlast)
      refine ⟨fun c => (isNeeded_of_isDigit hdigit c).symm, fun c hc => ?_⟩
      cases hc

theorem contentOf_append_break (hx : TextPart.IsBreak x) (h : s.toList = front ++ x :: back) :
    contentOf ps s =
      contentOf ps (String.ofList front) ++ .char x :: contentOf ps (String.ofList back) := by
  rw [contentOf, contentOf, contentOf, h, String.toList_ofList, String.toList_ofList,
    TextPart.split_append_break hx, List.map_append, List.map_cons]
  rfl

theorem contentOf_join (s t : String) :
    contentOf ps (Spacing.join s t) = Content.join (contentOf ps s) (contentOf ps t) := by
  rcases List.eq_nil_or_concat' s.toList with hs | ⟨front, x, hs⟩
  · obtain rfl := String.toList_eq_nil_iff.mp hs
    exact (congrArg (contentOf ps) String.empty_append).trans (Content.nil_join _).symm
  cases ht : t.toList with
  | nil =>
    obtain rfl := String.toList_eq_nil_iff.mp ht
    have hjoin : Spacing.join s "" = s := by
      rw [Spacing.join]
      cases s.back? <;> exact String.append_empty
    exact (congrArg (contentOf ps) hjoin).trans (Content.join_nil _).symm
  | cons y back =>
    obtain ⟨m, hm, hlast, -⟩ := getLast?_contentOf ps hs
    obtain ⟨k, hk, hfirst⟩ := head?_contentOf ps ht
    have hgap : Content.gap (contentOf ps s).getLast? (contentOf ps t).head? =
        if Spacing.isNeeded x y then [.char ' '] else [] := by
      rw [hm, hk, Content.gap, Mark.needsSpace, hlast, hfirst]
    have hback : s.back? = some x := by rw [String.back?_eq, hs, List.getLast?_concat]
    have hfront : t.front? = some y := by rw [String.front?_eq, ht, List.head?_cons]
    rw [Spacing.join, hback, hfront, Content.join, hgap]
    simp only
    by_cases hneeded : Spacing.isNeeded x y = true
    · have hblank : TextPart.IsBreak ' ' := TextPart.isBreak_of_isSymbol (by decide)
      have hlist : (s ++ " " ++ t).toList = s.toList ++ ' ' :: t.toList := by simp
      rw [if_pos hneeded, if_pos hneeded, contentOf_append_break ps hblank hlist]
      simp
    · rw [if_neg hneeded, if_neg hneeded, List.append_nil]
      have hlist : (s ++ t).toList = front ++ x :: y :: back := by simp [hs, ht]
      -- one of the two characters is punctuation, and the text splits there
      rcases Bool.eq_false_or_eq_true (Spacing.isSymbol x) with hx | hx
      · have hbreak := TextPart.isBreak_of_isSymbol hx
        rw [contentOf_append_break ps hbreak hlist, contentOf_append_break ps hbreak hs, ← ht]
        simp [contentOf, TextPart.split]
      · have hy : Spacing.isSymbol y = true := by
          by_contra hy
          exact hneeded (by simp [Spacing.isNeeded, hx, Bool.not_eq_true _ ▸ hy])
        have hbreak := TextPart.isBreak_of_isSymbol hy
        have hlist' : (s ++ t).toList = s.toList ++ y :: back := by simp [ht]
        have ht' : t.toList = [] ++ y :: back := ht
        rw [contentOf_append_break ps hbreak hlist', contentOf_append_break ps hbreak ht',
          String.ofList_toList]
        rfl

theorem contentOf_body (c : Compiled) : contentOf ps c.body = (contentOf ps c.text).body := by
  rw [Compiled.body]
  split
  next hlast =>
    obtain ⟨front, hfront⟩ := List.getLast?_eq_some_iff.mp hlast
    have hbreak : TextPart.IsBreak ';' := TextPart.isBreak_of_isSymbol (by decide)
    rw [contentOf_append_break ps hbreak hfront, hfront, List.dropLast_concat]
    simp [Content.body, contentOf, TextPart.split]
  next hlast =>
    rw [Content.body, if_neg]
    intro hmark
    rcases List.eq_nil_or_concat' c.text.toList with hnil | ⟨front, x, hx⟩
    · rw [contentOf, hnil] at hmark
      cases hmark
    · obtain ⟨m, hm, -, hchar⟩ := getLast?_contentOf ps hx
      rw [hm, Option.some.injEq] at hmark
      exact hlast (by rw [hx, List.getLast?_concat, ← hchar _ hmark])

end Texts

/-- Every placeholder is that of a source. -/
def Content.IsKnown (u : Content) : Prop := .placeholder none ∉ u

theorem Content.placeholder_mem_join_iff {u v : Content} {id : Option SourceId} :
    .placeholder id ∈ join u v ↔ .placeholder id ∈ u ∨ .placeholder id ∈ v := by
  have hgap : .placeholder id ∉ gap u.getLast? v.head? := by
    unfold gap
    split
    · split <;> simp
    · exact List.not_mem_nil
  simp [join, hgap]

theorem Content.isKnown_join_iff {u v : Content} :
    (join u v).IsKnown ↔ u.IsKnown ∧ v.IsKnown := by
  rw [IsKnown, placeholder_mem_join_iff, not_or]
  rfl

section Known

variable {ps qs : List Parameter} {s : String}

theorem contentOf_of_notMem (h : '@' ∉ s.toList) : contentOf ps s = Scanner.marks s := by
  rw [contentOf, TextPart.split_of_notMem h, List.map_map]
  rfl

theorem Parameter.named?_of_isPrefix (h : ps <+: qs) {name : String} {p : Parameter}
    (hp : named? ps name = some p) : named? qs name = some p := by
  obtain ⟨rest, rfl⟩ := h
  rw [named?] at hp
  rw [named?, List.find?_append, hp, Option.some_or]

theorem contentOf_of_isKnown (hknown : (contentOf ps s).IsKnown) (h : ps <+: qs) :
    contentOf qs s = contentOf ps s := by
  refine List.map_congr_left fun part hpart => ?_
  cases part with
  | plain c => rfl
  | placeholder digits =>
    have hmark := List.mem_map_of_mem (f := TextPart.mark ps) hpart
    rw [TextPart.mark] at hmark ⊢
    rw [TextPart.mark]
    cases hnamed : named? ps (String.ofList (TextPart.placeholder digits).chars) with
    | none =>
      rw [hnamed] at hmark
      exact absurd hmark hknown
    | some p => rw [named?_of_isPrefix h hnamed]

end Known

end DeclarativeSql
