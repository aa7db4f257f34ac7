import DeclarativeSql.Proofs.Grammar.Token

/-!
# Grammars by levels

A grammar gives every operator a level, and a higher level binds tighter. `Reads` is such a grammar
as a relation. Tokens have at most one reading: a parser that looks one token ahead finds every
reading there is.
-/
namespace DeclarativeSql

structure Grammar where
  binary : BinaryOp → Nat
  not : Nat
  nullTest : Nat
  like : Nat
  negate : Nat
  /-- Operators of the level associate to the left. Otherwise they can not be chained. -/
  isLeft : Nat → Bool

namespace Grammar

/-- The least level of an operand to the left of an operator. -/
def leftLevel (g : Grammar) (level : Nat) : Nat := if g.isLeft level then level else level + 1

theorem le_leftLevel (g : Grammar) (level : Nat) : level ≤ g.leftLevel level := by
  unfold leftLevel
  split <;> omega

/-- The tokens can be read so where an operand of level `m` or tighter is asked for. -/
inductive Reads (g : Grammar) : (m : Nat) → List Token → Reading → Prop
  | atom (m : Nat) (e : Expr) : Reads g m [.atom e] (.atom e)
  | group {m : Nat} {ts : List Token} {t : Reading} :
    Reads g 0 ts t → Reads g m (.opening :: ts ++ [Token.closing]) t
  | array (m : Nat) (items : List (List Token × Reading)) :
    (∀ i ∈ items, Reads g 0 i.1 i.2) →
      Reads g m (.arrayOpening :: Token.separated (items.map Prod.fst) ++ [Token.arrayClosing])
        (.array (items.map Prod.snd))
  | not {m : Nat} {ts : List Token} {t : Reading} :
    m ≤ g.not → Reads g g.not ts t → Reads g m (.not :: ts) (.not t)
  | negate {m : Nat} {ts : List Token} {t : Reading} :
    m ≤ g.negate → Reads g g.negate ts t → Reads g m (.op .subtract :: ts) (.negate t)
  | binary {m : Nat} {op : BinaryOp} {ts us : List Token} {left right : Reading} :
    m ≤ g.binary op → Reads g (g.leftLevel (g.binary op)) ts left →
      Reads g (g.binary op + 1) us right → Reads g m (ts ++ .op op :: us) (.binary op left right)
  | nullTest {m : Nat} {isNull : Bool} {ts : List Token} {t : Reading} :
    m ≤ g.nullTest → Reads g (g.leftLevel g.nullTest) ts t →
      Reads g m (ts ++ [Token.nullTest isNull]) (.nullTest isNull t)
  | like {m : Nat} {ts us : List Token} {value pattern : Reading} :
    m ≤ g.like → Reads g (g.leftLevel g.like) ts value → Reads g (g.like + 1) us pattern →
      Reads g m (ts ++ .like :: us) (.like value pattern)

theorem Reads.mono {g : Grammar} {m n : Nat} {ts : List Token} {t : Reading}
    (h : g.Reads m ts t) (hn : n ≤ m) : g.Reads n ts t := by
  cases h with
  | atom => exact .atom _ _
  | group h => exact .group h
  | array _ items h => exact .array _ items h
  | not hm h => exact .not (Nat.le_trans hn hm) h
  | negate hm h => exact .negate (Nat.le_trans hn hm) h
  | binary hm hl hr => exact .binary (Nat.le_trans hn hm) hl hr
  | nullTest hm h => exact .nullTest (Nat.le_trans hn hm) h
  | like hm hv hp => exact .like (Nat.le_trans hn hm) hv hp

/-- The levels of the server's grammar. -/
def postgres : Grammar where
  binary
    | .orElse => 1
    | .andAlso => 2
    | .equal | .notEqual | .lessThan | .lessThanOrEqual | .greaterThan | .greaterThanOrEqual => 5
    | .bitOr | .bitXor | .bitAnd | .leftShift | .rightShift | .concat => 7
    | .add | .subtract => 8
    | .multiply | .divide | .modulo => 9
    | .power => 10
  not := 3
  nullTest := 4
  like := 6
  negate := 11
  isLeft level := level ∉ [4, 5, 6]

/-- The level of an operator that follows an operand. -/
def following? (g : Grammar) : Token → Option Nat
  | .op op => some (g.binary op)
  | .nullTest _ => some g.nullTest
  | .like => some g.like
  | _ => none

/-- The end of an array without items. -/
def noItems : List Token → Option (List Reading × List Token)
  | .arrayClosing :: rest => some ([], rest)
  | _ => none

mutual

/-- Reads an operand of level `m` or tighter and leaves the tokens behind it, with at most `n`
calls inside each other. -/
def parse (g : Grammar) : (n m : Nat) → List Token → Option (Reading × List Token)
  | n + 1, m, .atom e :: ts => g.extend n m (.atom e) ts
  | n + 1, m, .opening :: ts =>
    match g.parse n 0 ts with
    | some (t, .closing :: rest) => g.extend n m t rest
    | _ => none
  | n + 1, m, .arrayOpening :: ts =>
    match g.parseItems n ts with
    | some (items, rest) => g.extend n m (.array items) rest
    | none => none
  | n + 1, m, .not :: ts =>
    match g.parse n g.not ts with
    | some (t, rest) => g.extend n m (.not t) rest
    | none => none
  | n + 1, m, .op .subtract :: ts =>
    match g.parse n g.negate ts with
    | some (t, rest) => g.extend n m (.negate t) rest
    | none => none
  | _, _, _ => none

/-- Goes on behind an operand as long as operators of level `m` or tighter follow. -/
def extend (g : Grammar) : (n m : Nat) → Reading → List Token → Option (Reading × List Token)
  | 0, _, _, _ => none
  | n + 1, m, left, .op op :: ts =>
    if m ≤ g.binary op then
      match g.parse n (g.binary op + 1) ts with
      | some (right, rest) => g.extend n m (.binary op left right) rest
      | none => none
    else some (left, .op op :: ts)
  | n + 1, m, left, .nullTest isNull :: ts =>
    if m ≤ g.nullTest then g.extend n m (.nullTest isNull left) ts
    else some (left, .nullTest isNull :: ts)
  | n + 1, m, left, .like :: ts =>
    if m ≤ g.like then
      match g.parse n (g.like + 1) ts with
      | some (pattern, rest) => g.extend n m (.like left pattern) rest
      | none => none
    else some (left, .like :: ts)
  | _ + 1, _, left, ts => some (left, ts)

def parseItems (g : Grammar) : (n : Nat) → List Token → Option (List Reading × List Token)
  | 0, _ => none
  | n + 1, ts =>
    match g.parse n 0 ts with
    | some (t, .comma :: rest) =>
      match g.parseItems n rest with
      | some (items, rest) => some (t :: items, rest)
      | none => none
    | some (t, .arrayClosing :: rest) => some ([t], rest)
    | _ => noItems ts

end

/-- The answer is the same for every large enough number. -/
def Settles {α : Type} (f : Nat → Option α) (a : α) : Prop := ∃ N, ∀ n ≥ N, f n = some a

theorem Settles.unique {α : Type} {f : Nat → Option α} {a b : α} (ha : Settles f a)
    (hb : Settles f b) : a = b := by
  obtain ⟨N, ha⟩ := ha
  obtain ⟨M, hb⟩ := hb
  have h := ha (max N M) (by omega)
  rw [hb (max N M) (by omega), Option.some.injEq] at h
  exact h.symm

theorem Settles.succ {α : Type} {f : Nat → Option α} {a : α}
    (h : Settles (fun n => f (n + 1)) a) : Settles f a := by
  obtain ⟨N, h⟩ := h
  refine ⟨N + 1, fun n hn => ?_⟩
  obtain ⟨k, rfl⟩ : ∃ k, n = k + 1 := ⟨n - 1, by omega⟩
  exact h k (by omega)

/-- Steps that both settle can be taken one after the other. -/
theorem Settles.after {α β : Type} {f : Nat → Option α} {k : Nat → Option β} {a : α} {b : β}
    (hf : Settles f a) (hk : Settles k b) {F : Nat → Option β}
    (hF : ∀ n, f n = some a → F (n + 1) = k n) : Settles F b := by
  obtain ⟨N, hf⟩ := hf
  obtain ⟨M, hk⟩ := hk
  refine .succ ⟨max N M, fun n hn => ?_⟩
  dsimp only
  rw [hF n (hf n (by omega)), hk n (by omega)]

theorem Settles.map {α β : Type} {f : Nat → Option α} {a : α} (hf : Settles f a) (k : α → β) :
    Settles (fun n => (f n).map k) (k a) := by
  obtain ⟨N, hf⟩ := hf
  exact ⟨N, fun n hn => congrArg (Option.map k) (hf n hn)⟩

variable {g : Grammar}

def Parses (g : Grammar) (m : Nat) (ts : List Token) (result : Reading × List Token) : Prop :=
  Settles (fun n => g.parse n m ts) result

def Extends (g : Grammar) (m : Nat) (t : Reading) (ts : List Token)
    (result : Reading × List Token) : Prop :=
  Settles (fun n => g.extend n m t ts) result

/-- No operator of level `m` or tighter comes first. -/
def Ends (g : Grammar) (m : Nat) (ts : List Token) : Prop :=
  ∀ t ∈ ts.head?, ∀ l ∈ g.following? t, l < m

theorem Ends.mono {m n : Nat} {ts : List Token} (h : g.Ends m ts) (hn : m ≤ n) :
    g.Ends n ts := fun t ht l hl => Nat.lt_of_lt_of_le (h t ht l hl) hn

theorem Ends.extends {m : Nat} {ts : List Token} (h : g.Ends m ts) (t : Reading) :
    g.Extends m t ts (t, ts) := by
  refine .succ ⟨0, fun n _ => ?_⟩
  cases ts with
  | nil => rfl
  | cons token ts =>
    have h := h token rfl
    cases token with
    | op op =>
      have hl := h _ rfl
      simp only [extend, if_neg (Nat.not_le.mpr hl)]
    | nullTest isNull =>
      have hl := h _ rfl
      simp only [extend, if_neg (Nat.not_le.mpr hl)]
    | like =>
      have hl := h _ rfl
      simp only [extend, if_neg (Nat.not_le.mpr hl)]
    | _ => rfl

/-- Operators before an operand share no level with those that follow one. -/
def KeepsApart (g : Grammar) : Prop :=
  ∀ t, ∀ l ∈ g.following? t, l ≠ g.not ∧ l ≠ g.negate

theorem Ends.of_keepsApart {m l : Nat} {ts : List Token} (h : g.Ends (m + 1) ts) (hm : m ≤ l)
    (hl : ∀ t, g.following? t ≠ some l) : g.Ends l ts := by
  intro t ht k hk
  have hk' := h t ht k hk
  have hne : k ≠ l := fun he => hl t (he ▸ hk)
  omega

theorem ends_zero {t : Token} (h : g.following? t = none) (ts : List Token) :
    g.Ends 0 (t :: ts) := by
  intro u hu l hl
  cases hu
  rw [h] at hl
  cases hl

theorem ends_following {t : Token} {l : Nat} (h : g.following? t = some l) (ts : List Token) :
    g.Ends (g.leftLevel l + 1) (t :: ts) := by
  intro u hu k hk
  cases hu
  rw [h] at hk
  cases hk
  exact Nat.lt_succ_of_le (g.le_leftLevel l)

theorem parsesItems_separated {items : List (List Token × Reading)}
    (hi : ∀ i ∈ items, ∀ rest, g.Ends 0 rest → g.Parses 0 (i.1 ++ rest) (i.2, rest))
    (rest : List Token) :
    Settles (fun n => g.parseItems n
        (Token.separated (items.map Prod.fst) ++ .arrayClosing :: rest))
      (items.map Prod.snd, rest) := by
  induction items with
  | nil =>
    refine .succ (.succ ⟨0, fun n _ => ?_⟩)
    simp [parseItems, parse, noItems, Token.separated]
  | cons i items ih =>
    cases items with
    | nil =>
      have hp := hi i (by simp) _ (ends_zero (t := .arrayClosing) rfl rest)
      refine hp.after (k := fun _ => some ([i.2], rest)) ⟨0, fun _ _ => rfl⟩ fun n hn => ?_
      simp only [List.map_cons, List.map_nil, Token.separated, parseItems, hn]
    | cons j items =>
      have ih := ih fun i h => hi i (List.mem_cons_of_mem _ h)
      have hp := hi i (by simp) _ (ends_zero (t := .comma) rfl
        (Token.separated ((j :: items).map Prod.fst) ++ .arrayClosing :: rest))
      refine hp.after (ih.map fun r => (i.2 :: r.1, r.2)) fun n hn => ?_
      simp only [List.map_cons, Token.separated, List.append_assoc, List.cons_append] at hn ⊢
      rw [parseItems, hn]
      dsimp only
      cases g.parseItems n _ <;> rfl

/-- The parser finds a reading, and goes on behind it. -/
theorem Reads.parses (hg : g.KeepsApart) {m : Nat} {ts : List Token} {t : Reading}
    (h : g.Reads m ts t) {k : Nat} {rest : List Token} {result : Reading × List Token}
    (hk : k ≤ m) (hrest : g.Ends (m + 1) rest) (hx : g.Extends k t rest result) :
    g.Parses k (ts ++ rest) result := by
  induction h generalizing k rest result with
  | atom m e => exact .succ hx
  | @group m ts t h ih =>
    have hp := ih (Nat.le_refl 0) ((ends_zero (t := .closing) rfl rest).mono (Nat.zero_le _))
      ((ends_zero (t := .closing) rfl rest).extends t)
    rw [List.cons_append, List.cons_append, List.append_assoc]
    exact hp.after hx fun n hn => by
      simp only [List.cons_append, List.nil_append] at hn ⊢
      rw [parse, hn]
  | array m items h ih =>
    have hitems : ∀ i ∈ items, ∀ rest, g.Ends 0 rest → g.Parses 0 (i.1 ++ rest) (i.2, rest) :=
      fun i hi rest he => ih i hi (Nat.le_refl 0) (he.mono (Nat.zero_le _)) (he.extends i.2)
    have hp := parsesItems_separated hitems rest
    rw [List.cons_append, List.cons_append, List.append_assoc]
    exact hp.after hx fun n hn => by
      simp only [List.cons_append, List.nil_append] at hn ⊢
      rw [parse, hn]
  | not hm h ih =>
    have he := hrest.of_keepsApart hm fun t ht => (hg t _ ht).1 rfl
    have hp := ih (Nat.le_refl _) (he.mono (Nat.le_succ _)) (he.extends _)
    exact hp.after hx fun n hn => by rw [List.cons_append, parse, hn]
  | negate hm h ih =>
    have he := hrest.of_keepsApart hm fun t ht => (hg t _ ht).2 rfl
    have hp := ih (Nat.le_refl _) (he.mono (Nat.le_succ _)) (he.extends _)
    exact hp.after hx fun n hn => by rw [List.cons_append, parse, hn]
  | @binary m op ts us left right hm hl hr ihl ihr =>
    have hkl := Nat.le_trans hk hm
    have he := hrest.mono (Nat.succ_le_succ hm)
    have hp := ihr (Nat.le_refl _) (he.mono (Nat.le_succ _)) (he.extends right)
    rw [List.append_assoc, List.cons_append]
    refine ihl (Nat.le_trans hkl (g.le_leftLevel _)) (ends_following rfl _) ?_
    exact hp.after hx fun n hn => by rw [extend, if_pos hkl, hn]
  | nullTest hm h ih =>
    have hkl := Nat.le_trans hk hm
    rw [List.append_assoc]
    refine ih (Nat.le_trans hkl (g.le_leftLevel _)) (ends_following rfl _) ?_
    obtain ⟨N, hx⟩ := hx
    refine .succ ⟨N, fun n hn => ?_⟩
    simp only [List.cons_append, List.nil_append]
    rw [extend, if_pos hkl]
    exact hx n hn
  | like hm hv hp ihv ihp =>
    have hkl := Nat.le_trans hk hm
    have he := hrest.mono (Nat.succ_le_succ hm)
    have hp := ihp (Nat.le_refl _) (he.mono (Nat.le_succ _)) (he.extends _)
    rw [List.append_assoc, List.cons_append]
    refine ihv (Nat.le_trans hkl (g.le_leftLevel _)) (ends_following rfl _) ?_
    exact hp.after hx fun n hn => by rw [extend, if_pos hkl, hn]

theorem Reads.unique (hg : g.KeepsApart) {m : Nat} {ts : List Token} {t u : Reading}
    (ht : g.Reads m ts t) (hu : g.Reads m ts u) : t = u := by
  have he : ∀ n, g.Ends n [] := fun n t ht => by cases ht
  have hp := ht.parses hg (Nat.le_refl m) (he _) ((he m).extends t)
  have hq := hu.parses hg (Nat.le_refl m) (he _) ((he m).extends u)
  exact congrArg Prod.fst (hp.unique hq)

theorem postgres_keepsApart : postgres.KeepsApart := by
  intro t l hl
  cases t with
  | op op =>
    cases hl
    cases op <;> decide
  | nullTest isNull =>
    cases hl
    decide
  | like =>
    cases hl
    decide
  | _ => cases hl

end Grammar

end DeclarativeSql
