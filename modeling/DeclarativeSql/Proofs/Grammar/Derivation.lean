import DeclarativeSql.Proofs.Grammar.Levels
import DeclarativeSql.Proofs.Grammar.Symbol

/-!
# Derivations

A grammar by levels over symbols. Where `Grammar.Reads` takes a call as an atom, brackets hold
expressions of their own here. Symbols derive one expression at most: a parser that climbs from
level to level finds it.
-/
namespace DeclarativeSql

/-- IS NULL compares with NULL, and IS NOT NULL asks for a value. -/
def Expr.nullTested (isNull : Bool) (e : Expr) : Expr :=
  if isNull then .binary .equal e .null else .unary .hasValue e

namespace Grammar

def connective (g : Grammar) : Connective → Nat
  | .op op => g.binary op
  | .like => g.like

/-- The symbols can be read so where an operand of level `m` or tighter is asked for. -/
inductive Derives (g : Grammar) : (m : Nat) → List Symbol → Expr → Prop
  | leaf (m : Nat) (l : Leaf) : Derives g m [.leaf l] l.expr
  | group {m : Nat} {ts : List Symbol} {e : Expr} :
    Derives g 0 ts e → Derives g m (.opening :: ts ++ [Symbol.closing false]) e
  | list (m : Nat) (b : Bracket) (items : List (List Symbol × Expr)) :
    (∀ i ∈ items, Derives g 0 i.1 i.2) →
      Derives g m (Symbol.bracketed b (items.map Prod.fst)) (b.expr (items.map Prod.snd))
  | not {m : Nat} {ts : List Symbol} {e : Expr} :
    m ≤ g.not → Derives g g.not ts e → Derives g m (.not :: ts) (.unary .not e)
  | negate {m : Nat} {ts : List Symbol} {e : Expr} :
    m ≤ g.negate → Derives g g.negate ts e → Derives g m (.minus :: ts) (.unary .negate e)
  | join {m : Nat} {c : Connective} {ts us : List Symbol} {left right : Expr} :
    m ≤ g.connective c → Derives g (g.leftLevel (g.connective c)) ts left →
      Derives g (g.connective c + 1) us right →
      Derives g m (ts ++ .connective c :: us) (c.expr left right)
  | nullTest {m : Nat} {isNull : Bool} {ts : List Symbol} {e : Expr} :
    m ≤ g.nullTest → Derives g (g.leftLevel g.nullTest) ts e →
      Derives g m (ts ++ [Symbol.nullTest isNull]) (e.nullTested isNull)

/-- The level of what goes on behind an operand. -/
def level? (g : Grammar) : Symbol → Option Nat
  | .connective c => some (g.connective c)
  | .nullTest _ => some g.nullTest
  | _ => none

/-- The end of a bracket that holds nothing. -/
def noOperands (isArray : Bool) : List Symbol → Option (List Expr × List Symbol)
  | .closing closed :: rest => if closed = isArray then some ([], rest) else none
  | _ => none

mutual

/-- Reads an operand of level `m` or tighter and leaves the symbols behind it, with at most `n`
calls inside each other. -/
def operand (g : Grammar) : (n m : Nat) → List Symbol → Option (Expr × List Symbol)
  | n + 1, m, .leaf l :: ts => g.climb n m l.expr ts
  | n + 1, m, .opening :: ts =>
    match g.operand n 0 ts with
    | some (e, .closing false :: rest) => g.climb n m e rest
    | _ => none
  | n + 1, m, .start b :: ts =>
    match g.operands n b.isArray ts with
    | some (items, rest) => g.climb n m (b.expr items) rest
    | none => none
  | n + 1, m, .not :: ts =>
    match g.operand n g.not ts with
    | some (e, rest) => g.climb n m (.unary .not e) rest
    | none => none
  | n + 1, m, .connective (.op .subtract) :: ts =>
    match g.operand n g.negate ts with
    | some (e, rest) => g.climb n m (.unary .negate e) rest
    | none => none
  | _, _, _ => none

/-- Goes on behind an operand as long as something of level `m` or tighter follows. -/
def climb (g : Grammar) : (n m : Nat) → Expr → List Symbol → Option (Expr × List Symbol)
  | 0, _, _, _ => none
  | n + 1, m, left, .connective c :: ts =>
    if m ≤ g.connective c then
      match g.operand n (g.connective c + 1) ts with
      | some (right, rest) => g.climb n m (c.expr left right) rest
      | none => none
    else some (left, .connective c :: ts)
  | n + 1, m, left, .nullTest isNull :: ts =>
    if m ≤ g.nullTest then g.climb n m (left.nullTested isNull) ts
    else some (left, .nullTest isNull :: ts)
  | _ + 1, _, left, ts => some (left, ts)

/-- Reads operands up to the end of a bracket. -/
def operands (g : Grammar) : (n : Nat) → (isArray : Bool) → List Symbol →
    Option (List Expr × List Symbol)
  | 0, _, _ => none
  | n + 1, isArray, ts =>
    match g.operand n 0 ts with
    | some (e, .comma :: rest) =>
      match g.operands n isArray rest with
      | some (items, rest) => some (e :: items, rest)
      | none => none
    | some (e, .closing closed :: rest) => if closed = isArray then some ([e], rest) else none
    | _ => noOperands isArray ts

end

variable {g : Grammar}

/-- Nothing of level `m` or tighter comes first. -/
def Halts (g : Grammar) (m : Nat) (ts : List Symbol) : Prop :=
  ∀ t ∈ ts.head?, ∀ l ∈ g.level? t, l < m

theorem Halts.mono {m n : Nat} {ts : List Symbol} (h : g.Halts m ts) (hn : m ≤ n) :
    g.Halts n ts := fun t ht l hl => Nat.lt_of_lt_of_le (h t ht l hl) hn

theorem halts_of_level? {t : Symbol} (h : g.level? t = none) (m : Nat) (ts : List Symbol) :
    g.Halts m (t :: ts) := by
  intro u hu l hl
  cases hu
  rw [h] at hl
  cases hl

theorem halts_leftLevel {t : Symbol} {l : Nat} (h : g.level? t = some l) (ts : List Symbol) :
    g.Halts (g.leftLevel l + 1) (t :: ts) := by
  intro u hu k hk
  cases hu
  rw [h] at hk
  cases hk
  exact Nat.lt_succ_of_le (g.le_leftLevel l)

theorem Halts.climbs {m : Nat} {ts : List Symbol} (h : g.Halts m ts) (e : Expr) :
    Settles (fun n => g.climb n m e ts) (e, ts) := by
  refine .succ ⟨0, fun n _ => ?_⟩
  cases ts with
  | nil => rfl
  | cons t ts =>
    have h := h t rfl
    cases t with
    | connective c => simp only [climb, if_neg (Nat.not_le.mpr (h _ rfl))]
    | nullTest isNull => simp only [climb, if_neg (Nat.not_le.mpr (h _ rfl))]
    | _ => rfl

/-- Nothing that goes on behind an operand has the level. -/
def IsFree (g : Grammar) (l : Nat) : Prop :=
  (∀ op, g.binary op ≠ l) ∧ g.like ≠ l ∧ g.nullTest ≠ l

theorem IsFree.level?_ne {l : Nat} (h : g.IsFree l) (t : Symbol) : g.level? t ≠ some l := by
  obtain ⟨hop, hlike, hnull⟩ := h
  cases t with
  | connective c => cases c <;> simp [level?, connective, hop, hlike]
  | nullTest isNull => simp [level?, hnull]
  | _ => simp [level?]

/-- What begins an operand has a level of its own. -/
structure IsSeparate (g : Grammar) : Prop where
  not : g.IsFree g.not
  negate : g.IsFree g.negate

theorem Halts.of_isFree {m l : Nat} {ts : List Symbol} (h : g.Halts (m + 1) ts) (hm : m ≤ l)
    (hl : g.IsFree l) : g.Halts l ts := by
  intro t ht k hk
  have hbelow := h t ht k hk
  have hne : k ≠ l := fun he => hl.level?_ne t (he ▸ hk)
  omega

theorem operands_separated (isArray : Bool) {items : List (List Symbol × Expr)}
    (hi : ∀ i ∈ items, ∀ rest, g.Halts 0 rest →
      Settles (fun n => g.operand n 0 (i.1 ++ rest)) (i.2, rest)) (rest : List Symbol) :
    Settles (fun n => g.operands n isArray
        (Symbol.separated (items.map Prod.fst) ++ .closing isArray :: rest))
      (items.map Prod.snd, rest) := by
  induction items with
  | nil =>
    refine .succ (.succ ⟨0, fun n _ => ?_⟩)
    simp [operands, operand, noOperands, Symbol.separated]
  | cons i items ih =>
    cases items with
    | nil =>
      have hp := hi i (by simp) _ (halts_of_level? (t := .closing isArray) rfl 0 rest)
      refine hp.after (k := fun _ => some ([i.2], rest)) ⟨0, fun _ _ => rfl⟩ fun n hn => ?_
      simp only [List.map_cons, List.map_nil, Symbol.separated, operands, hn, if_true]
    | cons j items =>
      have ih := ih fun i h => hi i (List.mem_cons_of_mem _ h)
      have hp := hi i (by simp) _ (halts_of_level? (t := .comma) rfl 0
        (Symbol.separated ((j :: items).map Prod.fst) ++ .closing isArray :: rest))
      refine hp.after (ih.map fun r => (i.2 :: r.1, r.2)) fun n hn => ?_
      simp only [List.map_cons, Symbol.separated, List.append_assoc, List.cons_append] at hn ⊢
      rw [operands, hn]
      dsimp only
      cases g.operands n isArray _ <;> rfl

/-- The parser finds what is derived, and goes on behind it. -/
theorem Derives.operand (hg : g.IsSeparate) {m : Nat} {ts : List Symbol} {e : Expr}
    (h : g.Derives m ts e) {k : Nat} {rest : List Symbol} {result : Expr × List Symbol}
    (hk : k ≤ m) (hrest : g.Halts (m + 1) rest)
    (hx : Settles (fun n => g.climb n k e rest) result) :
    Settles (fun n => g.operand n k (ts ++ rest)) result := by
  -- whatever follows is too loose for the operand, so the parser comes back with all of it
  induction h generalizing k rest result with
  | leaf m l => exact .succ hx
  | @group m ts e h ih =>
    have hend : ∀ n, g.Halts n (.closing false :: rest) := fun n => halts_of_level? rfl n rest
    have hp := ih (Nat.le_refl 0) (hend _) ((hend _).climbs e)
    rw [List.cons_append, List.cons_append, List.append_assoc]
    exact hp.after hx fun n hn => by rw [List.singleton_append, Grammar.operand, hn]
  | list m b items h ih =>
    have hitems : ∀ i ∈ items, ∀ rest, g.Halts 0 rest →
        Settles (fun n => g.operand n 0 (i.1 ++ rest)) (i.2, rest) :=
      fun i hi rest he => ih i hi (Nat.le_refl 0) (he.mono (Nat.zero_le _)) (he.climbs i.2)
    have hp := operands_separated b.isArray hitems rest
    rw [Symbol.bracketed, List.cons_append, List.cons_append, List.append_assoc]
    exact hp.after hx fun n hn => by rw [List.singleton_append, Grammar.operand, hn]
  | not hm h ih =>
    have he := hrest.of_isFree hm hg.not
    have hp := ih (Nat.le_refl _) (he.mono (Nat.le_succ _)) (he.climbs _)
    exact hp.after hx fun n hn => by rw [List.cons_append, Grammar.operand, hn]
  | negate hm h ih =>
    have he := hrest.of_isFree hm hg.negate
    have hp := ih (Nat.le_refl _) (he.mono (Nat.le_succ _)) (he.climbs _)
    exact hp.after hx fun n hn => by rw [List.cons_append, Symbol.minus, Grammar.operand, hn]
  | @join m c ts us left right hm hl hr ihl ihr =>
    have hkl := Nat.le_trans hk hm
    have he := hrest.mono (Nat.succ_le_succ hm)
    have hp := ihr (Nat.le_refl _) (he.mono (Nat.le_succ _)) (he.climbs right)
    rw [List.append_assoc, List.cons_append]
    apply ihl (Nat.le_trans hkl (g.le_leftLevel _)) (halts_leftLevel rfl _)
    exact hp.after hx fun n hn => by rw [climb, if_pos hkl, hn]
  | nullTest hm h ih =>
    have hkl := Nat.le_trans hk hm
    rw [List.append_assoc, List.singleton_append]
    apply ih (Nat.le_trans hkl (g.le_leftLevel _)) (halts_leftLevel rfl _)
    obtain ⟨N, hx⟩ := hx
    refine .succ ⟨N, fun n hn => ?_⟩
    dsimp only
    rw [climb, if_pos hkl]
    exact hx n hn

/-- Symbols derive one expression at most. -/
theorem Derives.unique (hg : g.IsSeparate) {m : Nat} {ts : List Symbol} {e u : Expr}
    (he : g.Derives m ts e) (hu : g.Derives m ts u) : e = u := by
  have hend : ∀ n, g.Halts n [] := fun n t ht => by cases ht
  have hp := he.operand hg (Nat.le_refl m) (hend _) ((hend m).climbs e)
  have hq := hu.operand hg (Nat.le_refl m) (hend _) ((hend m).climbs u)
  exact congrArg Prod.fst (hp.unique hq)

end Grammar

end DeclarativeSql
