import DeclarativeSql.Error

/-!
# Column flags

A column carries a word of 64 option bits. Columns that share an index tier form one index in
declaration order, columns that share a unique tier one unique constraint, and all primary key
columns together the primary key.
-/
namespace DeclarativeSql

structure ColumnFlags where
  bits : BitVec 64
  deriving DecidableEq

namespace ColumnFlags

/-- The word with only bit `n` set. -/
def bit (n : Nat) : ColumnFlags := ⟨BitVec.twoPow 64 n⟩

def empty : ColumnFlags := ⟨0⟩

def nullable : ColumnFlags := bit 0
def primaryKey : ColumnFlags := bit 1
def serial : ColumnFlags := bit 2
/-- Index tiers 1 to 4 are bits 4 to 7. -/
def indexTier (tier : Nat) : ColumnFlags := bit (3 + tier)
/-- Unique tiers 1 to 4 are bits 8 to 11. -/
def uniqueTier (tier : Nat) : ColumnFlags := bit (7 + tier)
/-- An index over a column with this flag uses the inverted method. -/
def gin : ColumnFlags := bit 62
def defaultNow : ColumnFlags := bit 63

def union (a b : ColumnFlags) : ColumnFlags := ⟨a.bits ||| b.bits⟩
def inter (a b : ColumnFlags) : ColumnFlags := ⟨a.bits &&& b.bits⟩
def complement (a : ColumnFlags) : ColumnFlags := ⟨~~~a.bits⟩

instance : OrOp ColumnFlags := ⟨union⟩
instance : AndOp ColumnFlags := ⟨inter⟩
instance : Complement ColumnFlags := ⟨complement⟩

def tiers : List Nat := [1, 2, 3, 4]

def indexMask : ColumnFlags := tiers.foldl (fun f t => f ||| indexTier t) empty
def uniqueMask : ColumnFlags := tiers.foldl (fun f t => f ||| uniqueTier t) empty

/-- The bits that change the column itself, and not only a key, index or unique over it. -/
def structuralMask : ColumnFlags := nullable ||| serial ||| defaultNow

/-- Every bit of `other` is set. -/
def contains (a other : ColumnFlags) : Bool := a &&& other == other

/-- Some bit of `other` is set. -/
def intersects (a other : ColumnFlags) : Bool := a &&& other != empty

def isEmpty (a : ColumnFlags) : Bool := a == empty

def structural (a : ColumnFlags) : ColumnFlags := a &&& structuralMask

/-- The flag of an index tier, which runs from 1 to 4. -/
def index (tier : Nat) : Except ConstructionError ColumnFlags :=
  if tier ∈ tiers then .ok (indexTier tier) else .error (.invalidTier tier)

/-- The flag of a unique tier, which runs from 1 to 4. -/
def unique (tier : Nat) : Except ConstructionError ColumnFlags :=
  if tier ∈ tiers then .ok (uniqueTier tier) else .error (.invalidTier tier)

/-- The index tiers of a column, ascending. -/
def indexTiers (a : ColumnFlags) : List Nat := tiers.filter fun t => a.contains (indexTier t)

/-- The unique tiers of a column, ascending. -/
def uniqueTiers (a : ColumnFlags) : List Nat := tiers.filter fun t => a.contains (uniqueTier t)

/-- Single flags and their names, in the order in which a word is spelled. -/
def named : List (ColumnFlags × String) :=
  [(nullable, "NULLABLE"), (primaryKey, "PRIMARY_KEY"), (serial, "SERIAL"),
    (indexTier 1, "INDEX_1"), (indexTier 2, "INDEX_2"), (indexTier 3, "INDEX_3"),
    (indexTier 4, "INDEX_4"), (uniqueTier 1, "UNIQUE_1"), (uniqueTier 2, "UNIQUE_2"),
    (uniqueTier 3, "UNIQUE_3"), (uniqueTier 4, "UNIQUE_4"), (gin, "GIN"),
    (defaultNow, "DEFAULT_NOW")]

/-- Bits without a name are not spelled. -/
def text (a : ColumnFlags) : String :=
  let names := named.filterMap fun (flag, name) => if a.contains flag then some name else none
  if names.isEmpty then "ColumnFlags(empty)"
  else "ColumnFlags(" ++ String.intercalate " | " names ++ ")"

/-- Bit `n` of the word. -/
def has (a : ColumnFlags) (n : Nat) : Bool := a.bits.getLsbD n

@[simp] theorem has_empty (n : Nat) : empty.has n = false := by simp [has, empty]

@[simp] theorem has_or (a b : ColumnFlags) (n : Nat) : (a ||| b).has n = (a.has n || b.has n) := by
  show (a.bits ||| b.bits).getLsbD n = _
  simp [has]

@[simp] theorem has_and (a b : ColumnFlags) (n : Nat) :
    (a &&& b).has n = (a.has n && b.has n) := by
  show (a.bits &&& b.bits).getLsbD n = _
  simp [has]

theorem has_bit (m n : Nat) : (bit m).has n = (decide (n < 64) && decide (m = n)) := by
  by_cases h : m = n <;> simp [has, bit, BitVec.getLsbD_twoPow, h]

theorem ext_has {a b : ColumnFlags} (h : ∀ n < 64, a.has n = b.has n) : a = b := by
  cases a; cases b
  simp only [mk.injEq]
  exact BitVec.eq_of_getLsbD_eq h

theorem contains_bit (a : ColumnFlags) {n : Nat} (hn : n < 64) : a.contains (bit n) = a.has n := by
  rw [Bool.eq_iff_iff]
  simp only [contains, beq_iff_eq]
  constructor
  · intro h
    have h := congrArg (·.has n) h
    simpa [has_bit, hn] using h
  · intro h
    apply ext_has
    intro m _
    rw [has_and, has_bit]
    by_cases hm : n = m
    · simp [← hm, h, hn]
    · simp [hm]

end ColumnFlags

end DeclarativeSql
