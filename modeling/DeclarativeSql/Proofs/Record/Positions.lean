import DeclarativeSql.Proofs.Record.Reading

/-!
# Reading by position

Each field of a record is read from the value at its own position. A record is read if all of its
values convert; otherwise the first one that does not convert decides the error, which names its
position, what was expected there and what was found.
-/
namespace DeclarativeSql

variable {row : Row}

namespace Row

variable {t : FieldType} {index : Nat}

theorem exists_read_iff : (∃ x : t.Carrier, row.read t index = .ok x) ↔
    ∃ v, row.values[index]? = some v ∧ t.Fits v := by
  simp only [read_eq_ok_iff, ← FieldType.exists_ofValue?_iff]
  constructor
  · rintro ⟨x, v, hv, hx⟩
    exact ⟨v, hv, x, hx⟩
  · rintro ⟨v, hv, x, hx⟩
    exact ⟨x, v, hv, hx⟩

theorem read_eq_error_iff {e : Error} :
    row.read t index = .error e ↔ (∀ v ∈ row.values[index]?, ¬ t.Fits v) ∧
      e = .rowMapping index t.expected (row.values[index]?.elim "no column" Value.kind) := by
  unfold read readWith get?
  cases row.values[index]? with
  | none => simp [eq_comm]
  | some v =>
    cases hv : t.ofValue? v <;> simp [← FieldType.exists_ofValue?_iff, hv, eq_comm]

end Row

namespace Fields

/-- The field at a position. -/
def get : (ts : List FieldType) → Fields ts → (i : Fin ts.length) → ts[i].Carrier
  | _ :: _, (x, _), ⟨0, _⟩ => x
  | _ :: ts, (_, rest), ⟨i + 1, h⟩ => get ts rest ⟨i, Nat.lt_of_succ_lt_succ h⟩

variable {ts : List FieldType} {index : Nat}

theorem readFrom_eq_ok_iff_get {r : Fields ts} : readFrom row ts index = .ok r ↔
    ∀ i : Fin ts.length, row.read ts[i] (index + i) = .ok (get ts r i) := by
  induction ts generalizing index with
  | nil => exact iff_of_true rfl fun i => i.elim0
  | cons t ts ih =>
    obtain ⟨x, rest⟩ := r
    have hshift : ∀ i, index + 1 + i = index + (i + 1) := fun i => by omega
    simp only [readFrom, bind_eq_ok, pure_eq_ok, ih, hshift]
    constructor
    · rintro ⟨y, hy, s, hs, hrecord⟩ ⟨_ | i, hi⟩
      · obtain ⟨rfl, rfl⟩ := Prod.mk.inj hrecord
        exact hy
      · obtain ⟨rfl, rfl⟩ := Prod.mk.inj hrecord
        exact hs ⟨i, Nat.lt_of_succ_lt_succ hi⟩
    · intro h
      exact ⟨x, h ⟨0, Nat.zero_lt_succ _⟩, rest, fun i => h i.succ, rfl⟩

/-- The first field that is not read decides. -/
theorem readFrom_eq_error_iff {e : Error} : readFrom row ts index = .error e ↔
    ∃ i : Fin ts.length, row.read ts[i] (index + i) = .error e ∧
      ∀ j < i, ∃ x : ts[j].Carrier, row.read ts[j] (index + j) = .ok x := by
  induction ts generalizing index with
  | nil => exact iff_of_false nofun fun ⟨i, _⟩ => i.elim0
  | cons t ts ih =>
    have hshift : ∀ i, index + 1 + i = index + (i + 1) := fun i => by omega
    cases hfirst : row.read t index with
    | error e' =>
      have hread : readFrom row (t :: ts) index = .error e' := by
        simp only [readFrom, hfirst, bind, Except.bind]
      rw [hread]
      constructor
      · rintro h
        obtain rfl := Except.error.inj h
        exact ⟨⟨0, Nat.zero_lt_succ _⟩, hfirst, fun j hj => absurd hj (Nat.not_lt_zero _)⟩
      · rintro ⟨⟨_ | i, hi⟩, he, hbefore⟩
        · exact congrArg Except.error (Except.error.inj (hfirst.symm.trans he))
        · obtain ⟨x, hx⟩ := hbefore ⟨0, Nat.zero_lt_succ _⟩ (Nat.zero_lt_succ _)
          cases hfirst.symm.trans hx
    | ok x =>
      have hread : readFrom row (t :: ts) index = .error e ↔
          readFrom row ts (index + 1) = .error e := by
        simp only [readFrom, hfirst, bind, Except.bind]
        cases readFrom row ts (index + 1) <;> simp [pure, Except.pure]
      rw [hread, ih]
      simp only [hshift]
      constructor
      · rintro ⟨i, he, hbefore⟩
        refine ⟨i.succ, he, ?_⟩
        rintro ⟨_ | j, hj⟩ hlt
        · exact ⟨x, hfirst⟩
        · exact hbefore ⟨j, Nat.lt_of_succ_lt_succ hj⟩ (Nat.lt_of_succ_lt_succ hlt)
      · rintro ⟨⟨_ | i, hi⟩, he, hbefore⟩
        · cases hfirst.symm.trans he
        · exact ⟨⟨i, Nat.lt_of_succ_lt_succ hi⟩, he, fun j hj =>
            hbefore j.succ (Nat.succ_lt_succ hj)⟩

end Fields

end DeclarativeSql
