import DeclarativeSql.Proofs.Migration.Matching

/-!
# Conflicts

When two databases can not be compared, on which side that is, and which table is to blame. The
search for an ambiguity ends at the first table that repeats an earlier name or has one in itself.
-/
namespace DeclarativeSql

/-- The first element of a list whose key an earlier element has. -/
def IsFirstRepeat {α κ : Type} (key : α → κ) (xs : List α) (x : α) : Prop :=
  ∃ front back, xs = front ++ x :: back ∧ (front.map key).Nodup ∧ key x ∈ front.map key

section FirstRepeat

variable {α κ : Type} [DecidableEq κ] {key : α → κ} {seen : List κ} {xs : List α} {x : α}

/-- Behind elements of new keys the search goes on with their keys seen. -/
theorem firstRepeat_append {front : List α} (h : firstRepeat key seen front = none) :
    firstRepeat key seen (front ++ xs) = firstRepeat key ((front.map key).reverse ++ seen) xs := by
  induction front generalizing seen with
  | nil => rfl
  | cons y front ih =>
    by_cases hy : key y ∈ seen
    · simp [firstRepeat, hy] at h
    · rw [firstRepeat, if_neg hy] at h
      rw [List.cons_append, firstRepeat, if_neg hy, ih h]
      simp

theorem exists_of_firstRepeat (h : firstRepeat key seen xs = some x) :
    ∃ front back, xs = front ++ x :: back ∧ firstRepeat key seen front = none ∧
      (key x ∈ seen ∨ key x ∈ front.map key) := by
  induction xs generalizing seen with
  | nil => cases h
  | cons y ys ih =>
    by_cases hy : key y ∈ seen
    · rw [firstRepeat, if_pos hy] at h
      cases h
      exact ⟨[], ys, rfl, rfl, .inl hy⟩
    · rw [firstRepeat, if_neg hy] at h
      obtain ⟨front, back, rfl, hfront, hx⟩ := ih h
      refine ⟨y :: front, back, rfl, ?_, ?_⟩
      · rw [firstRepeat, if_neg hy, hfront]
      · rw [List.mem_cons] at hx
        rw [List.map_cons, List.mem_cons]
        tauto

theorem firstRepeat_eq_some_iff : firstRepeat key [] xs = some x ↔ IsFirstRepeat key xs x := by
  constructor
  · intro h
    obtain ⟨front, back, rfl, hfront, hx⟩ := exists_of_firstRepeat h
    refine ⟨front, back, rfl, (firstRepeat_eq_none_iff.mp hfront).1, ?_⟩
    simpa using hx
  · rintro ⟨front, back, rfl, hnodup, hx⟩
    have hfront : firstRepeat key [] front = none :=
      firstRepeat_eq_none_iff.mpr ⟨hnodup, by simp⟩
    rw [firstRepeat_append hfront, firstRepeat, if_pos (by simpa using hx)]

end FirstRepeat

/-- What in a table repeats first: columns are told apart before indices, and these before
uniques. -/
inductive Table.Repeats (t : Table) : Ambiguity → Prop
  | column {d : ColumnDef} : IsFirstRepeat ColumnDef.name t.definitions d →
      t.Repeats (.columnTwice d.name)
  | index {i : Index} : (t.definitions.map ColumnDef.name).Nodup →
      IsFirstRepeat Index.signature t.indices i → t.Repeats (.indexTwice i.name)
  | unique {k : Key} : (t.definitions.map ColumnDef.name).Nodup →
      (t.indices.map Index.signature).Nodup →
      IsFirstRepeat Key.signature t.uniques k → t.Repeats (.uniqueTwice k.name)

theorem Table.ambiguity?_eq_some_iff {t : Table} {reason : Ambiguity} :
    t.ambiguity? = some reason ↔ t.Repeats reason := by
  have hnone : ∀ {α κ : Type} [DecidableEq κ] {key : α → κ} {xs : List α},
      firstRepeat key [] xs = none ↔ (xs.map key).Nodup := by
    simp [firstRepeat_eq_none_iff]
  constructor
  · intro h
    unfold ambiguity? at h
    split at h
    next d hd =>
      cases h
      exact .column (firstRepeat_eq_some_iff.mp hd)
    next hc =>
      split at h
      next i hi =>
        cases h
        exact .index (hnone.mp hc) (firstRepeat_eq_some_iff.mp hi)
      next hi =>
        split at h
        next k hk =>
          cases h
          exact .unique (hnone.mp hc) (hnone.mp hi) (firstRepeat_eq_some_iff.mp hk)
        next => cases h
  · intro h
    cases h with
    | column hd => simp only [ambiguity?, firstRepeat_eq_some_iff.mpr hd]
    | index hc hi => simp only [ambiguity?, hnone.mpr hc, firstRepeat_eq_some_iff.mpr hi]
    | unique hc hi hk =>
      simp only [ambiguity?, hnone.mpr hc, hnone.mpr hi, firstRepeat_eq_some_iff.mpr hk]

/-- The table repeats one of the earlier names, or it is ambiguous in itself. -/
inductive Table.IsAmbiguousAfter (earlier : List String) (t : Table) : Ambiguity → Prop
  | name : t.name ∈ earlier → t.IsAmbiguousAfter earlier .tableTwice
  | inner {reason : Ambiguity} : t.name ∉ earlier → t.Repeats reason →
      t.IsAmbiguousAfter earlier reason

theorem Table.IsAmbiguousAfter.congr {earlier earlier' : List String} {t : Table}
    {reason : Ambiguity} (h : t.IsAmbiguousAfter earlier reason)
    (hiff : t.name ∈ earlier ↔ t.name ∈ earlier') : t.IsAmbiguousAfter earlier' reason := by
  cases h with
  | name hname => exact .name (hiff.mp hname)
  | inner hname hrepeats => exact .inner (fun hn => hname (hiff.mpr hn)) hrepeats

/-- The first table of a database that is ambiguous after those in front of it. -/
def Database.FirstConflict (db : Database) (t : Table) (reason : Ambiguity) : Prop :=
  ∃ done rest, db.tables = done ++ t :: rest ∧ (done.map Table.name).Nodup ∧
    (∀ u ∈ done, u.IsUnambiguous) ∧ t.IsAmbiguousAfter (done.map Table.name) reason

section FirstAmbiguous

variable {seen : List String} {ts : List Table}

theorem firstAmbiguous_append {done : List Table} (h : firstAmbiguous seen done = none) :
    firstAmbiguous seen (done ++ ts) =
      firstAmbiguous ((done.map Table.name).reverse ++ seen) ts := by
  induction done generalizing seen with
  | nil => rfl
  | cons u done ih =>
    by_cases hu : u.name ∈ seen
    · simp [firstAmbiguous, hu] at h
    · cases ha : u.ambiguity? with
      | some reason => simp [firstAmbiguous, hu, ha] at h
      | none =>
        simp only [firstAmbiguous, if_neg hu, ha] at h
        simp only [List.cons_append, firstAmbiguous, if_neg hu, ha, ih h]
        simp

theorem exists_of_firstAmbiguous_eq_some {name : String} {reason : Ambiguity}
    (h : firstAmbiguous seen ts = some (name, reason)) :
    ∃ done t rest, ts = done ++ t :: rest ∧ t.name = name ∧ firstAmbiguous seen done = none ∧
      t.IsAmbiguousAfter ((done.map Table.name).reverse ++ seen) reason := by
  induction ts generalizing seen with
  | nil => cases h
  | cons u us ih =>
    by_cases hu : u.name ∈ seen
    · rw [firstAmbiguous, if_pos hu] at h
      cases h
      exact ⟨[], u, us, rfl, rfl, rfl, .name hu⟩
    · cases ha : u.ambiguity? with
      | some inner =>
        simp only [firstAmbiguous, if_neg hu, ha] at h
        cases h
        exact ⟨[], u, us, rfl, rfl, rfl, .inner hu (Table.ambiguity?_eq_some_iff.mp ha)⟩
      | none =>
        simp only [firstAmbiguous, if_neg hu, ha] at h
        obtain ⟨done, t, rest, rfl, hname, hdone, ht⟩ := ih h
        refine ⟨u :: done, t, rest, rfl, hname, ?_, ?_⟩
        · simp only [firstAmbiguous, if_neg hu, ha, hdone]
        · simpa using ht

theorem firstAmbiguous_cons_of_isAmbiguousAfter {t : Table} {reason : Ambiguity}
    (h : t.IsAmbiguousAfter seen reason) :
    firstAmbiguous seen (t :: ts) = some (t.name, reason) := by
  cases h with
  | name hname => rw [firstAmbiguous, if_pos hname]
  | inner hname hrepeats =>
    simp only [firstAmbiguous, if_neg hname, Table.ambiguity?_eq_some_iff.mpr hrepeats]

end FirstAmbiguous

variable {db : Database} {t : Table} {reason : Ambiguity}

theorem Database.ambiguity?_eq_some_iff {name : String} :
    db.ambiguity? = some (name, reason) ↔ ∃ t, t.name = name ∧ db.FirstConflict t reason := by
  constructor
  · intro h
    obtain ⟨done, t, rest, htables, hname, hdone, ht⟩ := exists_of_firstAmbiguous_eq_some h
    obtain ⟨hnames, -, hinner⟩ := firstAmbiguous_eq_none_iff.mp hdone
    refine ⟨t, hname, done, rest, htables, hnames, hinner, ?_⟩
    exact ht.congr (by simp)
  · rintro ⟨t, rfl, done, rest, htables, hnames, hinner, ht⟩
    have hdone : firstAmbiguous [] done = none :=
      firstAmbiguous_eq_none_iff.mpr ⟨hnames, by simp, hinner⟩
    rw [ambiguity?, htables, firstAmbiguous_append hdone]
    exact firstAmbiguous_cons_of_isAmbiguousAfter (ht.congr (by simp))

theorem Database.exists_firstConflict_iff :
    (∃ t reason, db.FirstConflict t reason) ↔ ¬ db.IsUnambiguous := by
  rw [← ambiguity?_eq_none_iff]
  constructor
  · rintro ⟨t, reason, h⟩
    rw [ambiguity?_eq_some_iff.mpr ⟨t, rfl, h⟩]
    exact Option.some_ne_none _
  · intro h
    obtain ⟨⟨name, reason⟩, hfound⟩ := Option.ne_none_iff_exists'.mp h
    obtain ⟨t, -, ht⟩ := ambiguity?_eq_some_iff.mp hfound
    exact ⟨t, reason, ht⟩

section Refused

variable {current target : Database} {error : Error}

theorem diff_eq_error_iff : diff current target = .error error ↔ ∃ t reason,
    (current.FirstConflict t reason ∧ error = .diffConflict .current t.name reason) ∨
      (current.IsUnambiguous ∧ target.FirstConflict t reason ∧
        error = .diffConflict .target t.name reason) := by
  have hside : ∀ {db : Database} (side : DiffSide), (∃ name reason,
      db.ambiguity? = some (name, reason) ∧ error = .diffConflict side name reason) ↔
        ∃ t reason, db.FirstConflict t reason ∧ error = .diffConflict side t.name reason := by
    intro db side
    constructor
    · rintro ⟨name, reason, hfound, herror⟩
      obtain ⟨t, rfl, ht⟩ := Database.ambiguity?_eq_some_iff.mp hfound
      exact ⟨t, reason, ht, herror⟩
    · rintro ⟨t, reason, ht, herror⟩
      exact ⟨t.name, reason, Database.ambiguity?_eq_some_iff.mpr ⟨t, rfl, ht⟩, herror⟩
  have hdiff : diff current target = .error error ↔
      (∃ name reason, current.ambiguity? = some (name, reason) ∧
        error = .diffConflict .current name reason) ∨
      (current.ambiguity? = none ∧ ∃ name reason, target.ambiguity? = some (name, reason) ∧
        error = .diffConflict .target name reason) := by
    unfold diff
    split <;> simp [*, eq_comm]
  rw [hdiff, hside, hside, Database.ambiguity?_eq_none_iff]
  simp only [exists_or, exists_and_left]

theorem exists_diff_eq_error_iff : (∃ error, diff current target = .error error) ↔
    ¬ current.IsUnambiguous ∨ ¬ target.IsUnambiguous := by
  rw [← not_and_or]
  constructor
  · rintro ⟨error, herror⟩ ⟨hc, ht⟩
    rw [diff_eq_ok_iff.mpr ⟨hc, ht, rfl⟩] at herror
    cases herror
  · intro h
    cases hdiff : diff current target with
    | ok delta =>
      obtain ⟨hc, ht, -⟩ := diff_eq_ok_iff.mp hdiff
      exact absurd ⟨hc, ht⟩ h
    | error error => exact ⟨error, rfl⟩

end Refused

/-- Two databases can not be compared exactly if one of them has two tables of one name, or a table
with two columns of one name, two indices of one signature and method or two uniques of one
signature. The current side is blamed if it is ambiguous, and the target else; on that side it is
the first table that repeats the name of an earlier one or is ambiguous in itself. -/
theorem diff_refuses_iff (current target : Database) :
    ((∃ error, diff current target = .error error) ↔
      ¬ current.IsUnambiguous ∨ ¬ target.IsUnambiguous) ∧
    ∀ error, diff current target = .error error ↔ ∃ t reason,
      (¬ current.IsUnambiguous ∧ current.FirstConflict t reason ∧
        error = .diffConflict .current t.name reason) ∨
      (current.IsUnambiguous ∧ target.FirstConflict t reason ∧
        error = .diffConflict .target t.name reason) := by
  refine ⟨exists_diff_eq_error_iff, fun error => ?_⟩
  rw [diff_eq_error_iff]
  refine exists_congr fun t => exists_congr fun reason => or_congr_left ?_
  constructor
  · rintro ⟨hconflict, herror⟩
    exact ⟨Database.exists_firstConflict_iff.mp ⟨t, reason, hconflict⟩, hconflict, herror⟩
  · rintro ⟨-, hconflict, herror⟩
    exact ⟨hconflict, herror⟩

end DeclarativeSql
