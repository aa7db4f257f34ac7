import DeclarativeSql.Proofs.Query.Runs
import DeclarativeSql.Query.Pieces

/-!
# Registered tables

Nodes bring their tables along, in two ways, and tables are looked up by identity. New ones are put
behind those that are there and nothing is taken away, so a table that has an alias keeps it.
-/
namespace DeclarativeSql

namespace Arena

variable {a b : Arena} {t u : TableId} {name : String}

theorem aliasName_injective {m n : Nat} (h : aliasName m = aliasName n) : m = n := by
  simp only [aliasName, Nat.toString_eq_repr] at h
  have hdigits := congrArg String.toList ((String.append_right_inj "t").mp h)
  simp only [Nat.toList_repr] at hdigits
  rw [← Nat.ofDigitChars_toDigits (n := m) (by decide) le_rfl, hdigits,
    Nat.ofDigitChars_toDigits (by decide) le_rfl]

theorem eq_of_alias? (ht : a.alias? t = some name) (hu : a.alias? u = some name) : t = u := by
  obtain ⟨i, hi, rfl⟩ := Option.map_eq_some_iff.mp ht
  obtain ⟨j, hj, hname⟩ := Option.map_eq_some_iff.mp hu
  obtain rfl := aliasName_injective hname
  obtain ⟨_, hti, -⟩ := List.findIdx?_eq_some_iff_getElem.mp hi
  obtain ⟨_, huj, -⟩ := List.findIdx?_eq_some_iff_getElem.mp hj
  exact (beq_iff_eq.mp hti).symm.trans (beq_iff_eq.mp huj)

theorem isSome_alias?_iff : (a.alias? t).isSome ↔ t ∈ a.tables.map Table.id := by
  simp [alias?]

theorem alias?_eq_none_iff : a.alias? t = none ↔ t ∉ a.tables.map Table.id := by
  simp [alias?]

theorem alias?_of_prefix (h : a.tables <+: b.tables) (ht : a.alias? t = some name) :
    b.alias? t = some name := by
  obtain ⟨more, hmore⟩ := h
  obtain ⟨i, hi, rfl⟩ := Option.map_eq_some_iff.mp ht
  rw [alias?, ← hmore, List.findIdx?_append, hi]
  rfl

/-- Where no table is there twice, each one is found at its position. -/
theorem alias?_eq_some_iff (h : (a.tables.map Table.id).Nodup) : a.alias? t = some name ↔
    ∃ (i : Nat) (found : Table), a.tables[i]? = some found ∧ found.id = t ∧ name = aliasName i := by
  constructor
  · intro ht
    obtain ⟨i, hi, rfl⟩ := Option.map_eq_some_iff.mp ht
    obtain ⟨hlt, hid, -⟩ := List.findIdx?_eq_some_iff_getElem.mp hi
    exact ⟨i, _, List.getElem?_eq_getElem hlt, beq_iff_eq.mp hid, rfl⟩
  · rintro ⟨i, found, hfound, rfl, rfl⟩
    obtain ⟨hi, hget⟩ := List.getElem?_eq_some_iff.mp hfound
    refine Option.map_eq_some_iff.mpr ⟨i, List.findIdx?_eq_some_iff_getElem.mpr ⟨hi, ?_, ?_⟩, rfl⟩
    · simp [hget]
    · intro j hj hsame
      have hne := (List.nodup_iff_getElem?_ne_getElem?.mp h) j i hj (by simpa using hi)
      rw [List.getElem?_map, List.getElem?_map, hfound,
        List.getElem?_eq_getElem (hj.trans hi)] at hne
      exact hne (congrArg some (beq_iff_eq.mp hsame))

/-- No table is there twice, and none is missing that a node names. -/
structure IsRegistered (a : Arena) : Prop where
  distinct : (a.tables.map Table.id).Nodup
  own : ∀ {id k t}, a.kind? id = some k → k.table? = some t → t.id ∈ a.tables.map Table.id

theorem tables_grow_register (a : Arena) (t : Table) : a.tables <+: (a.register t).tables := by
  unfold register
  split
  · exact List.prefix_rfl
  · exact List.prefix_append _ _

theorem tables_grow_registerAll (a : Arena) (t : Option Table) :
    a.tables <+: (a.registerAll t).tables := by
  cases t with
  | none => exact List.prefix_rfl
  | some t => exact a.tables_grow_register t

theorem mem_ids_register (a : Arena) (t : Table) :
    t.id ∈ (a.register t).tables.map Table.id := by
  unfold register
  split
  next h => exact isSome_alias?_iff.mp h
  next => simp

theorem nodup_register (h : (a.tables.map Table.id).Nodup) (t : Table) :
    ((a.register t).tables.map Table.id).Nodup := by
  unfold register
  split
  next => exact h
  next hnew =>
    rw [isSome_alias?_iff] at hnew
    rw [List.map_append]
    exact List.nodup_append.mpr ⟨h, List.nodup_singleton _, by simpa using hnew⟩

/-- A node that is put behind the others finds its table, if it is registered with it. -/
theorem IsRegistered.push (h : a.IsRegistered) (k : NodeKind) :
    ((a.registerAll k.table?).push k).IsRegistered := by
  constructor
  · cases hk : k.table? with
    | none => exact h.distinct
    | some t => exact nodup_register h.distinct t
  · intro id k' t hid ht
    rw [kind?_push] at hid
    split at hid
    next =>
      cases hid
      rw [ht]
      exact a.mem_ids_register t
    next =>
      rw [kind?_registerAll] at hid
      exact ((a.tables_grow_registerAll k.table?).map Table.id).subset (h.own hid ht)

theorem IsRegistered.of_kinds (h : a.IsRegistered) (htables : b.tables = a.tables)
    (hkinds : ∀ id, b.kind? id = a.kind? id) : b.IsRegistered where
  distinct := htables ▸ h.distinct
  own := by
    intro id k t hid ht
    rw [htables]
    exact h.own (hkinds id ▸ hid) ht

theorem IsRegistered.step (h : a.IsRegistered) (hstep : Step a b) : b.IsRegistered := by
  cases hstep with
  | create _ => exact h.push _
  | addSource t => exact (h.push (.source t)).of_kinds rfl fun id => kind?_graft _ _ id
  | cut id => exact h.of_kinds (tables_cut id) (kind?_cut id)
  | attach _ => exact h.of_kinds ((tables_graft _ _).trans (tables_cut _)) (kind?_move _ _)

theorem Step.tables_grow (hstep : Step a b) : a.tables <+: b.tables := by
  cases hstep with
  | create _ => exact a.tables_grow_registerAll _
  | addSource t => exact a.tables_grow_register t
  | cut id => exact (tables_cut id).symm ▸ List.prefix_rfl
  | @attach _ child _ => exact (tables_cut child).symm ▸ List.prefix_rfl

theorem Leads.tables_grow (h : a.Leads b) : a.tables <+: b.tables := by
  induction h with
  | refl => exact List.prefix_rfl
  | tail _ hstep ih => exact ih.trans hstep.tables_grow

theorem empty_isRegistered : empty.IsRegistered where
  distinct := List.nodup_nil
  own := by
    intro id k t hid ht
    cases id with
    | zero =>
      cases hid
      cases ht
    | succ id => cases hid

theorem run_isRegistered (operations : List Operation) : (empty.run operations).IsRegistered :=
  (empty.leads_run operations).preserves (fun _ _ hstep h => h.step hstep) empty_isRegistered

theorem run_append (operations more : List Operation) :
    a.run (operations ++ more) = (a.run operations).run more := List.foldl_append

namespace IsRegistered

/-- A node introduces its own table, whatever else is registered. -/
theorem introduce_eq_ok (h : a.IsRegistered) {id : NodeId} {k : NodeKind} {t : Table}
    (hid : a.kind? id = some k) (ht : k.table? = some t) :
    ∃ (i : Nat) (found : Table), a.tables[i]? = some found ∧ found.id = t.id ∧
      a.introduce t = .ok [.text t.name, .text (aliasName i)] := by
  obtain ⟨name, hname⟩ := Option.isSome_iff_exists.mp (isSome_alias?_iff.mpr (h.own hid ht))
  obtain ⟨i, found, hfound, hsame, rfl⟩ := (alias?_eq_some_iff h.distinct).mp hname
  exact ⟨i, found, hfound, hsame, by rw [introduce, hname]⟩

/-- A column is named after the table that owns it, and has no name without one. -/
theorem columnReference_eq_ok_iff (h : a.IsRegistered) {c : Column} {text : String} :
    a.columnReference c = .ok text ↔ ∃ (i : Nat) (owner : Table), a.tables[i]? = some owner ∧
      owner.owns c = true ∧ text = aliasName i ++ "." ++ c.name := by
  have halias : a.columnReference c = .ok text ↔
      ∃ name, a.alias? c.table = some name ∧ text = name ++ "." ++ c.name := by
    unfold columnReference
    cases a.alias? c.table <;> simp [eq_comm]
  simp only [halias, alias?_eq_some_iff h.distinct, Table.owns, beq_iff_eq]
  constructor
  · rintro ⟨_, ⟨i, owner, hi, hid, rfl⟩, rfl⟩
    exact ⟨i, owner, hi, hid.symm, rfl⟩
  · rintro ⟨i, owner, hi, hid, rfl⟩
    exact ⟨_, ⟨i, owner, hi, hid.symm, rfl⟩, rfl⟩

end IsRegistered

end Arena

end DeclarativeSql
