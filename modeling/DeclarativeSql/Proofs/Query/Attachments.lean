import DeclarativeSql.Proofs.Query.Runs

/-!
# Attachments in a row

Where nodes are after some of them have been attached, each one once. Only the children of the
parents that were named have changed: those that moved away are missing, and those that came are at
the end, in the order in which they came.
-/
namespace DeclarativeSql

namespace Arena

/-- Each operation is accepted when its turn comes. -/
def Accepts : Arena → List Operation → Prop
  | _, [] => True
  | a, op :: rest => (∃ made, (a.apply op).1 = .ok made) ∧ (a.apply op).2.Accepts rest

/-- Operations that attach the second node of each pair below the first. -/
def attachments (pairs : List (NodeId × NodeId)) : List Operation :=
  pairs.map fun p => .attach p.1 p.2

variable {a b : Arena} {pairs : List (NodeId × NodeId)} {parent child : NodeId}

theorem apply_attach_of_ok {made : Option NodeId}
    (h : (a.apply (.attach parent child)).1 = .ok made) : a.checkAttach parent child = .ok () ∧
      (a.apply (.attach parent child)).2 = (a.cut child).graft parent child := by
  simp only [apply, attach] at h ⊢
  rcases hcheck : a.checkAttach parent child with e | ⟨⟩
  · rw [hcheck] at h
    cases h
  · exact ⟨rfl, rfl⟩

theorem IsForest.childrenOf_cut_eq_filter (h : a.IsForest) (child id : NodeId) :
    (a.cut child).childrenOf id = (a.childrenOf id).filter (· ≠ child) := by
  have hkeep : a.parent? child ≠ some id →
      (a.childrenOf id).filter (· ≠ child) = a.childrenOf id := by
    intro hid
    rw [List.filter_eq_self]
    rintro c hc
    have hne : c ≠ child := by
      rintro rfl
      exact hid (h.mem_childrenOf_iff.mp hc)
    simpa using hne
  cases hp : a.parent? child with
  | none => rw [cut_of_parent?_eq_none hp, hkeep (by simp [hp])]
  | some p =>
    rw [childrenOf_cut hp (h.lt_size_of_parent hp)]
    split
    next => rfl
    next hid => rw [hkeep (by simpa [hp] using Ne.symm hid)]

/-- What attaching each child below its parent makes of the trees. -/
structure Attached (a b : Arena) (pairs : List (NodeId × NodeId)) : Prop where
  isForest : b.IsForest
  tables : b.tables = a.tables
  size : b.size = a.size
  kinds : ∀ id, b.kind? id = a.kind? id
  moved : ∀ p ∈ pairs, b.parent? p.2 = some p.1
  others : ∀ id, id ∉ pairs.map Prod.snd → b.parent? id = a.parent? id
  children : ∀ id, b.childrenOf id = (a.childrenOf id).filter (· ∉ pairs.map Prod.snd) ++
    (pairs.filter (·.1 = id)).map Prod.snd

theorem Attached.cons (h : a.IsForest) (hcheck : a.checkAttach parent child = .ok ())
    (hnew : child ∉ pairs.map Prod.snd)
    (hrest : Attached ((a.cut child).graft parent child) b pairs) :
    Attached a b ((parent, child) :: pairs) := by
  obtain ⟨kp, kc, hmay⟩ := h.mayHang_of_checkAttach hcheck
  have hchild : child < a.size := by
    rw [← size_cut child]
    exact lt_size_of_kind? hmay.childKind
  have hparents := parent?_move hchild parent
  have hparent : parent < (a.cut child).size := lt_size_of_kind? hmay.parentKind
  exact {
    isForest := hrest.isForest
    tables := by rw [hrest.tables, tables_graft, tables_cut]
    size := by rw [hrest.size, size_graft, size_cut]
    kinds := by
      intro id
      rw [hrest.kinds, kind?_move]
    moved := by
      rintro p hp
      rcases List.mem_cons.mp hp with rfl | hp
      · rw [hrest.others child hnew, hparents, if_pos rfl]
      · exact hrest.moved p hp
    others := by
      intro id hid
      obtain ⟨hne, hid⟩ := not_or.mp (mt List.mem_cons.mpr hid)
      rw [hrest.others id hid, hparents, if_neg hne]
    children := by
      intro id
      have hgone : ((a.childrenOf id).filter (· ≠ child)).filter (· ∉ pairs.map Prod.snd) =
          (a.childrenOf id).filter (· ∉ ((parent, child) :: pairs).map Prod.snd) := by
        rw [List.filter_filter]
        refine List.filter_congr fun c _ => ?_
        rw [Bool.eq_iff_iff]
        simp [and_comm]
      have hlast : [child].filter (· ∉ pairs.map Prod.snd) = [child] :=
        List.filter_cons_of_pos (decide_eq_true hnew)
      have hcame : (((parent, child) :: pairs).filter (·.1 = id)).map Prod.snd =
          (if id = parent then [child] else []) ++ (pairs.filter (·.1 = id)).map Prod.snd := by
        by_cases hid : parent = id
        · simp [hid]
        · simp [hid, Ne.symm hid]
      rw [hrest.children, childrenOf_graft hparent, h.childrenOf_cut_eq_filter, ← hgone, hcame]
      split
      · rw [List.filter_append, hlast, List.append_assoc]
      · rw [List.nil_append] }

theorem IsForest.attached_run (h : a.IsForest) (honce : (pairs.map Prod.snd).Nodup)
    (haccepts : a.Accepts (attachments pairs)) : Attached a (a.run (attachments pairs)) pairs := by
  induction pairs generalizing a with
  | nil =>
    exact {
      isForest := h
      tables := rfl
      size := rfl
      kinds := fun _ => rfl
      moved := by simp
      others := fun _ _ => rfl
      children := by simp [attachments, Arena.run] }
  | cons p pairs ih =>
    obtain ⟨hnew, honce⟩ := List.nodup_cons.mp honce
    obtain ⟨⟨made, hmade⟩, haccepts⟩ := haccepts
    obtain ⟨hcheck, happly⟩ := apply_attach_of_ok hmade
    rw [happly] at haccepts
    have hrest := ih (h.step (.attach hcheck)) honce haccepts
    have hrun : a.run (attachments (p :: pairs)) =
        ((a.cut p.2).graft p.1 p.2).run (attachments pairs) :=
      congrArg (fun next => Arena.run next (attachments pairs)) happly
    rw [hrun]
    exact hrest.cons h hcheck hnew

end Arena

end DeclarativeSql
