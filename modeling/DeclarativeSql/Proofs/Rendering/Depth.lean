import DeclarativeSql.Proofs.Query.Mentions
import DeclarativeSql.Proofs.Rendering.Clauses

/-!
# Subqueries inside subqueries

Writing a source goes on to the sources that it mentions. Where these mentions run in no circle, it
ends before as many sources are inside each other as there are nodes, and no bound on the depth is
ever met. A source on a circle is not written at any depth.
-/
namespace DeclarativeSql

namespace Part

variable {s s' : Surroundings} {ps : List Part}

theorem piecesOf_congr (h : ∀ p ∈ ps, p.pieces s = p.pieces s') :
    piecesOf s ps = piecesOf s' ps := by
  induction ps with
  | nil => rfl
  | cons p ps ih =>
    rw [piecesOf, piecesOf, h p List.mem_cons_self, ih fun q hq => h q (List.mem_cons_of_mem _ hq)]

theorem exists_of_piecesOf_eq_error {e : ConstructionError} (h : piecesOf s ps = .error e) :
    ∃ p ∈ ps, p.pieces s = .error e := by
  induction ps with
  | nil => cases h
  | cons p ps ih =>
    rw [piecesOf] at h
    cases hp : p.pieces s with
    | error e' =>
      rw [hp] at h
      exact ⟨p, List.mem_cons_self, hp.trans h⟩
    | ok qs =>
      rw [hp] at h
      cases hps : piecesOf s ps with
      | error e' =>
        rw [hps] at h
        obtain ⟨q, hq, he⟩ := ih (hps.trans h)
        exact ⟨q, List.mem_cons_of_mem _ hq, he⟩
      | ok rest =>
        rw [hps] at h
        cases h

theorem exists_of_piecesOf_eq_ok {qs : List Piece} (h : piecesOf s ps = .ok qs) {p : Part}
    (hp : p ∈ ps) : ∃ q, p.pieces s = .ok q := by
  induction ps generalizing qs with
  | nil => cases hp
  | cons r ps ih =>
    simp only [piecesOf, bind_eq_ok] at h
    obtain ⟨q, hq, rest, hrest, -⟩ := h
    rcases List.mem_cons.mp hp with rfl | hp
    · exact ⟨q, hq⟩
    · exact ih hrest hp

theorem not_refused_of_piecesOf_eq_ok {qs : List Piece} (h : piecesOf s ps = .ok qs) :
    ¬ Refused ps := by
  rintro ⟨e, he⟩
  obtain ⟨q, hq⟩ := exists_of_piecesOf_eq_ok h he
  cases hq

end Part

namespace Piece

theorem eq_unknownArgument_of_ofCommand {c : Command} {e : ConstructionError}
    (h : ofCommand c = .error e) : ∃ name, e = .unknownArgument name := by
  unfold ofCommand at h
  cases c with
  | delayed b => cases h
  | immediate compiled =>
    simp only at h
    cases hname : compiled.unknownPlaceholder? with
    | none =>
      rw [hname] at h
      cases h
    | some name =>
      rw [hname] at h
      cases h
      exact ⟨name, rfl⟩

end Piece

namespace Arena

variable {a : Arena}

/-- Both sources are below the owner, and the first mentions the second. -/
def Uses (a : Arena) (f g : NodeId) : Prop :=
  a.ownerOf f = .ok ownerId ∧ a.ownerOf g = .ok ownerId ∧ a.Mentions f g

theorem ownerOf_cases (a : Arena) (id : NodeId) :
    a.ownerOf id = .ok ownerId ∨ a.ownerOf id = .error (.detachedNode id) := by
  unfold ownerOf
  split
  · exact .inl rfl
  · exact .inr rfl

theorem subquery_of_owned (depth : Nat) {id : NodeId} (h : a.ownerOf id = .ok ownerId) :
    (a.surroundings depth).context.subquery id = a.selectPieces depth id := by
  simp only [surroundings, h]
  rfl

theorem subquery_of_detached (depth : Nat) {id : NodeId}
    (h : a.ownerOf id = .error (.detachedNode id)) :
    (a.surroundings depth).context.subquery id = .error (.detachedNode id) := by
  simp only [surroundings, h]
  rfl

theorem sourceParts_of_not_source {f : NodeId} (h : ∀ t, a.kind? f ≠ some (.source t)) :
    ∃ e, a.sourceParts f = [.refusal e] := by
  unfold sourceParts
  cases hn : a.node? f with
  | none => exact ⟨_, rfl⟩
  | some n =>
    rw [kind?_of_node? hn] at h
    cases hk : n.kind with
    | source t => exact absurd (congrArg some hk) (h t)
    | _ => simp only [hk]; exact ⟨_, rfl⟩

theorem IsForest.mentions_of_mem_sourceParts (h : a.IsForest) {f g : NodeId}
    (hg : .subquery g ∈ a.sourceParts f) : a.Mentions f g := by
  have hsource : ∃ t, a.kind? f = some (.source t) := by
    by_contra hnone
    obtain ⟨e, he⟩ := sourceParts_of_not_source (not_exists.mp hnone)
    rw [he] at hg
    cases List.mem_singleton.mp hg
  obtain ⟨t, ht⟩ := hsource
  rcases comeFrom_sourceParts f _ hg with hleaf | hwording
  · obtain ⟨k, hk, hleaf⟩ := List.mem_flatMap.mp hleaf
    obtain ⟨id, hid, hkind⟩ := mem_kinds_iff.mp hk
    have hsub := (k.subquery_mem_leaves_iff g).mp hleaf
    rcases List.mem_cons.mp hid with rfl | hid
    · rw [ht, Option.some.injEq] at hkind
      subst hkind
      cases hsub
    · exact ⟨t, id, k, ht, h.mem_childrenOf_iff.mp hid, hkind, hsub⟩
  · cases hwording

theorem IsForest.mem_sourceParts_of_mentions (h : a.IsForest) {f g : NodeId}
    (hg : a.Mentions f g) :
    .subquery g ∈ a.sourceParts f ∨ Part.Refused (a.sourceParts f) := by
  obtain ⟨t, c, k, hf, hc, hk, hg⟩ := hg
  refine h.show_sourceParts hf _
    (List.mem_flatMap.mpr ⟨k, ?_, (k.subquery_mem_leaves_iff g).mpr hg⟩)
  exact mem_kinds_iff.mpr ⟨c, h.mem_childrenOf_iff.mpr hc, hk⟩

/-- Only a subquery can be too deep. -/
theorem eq_subquery_of_endless {depth : Nat} {p : Part} {e : ConstructionError}
    (hp : p.IsLeaf ∨ p.IsWording) (herror : p.pieces (a.surroundings depth) = .error e)
    (he : e.isEndlessSubquery = true) :
    ∃ g, p = .subquery g ∧ a.ownerOf g = .ok ownerId ∧ a.selectPieces depth g = .error e := by
  have hplain : ∀ {e'}, e'.isEndlessSubquery = false → e ≠ e' := by
    rintro _ he' rfl
    exact absurd (he.symm.trans he') (by decide)
  cases p with
  | text token => cases herror
  | source p => cases herror
  | code id => cases herror
  | column c =>
    simp only [Part.pieces, surroundings, columnReference] at herror
    split at herror <;> cases herror
    cases he
  | table t =>
    simp only [Part.pieces, surroundings, introduce] at herror
    split at herror <;> cases herror
    cases he
  | command c =>
    rw [Part.pieces] at herror
    cases hc : Piece.ofCommand c with
    | ok piece => rw [hc] at herror; cases herror
    | error e' =>
      rw [hc] at herror
      cases herror
      obtain ⟨_, rfl⟩ := Piece.eq_unknownArgument_of_ofCommand hc
      exact absurd rfl (hplain rfl)
  | refusal e' =>
    cases herror
    exact absurd rfl (hplain (hp.resolve_left id))
  | subquery g =>
    rw [Part.pieces] at herror
    rcases a.ownerOf_cases g with howner | hdetached
    · rw [subquery_of_owned depth howner] at herror
      exact ⟨g, rfl, howner, herror⟩
    · rw [subquery_of_detached depth hdetached] at herror
      cases herror
      cases he

theorem isLeaf_or_isWording_of_mem_sourceParts {id : NodeId} {p : Part}
    (hp : p ∈ a.sourceParts id) : p.IsLeaf ∨ p.IsWording :=
  (comeFrom_sourceParts_leaves id p hp).imp_left isLeaf_of_mem_leaves

/-- Where no mentions run in a circle, a depth of the number of nodes is never met. -/
theorem IsForest.selectPieces_of_acyclic (h : a.IsForest)
    (hacyclic : ∀ id, ¬ Relation.TransGen a.Uses id id) {depth : Nat} {id : NodeId}
    {s : Finset NodeId} (hs : ∀ g, Relation.ReflTransGen a.Uses id g → g ∈ s)
    (hcard : s.card ≤ depth) (hid : a.ownerOf id = .ok ownerId) :
    a.selectPieces (depth + 1) id = a.selectPieces depth id ∧
      ∀ e, a.selectPieces depth id = .error e → e.isEndlessSubquery = false := by
  induction depth generalizing id s with
  | zero =>
    have hempty : s = ∅ := Finset.card_eq_zero.mp (Nat.le_zero.mp hcard)
    have hmem := hs id .refl
    rw [hempty] at hmem
    exact absurd hmem (Finset.notMem_empty id)
  | succ depth ih =>
    -- every step down leaves one source less to meet
    have hbelow : ∀ g, .subquery g ∈ a.sourceParts id → a.ownerOf g = .ok ownerId →
        a.selectPieces (depth + 1) g = a.selectPieces depth g ∧
          ∀ e, a.selectPieces depth g = .error e → e.isEndlessSubquery = false := by
      intro g hg howner
      have huses : a.Uses id g := ⟨hid, howner, h.mentions_of_mem_sourceParts hg⟩
      apply ih (s := s.erase id) ?_ ?_ howner
      · intro x hreach
        refine Finset.mem_erase.mpr ⟨?_, hs x (.head huses hreach)⟩
        rintro rfl
        exact hacyclic _ (.head' huses hreach)
      · rw [Finset.card_erase_of_mem (hs id .refl)]
        omega
    rw [selectPieces_succ, selectPieces_succ]
    constructor
    · refine Part.piecesOf_congr fun p hp => ?_
      cases p with
      | subquery g =>
        simp only [Part.pieces]
        rcases a.ownerOf_cases g with howner | hdetached
        · rw [subquery_of_owned _ howner, subquery_of_owned _ howner, (hbelow g hp howner).1]
        · rw [subquery_of_detached _ hdetached, subquery_of_detached _ hdetached]
      | _ => rfl
    · intro e herror
      obtain ⟨p, hp, hpe⟩ := Part.exists_of_piecesOf_eq_error herror
      by_contra he
      obtain ⟨g, rfl, howner, hg⟩ := eq_subquery_of_endless
        (isLeaf_or_isWording_of_mem_sourceParts hp) hpe (Bool.not_eq_false _ ▸ he)
      exact he ((hbelow g hp howner).2 e hg)

theorem IsForest.lt_size_of_owned (h : a.IsForest) {id : NodeId}
    (hid : a.ownerOf id = .ok ownerId) : id < a.size := by
  rcases Relation.ReflTransGen.cases_tail (h.ownerOf_eq_ok_iff.mp hid) with rfl | ⟨p, -, hp⟩
  · exact lt_size_of_kind? h.owner
  · exact lt_size_of_parent? (h.mem_childrenOf_iff.mp hp)

theorem IsForest.mem_range_of_reach (h : a.IsForest) {id g : NodeId}
    (hid : a.ownerOf id = .ok ownerId) (hreach : Relation.ReflTransGen a.Uses id g) :
    g ∈ Finset.range a.size := by
  rw [Finset.mem_range]
  cases hreach with
  | refl => exact h.lt_size_of_owned hid
  | tail _ huses => exact h.lt_size_of_owned huses.2.1

/-- Where no mentions run in a circle, the text of a source does not depend on a bound. -/
theorem IsForest.selectPieces_eq_queryPieces (h : a.IsForest)
    (hacyclic : ∀ id, ¬ Relation.TransGen a.Uses id id) {depth : Nat} {id : NodeId}
    (hdepth : a.size ≤ depth) (hid : a.ownerOf id = .ok ownerId) :
    a.selectPieces depth id = a.queryPieces id ∧
      ∀ e, a.selectPieces depth id = .error e → e.isEndlessSubquery = false := by
  have hstep : ∀ n, a.size ≤ n → a.selectPieces (n + 1) id = a.selectPieces n id ∧
      ∀ e, a.selectPieces n id = .error e → e.isEndlessSubquery = false := by
    intro n hn
    apply h.selectPieces_of_acyclic hacyclic (s := Finset.range a.size) ?_ ?_ hid
    · exact fun g hreach => h.mem_range_of_reach hid hreach
    · rwa [Finset.card_range]
  have hsame : ∀ n, a.size ≤ n → a.selectPieces n id = a.selectPieces a.size id := by
    intro n hn
    induction n, hn using Nat.le_induction with
    | base => rfl
    | succ n hn ih => rw [(hstep n hn).1, ih]
  refine ⟨?_, (hstep depth hdepth).2⟩
  rw [hsame depth hdepth, queryPieces, hsame _ (Nat.le_succ _)]

theorem size_le_statementDepth (id : NodeId) : a.size ≤ a.statementDepth id := by
  unfold statementDepth
  split
  · exact le_rfl
  · split
    next child _ _ _ =>
      cases a.node? child with
      | none => exact le_rfl
      | some source =>
        rw [Option.elim_some, insertDepth]
        split
        · exact Nat.le_succ _
        · exact le_rfl
    next => exact le_rfl

theorem eq_unknownArgument_of_rename {given : List Parameter} {b b' : CodeBuffer}
    {parts : List TextPart} {e : ConstructionError} (h : b.rename given parts = (.error e, b')) :
    ∃ name, e = .unknownArgument name := by
  induction parts generalizing b with
  | nil => cases h
  | cons part rest ih =>
    cases part with
    | plain c =>
      rw [CodeBuffer.rename] at h
      rcases hrest : b.rename given rest with ⟨e' | text, b''⟩
      · rw [hrest] at h
        cases h
        exact ih hrest
      · rw [hrest] at h
        cases h
    | placeholder digits =>
      simp only [CodeBuffer.rename] at h
      split at h
      · cases h
        exact ⟨_, rfl⟩
      · rename_i p _
        rcases hrest : (b.register p.source).2.rename given rest with ⟨e' | text, b''⟩
        · rw [hrest] at h
          cases h
          exact ih hrest
        · rw [hrest] at h
          cases h

theorem eq_unknownArgument_of_write {p : Piece} {b b' : CodeBuffer} {e : ConstructionError}
    (h : p.write b = (.error e, b')) : ∃ name, e = .unknownArgument name := by
  cases p with
  | command c =>
    cases c with
    | immediate compiled =>
      rw [Piece.write, CodeBuffer.appendCompiled] at h
      split at h
      · cases h
      next hrename =>
        cases h
        exact eq_unknownArgument_of_rename hrename
    | delayed => cases h
  | _ => cases h

theorem eq_unknownArgument_of_writeAll {ps : List Piece} {b b' : CodeBuffer}
    {e : ConstructionError} (h : Piece.writeAll ps b = (.error e, b')) :
    ∃ name, e = .unknownArgument name := by
  induction ps generalizing b with
  | nil => cases h
  | cons p ps ih =>
    rw [Piece.writeAll] at h
    split at h
    next hwrite =>
      cases h
      exact eq_unknownArgument_of_write hwrite
    next => exact ih h

theorem eq_unknownArgument_of_buffer {ps : List Piece} {e : ConstructionError}
    (h : Piece.buffer ps = .error e) : ∃ name, e = .unknownArgument name := by
  unfold Piece.buffer at h
  split at h
  next hwrite =>
    cases h
    exact eq_unknownArgument_of_writeAll hwrite
  next => cases h

theorem IsForest.isEndlessSubquery_of_pieces (h : a.IsForest)
    (hacyclic : ∀ id, ¬ Relation.TransGen a.Uses id id) {id : NodeId} {e : ConstructionError}
    (herror : a.pieces id = .error e) : e.isEndlessSubquery = false := by
  rw [pieces_eq] at herror
  obtain ⟨p, hp, hpe⟩ := Part.exists_of_piecesOf_eq_error herror
  by_contra he
  obtain ⟨g, rfl, howner, hg⟩ := eq_subquery_of_endless
    ((comeFrom_statementParts id p hp).imp_left isLeaf_of_mem_leaves) hpe
    (Bool.not_eq_false _ ▸ he)
  exact he ((h.selectPieces_eq_queryPieces hacyclic (size_le_statementDepth id) howner).2 e hg)

theorem pieces_of_build_eq_error {id : NodeId} {e : ConstructionError}
    (h : a.build id = .error e) : a.pieces id = .error e ∨ ∃ name, e = .unknownArgument name := by
  rw [build] at h
  cases hps : a.pieces id with
  | error e' =>
    rw [hps] at h
    cases h
    exact .inl rfl
  | ok ps =>
    rw [hps] at h
    cases hb : Piece.buffer (ps ++ [Piece.text ";"]) with
    | error e' =>
      simp only [bind, Except.bind, hb] at h
      cases h
      exact .inr (eq_unknownArgument_of_buffer hb)
    | ok b =>
      simp only [bind, Except.bind, hb] at h
      cases h

/-- Where no mentions run in a circle, building ends. -/
theorem IsForest.isEndlessSubquery_of_build (h : a.IsForest)
    (hacyclic : ∀ id, ¬ Relation.TransGen a.Uses id id) {id : NodeId} {e : ConstructionError}
    (herror : a.build id = .error e) : e.isEndlessSubquery = false := by
  rcases pieces_of_build_eq_error herror with hpieces | ⟨_, rfl⟩
  · exact h.isEndlessSubquery_of_pieces hacyclic hpieces
  · rfl

theorem IsForest.selectPieces_ne_ok (h : a.IsForest) {id : NodeId}
    (hcircle : Relation.TransGen a.Uses id id) (depth : Nat) (ps : List Piece) :
    a.selectPieces depth id ≠ .ok ps := by
  induction depth generalizing id ps with
  | zero => exact fun hok => by cases hok
  | succ depth ih =>
    intro hok
    rw [selectPieces_succ] at hok
    obtain ⟨g, huses, hback⟩ := Relation.TransGen.head'_iff.mp hcircle
    have hg : .subquery g ∈ a.sourceParts id :=
      (h.mem_sourceParts_of_mentions huses.2.2).resolve_right
        (Part.not_refused_of_piecesOf_eq_ok hok)
    obtain ⟨qs, hqs⟩ := Part.exists_of_piecesOf_eq_ok hok hg
    rw [Part.pieces, subquery_of_owned depth huses.2.1] at hqs
    exact ih (.tail' hback huses) qs hqs

theorem IsLoopFree.not_uses_circle (h : a.IsLoopFree) (id : NodeId) :
    ¬ Relation.TransGen a.Uses id id :=
  fun hcircle => h id (Relation.TransGen.mono (fun _ _ huses => huses.2.2) _ _ hcircle)

/-- A run stays free of loops exactly as long as no operation closes one. As long as no mentions
below the owner run in a circle, each query and each statement is written to its end, whatever the
bound on the depth. A source on a circle is never written. -/
theorem run_writes_unless_circle (operations : List Operation) :
    ((∀ earlier, earlier <+: operations → (empty.run earlier).IsLoopFree) ↔
        ∀ earlier op, earlier ++ [op] <+: operations → ¬ (empty.run earlier).ClosesLoop op) ∧
      ((empty.run operations).IsLoopFree →
        ∀ id, ¬ Relation.TransGen (empty.run operations).Uses id id) ∧
      ((∀ id, ¬ Relation.TransGen (empty.run operations).Uses id id) → ∀ id g,
        (empty.run operations).build id ≠ .error (.endlessSubquery g) ∧
          (empty.run operations).subqueryPieces id ≠ .error (.endlessSubquery g) ∧
          ((empty.run operations).ownerOf id = .ok ownerId →
            ∀ depth, (empty.run operations).size ≤ depth →
              (empty.run operations).selectPieces depth id =
                (empty.run operations).subqueryPieces id)) ∧
      ∀ id, Relation.TransGen (empty.run operations).Uses id id → ∀ depth ps,
        (empty.run operations).selectPieces depth id ≠ .ok ps := by
  have h : (empty.run operations).IsForest := empty_isForest.run operations
  refine ⟨run_isLoopFree_iff operations, IsLoopFree.not_uses_circle, ?_,
    fun _ => h.selectPieces_ne_ok⟩
  intro hacyclic id g
  have hquery : ∀ {id}, (empty.run operations).ownerOf id = .ok ownerId →
      (empty.run operations).subqueryPieces id = (empty.run operations).queryPieces id := by
    intro id hid
    rw [subqueryPieces, hid]
    rfl
  refine ⟨?_, ?_, ?_⟩
  · intro herror
    cases h.isEndlessSubquery_of_build hacyclic herror
  · intro herror
    rcases (empty.run operations).ownerOf_cases id with hid | hid
    · rw [hquery hid] at herror
      cases (h.selectPieces_eq_queryPieces hacyclic (Nat.le_succ _) hid).2 _ herror
    · rw [subqueryPieces, hid] at herror
      cases herror
  · intro hid depth hdepth
    rw [hquery hid]
    exact (h.selectPieces_eq_queryPieces hacyclic hdepth hid).1

namespace Users

/-- Two sources, each of which ends up filtered by the other. -/
def mutualFilters : List Operation :=
  [.source table, .source table, .filter 1 (isNotEmpty 2), .attach ownerId 2,
    .filter 2 (isNotEmpty 1)]

def filteredParts (other : NodeId) : List Part :=
  [.text "SELECT * FROM", .table table, .text "WHERE", .text "EXISTS", .text "(", .subquery other,
    .text ")"]

theorem piecesOf_filteredParts {s : Surroundings} {other : NodeId} {ps : List Piece}
    {e : ConstructionError} (htable : s.introduce table = .ok ps)
    (hother : s.context.subquery other = .error e) :
    Part.piecesOf s (filteredParts other) = .error e := by
  simp [filteredParts, Part.piecesOf, Part.pieces, htable, hother, bind, Except.bind]

/-- A source that was moved away from the filter that mentions it can be filtered by the source of
that filter. All operations are accepted, and then no depth is enough. -/
theorem mutualFilters_never_end :
    ((empty.run (mutualFilters.take 4)).apply (.filter 2 (isNotEmpty 1))).1 = .ok (some 4) ∧
      Relation.TransGen (empty.run mutualFilters).Uses 1 1 ∧
      (∀ depth, ∃ g, (empty.run mutualFilters).selectPieces depth 1 =
        .error (.endlessSubquery g)) ∧
      ∃ g, (empty.run mutualFilters).build 1 = .error (.endlessSubquery g) := by
  have hfirst : (empty.run mutualFilters).Uses 1 2 :=
    ⟨rfl, rfl, table, 3, .filter (isNotEmpty 2), rfl, rfl, rfl, by decide⟩
  have hsecond : (empty.run mutualFilters).Uses 2 1 :=
    ⟨rfl, rfl, table, 4, .filter (isNotEmpty 1), rfl, rfl, rfl, by decide⟩
  have hends : ∀ depth, (∃ g, (empty.run mutualFilters).selectPieces depth 1 =
        .error (.endlessSubquery g)) ∧
      ∃ g, (empty.run mutualFilters).selectPieces depth 2 = .error (.endlessSubquery g) := by
    intro depth
    induction depth with
    | zero => exact ⟨⟨1, rfl⟩, ⟨2, rfl⟩⟩
    | succ depth ih =>
      obtain ⟨⟨g, hg⟩, ⟨g', hg'⟩⟩ := ih
      constructor
      · refine ⟨g', ?_⟩
        rw [selectPieces_succ]
        exact piecesOf_filteredParts rfl ((subquery_of_owned depth rfl).trans hg')
      · refine ⟨g, ?_⟩
        rw [selectPieces_succ]
        exact piecesOf_filteredParts rfl ((subquery_of_owned depth rfl).trans hg)
  refine ⟨rfl, .tail (.single hfirst) hsecond, fun depth => (hends depth).1, ?_⟩
  obtain ⟨g, hg⟩ := (hends ((empty.run mutualFilters).size + 1)).1
  refine ⟨g, ?_⟩
  have hpieces : (empty.run mutualFilters).pieces 1 = .error (.endlessSubquery g) := hg
  rw [build, hpieces]
  rfl

end Users

end Arena

end DeclarativeSql
