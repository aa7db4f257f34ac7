import DeclarativeSql.Proofs.Parameters.History
import DeclarativeSql.Proofs.Rendering.ValueCounts

/-!
# What a statement shows

The leaves that a statement is written from: its own, those of its clauses and of the queries that
it mentions, and of the query that an insert takes its values from. Other nodes of the tree do not
matter. What is written stands for these leaves, and no source, command or code among them is left
out.
-/
namespace DeclarativeSql

namespace Part

/-- What stands for something that is not written by its name. -/
def IsReference : Part → Prop
  | source _ | command _ | code _ | subquery _ => True
  | _ => False

/-- The piece is part of what is written for the part, unless this is a query of its own. -/
inductive Yields (a : Arena) : Part → Piece → Prop
  | text (token : String) : Yields a (.text token) (.text token)
  | source (s : ParameterSource) : Yields a (.source s) (.source s)
  | column {c : Column} {name : String} (h : a.alias? c.table = some name) :
      Yields a (.column c) (.text (name ++ "." ++ c.name))
  | table (t : Table) : Yields a (.table t) (.text t.name)
  | shortName {t : Table} {name : String} (h : a.alias? t.id = some name) :
      Yields a (.table t) (.text name)
  | command (c : Command) : Yields a (.command c) (.command c)
  | code (id : CodeId) : Yields a (.code id) (.code id)

theorem mem_piecesOf_iff {s : Surroundings} {ps : List Part} {qs : List Piece}
    (h : piecesOf s ps = .ok qs) {q : Piece} :
    q ∈ qs ↔ ∃ p ∈ ps, ∃ rs, p.pieces s = .ok rs ∧ q ∈ rs := by
  induction ps generalizing qs with
  | nil =>
    cases h
    simp
  | cons p ps ih =>
    simp only [piecesOf, bind_eq_ok, pure_eq_ok] at h
    obtain ⟨first, hfirst, rest, hrest, rfl⟩ := h
    simp [ih hrest, hfirst]

theorem yields_of_mem {a : Arena} {depth : Nat} {p : Part} {qs : List Piece}
    (h : p.pieces (a.surroundings depth) = .ok qs) {q : Piece} (hq : q ∈ qs) :
    p.Yields a q ∨ ∃ g, p = .subquery g ∧ a.selectPieces depth g = .ok qs := by
  cases p with
  | text token =>
    cases h
    rw [List.mem_singleton.mp hq]
    exact .inl (.text token)
  | source s =>
    cases h
    rw [List.mem_singleton.mp hq]
    exact .inl (.source s)
  | code id =>
    cases h
    rw [List.mem_singleton.mp hq]
    exact .inl (.code id)
  | refusal e => cases h
  | column c =>
    simp only [pieces, bind_eq_ok, pure_eq_ok, Arena.surroundings, Arena.columnReference] at h
    obtain ⟨name, hname, rfl⟩ := h
    split at hname
    next halias =>
      cases hname
      rw [List.mem_singleton.mp hq]
      exact .inl (.column halias)
    next => cases hname
  | table t =>
    simp only [pieces, Arena.surroundings, Arena.introduce] at h
    split at h
    next halias =>
      cases h
      simp only [List.mem_cons, List.not_mem_nil, or_false] at hq
      rcases hq with rfl | rfl
      · exact .inl (.table t)
      · exact .inl (.shortName halias)
    next => cases h
  | command c =>
    simp only [pieces, bind_eq_ok, pure_eq_ok] at h
    obtain ⟨r, hr, rfl⟩ := h
    rw [List.mem_singleton.mp hq, Piece.eq_command_of_ofCommand hr]
    exact .inl (.command c)
  | subquery g =>
    simp only [pieces, Arena.surroundings, bind_eq_ok] at h
    obtain ⟨_, -, h⟩ := h
    exact .inr ⟨g, rfl, h⟩

end Part

theorem Query.show_insertValuesParts (target : InsertTarget) (items : List Expr) :
    Part.Show (Expr.leavesOf items ++ Expr.leavesOf target.guard.toList)
      (Query.insertValuesParts target items) := by
  have hguard : Part.Show (Expr.leavesOf target.guard.toList)
      (Query.insertGuardParts target target.guard) := by
    cases target.guard with
    | none => exact .nil
    | some condition =>
      rw [Option.toList_some, Expr.leavesOf, Expr.leavesOf, List.append_nil]
      exact condition.show_parts.mono fun p hp => by simp [Query.insertGuardParts, hp]
  exact ((Query.show_exprsParts items).mono (List.subset_cons_self _ _)).append hguard

namespace Arena

/-- The statement or query at the node is written from the part. -/
inductive Shows (a : Arena) : NodeId → Part → Prop
  /-- A leaf of the node itself, or of a clause or a list of values below it. -/
  | leaf {f c : NodeId} {k : NodeKind} {p : Part} (hc : c = f ∨ a.HangsBelow c f)
    (hk : a.kind? c = some k) (hp : p ∈ k.leaves) : Shows a f p
  /-- A part of a query that is mentioned. -/
  | subquery {f g : NodeId} {p : Part} (hg : Shows a f (.subquery g)) (hp : Shows a g p) :
      Shows a f p
  /-- A part of the query that an insert takes its values from. -/
  | inserted {id f : NodeId} {target : InsertTarget} {table : Table} {p : Part}
    (hid : a.kind? id = some (.insert target)) (hf : a.HangsBelow f id)
    (hsource : a.kind? f = some (.source table)) (hp : Shows a f p) : Shows a id p

variable {a : Arena} {id f : NodeId} {target : InsertTarget} {depth : Nat} {ps : List Part}
  {qs : List Piece} {q : Piece}

theorem mem_leaves_of_shows {p : Part} (h : a.Shows f p) : p ∈ a.leaves := by
  induction h with
  | leaf _ hk hp => exact leaves_subset hk hp
  | subquery _ _ _ ih => exact ih
  | inserted _ _ _ _ ih => exact ih

/-- Some part of the statement, or some wording, yields the piece. -/
def Explains (a : Arena) (f : NodeId) (q : Piece) : Prop :=
  ∃ p, (a.Shows f p ∨ p.IsWording) ∧ p.Yields a q

theorem explains_of_mem_piecesOf
    (hbelow : ∀ g rs, a.selectPieces depth g = .ok rs → ∀ q ∈ rs, a.Explains g q)
    (hparts : ∀ p ∈ ps, a.Shows f p ∨ p.IsWording)
    (h : Part.piecesOf (a.surroundings depth) ps = .ok qs) (hq : q ∈ qs) : a.Explains f q := by
  obtain ⟨p, hp, rs, hrs, hmem⟩ := (Part.mem_piecesOf_iff h).mp hq
  have hshown := hparts p hp
  rcases Part.yields_of_mem hrs hmem with hyields | ⟨g, rfl, hg⟩
  · exact ⟨p, hshown, hyields⟩
  · obtain ⟨p', hp', hyields⟩ := hbelow g rs hg q hmem
    exact ⟨p', hp'.imp_left (.subquery (hshown.resolve_right id)), hyields⟩

theorem IsForest.shows_of_mem_sourceParts (h : a.IsForest) {p : Part}
    (hp : p ∈ a.sourceParts f) : a.Shows f p ∨ p.IsWording := by
  refine (comeFrom_sourceParts f p hp).imp_left fun hleaf => ?_
  obtain ⟨k, hk, hleaf⟩ := List.mem_flatMap.mp hleaf
  obtain ⟨c, hc, hkind⟩ := mem_kinds_iff.mp hk
  exact .leaf ((List.mem_cons.mp hc).imp_right h.mem_childrenOf_iff.mp) hkind hleaf

theorem IsForest.explains_of_mem_selectPieces (h : a.IsForest)
    (hqs : a.selectPieces depth f = .ok qs) (hq : q ∈ qs) : a.Explains f q := by
  induction depth generalizing f qs q with
  | zero => cases hqs
  | succ depth ih =>
    rw [selectPieces_succ] at hqs
    exact explains_of_mem_piecesOf (fun g rs hrs q hq => ih hrs hq)
      (fun p hp => h.shows_of_mem_sourceParts hp) hqs hq

theorem pieces_cases (h : a.pieces id = .ok qs) :
    a.queryPieces id = .ok qs ∨ ∃ target, a.kind? id = some (.insert target) := by
  simp only [pieces, bind_eq_ok] at h
  obtain ⟨_, -, n, hn, h⟩ := h
  have hkind := kind?_of_node? (node_eq_ok_iff.mp hn)
  cases hk : n.kind with
  | source t =>
    rw [hk] at h
    exact .inl h
  | insert target => exact .inr ⟨target, hkind.trans (congrArg some hk)⟩
  | _ =>
    rw [hk] at h
    cases h

/-- Where a part of a statement comes from. Below an insert there is nothing but a source and lists
of values. -/
inductive StatementPart (a : Arena) (id : NodeId) : Part → Prop
  | expression (what : String) : StatementPart a id (.refusal (.unsupportedExpression what))
  | detached (n : NodeId) : StatementPart a id (.refusal (.detachedNode n))
  | count (table : String) (columns values : Nat) :
    StatementPart a id (.refusal (.valueCountMismatch table columns values))
  | query {p : Part} (hp : p ∈ a.sourceParts id) : StatementPart a id p
  | head {target : InsertTarget} {p : Part} (hid : a.kind? id = some (.insert target))
    (hp : p ∈ Query.insertHeadParts target) : StatementPart a id p
  | values {target : InsertTarget} {child : NodeId} {items : List Expr} {p : Part}
    (hid : a.kind? id = some (.insert target)) (hchild : a.HangsBelow child id)
    (hitems : a.kind? child = some (.values items))
    (hp : p ∈ Query.insertValuesParts target items) : StatementPart a id p
  | inserted {target : InsertTarget} {child : NodeId} {table : Table} {p : Part}
    (hid : a.kind? id = some (.insert target)) (hchild : a.HangsBelow child id)
    (hsource : a.kind? child = some (.source table)) (hp : p ∈ a.sourceParts child) :
    StatementPart a id p

theorem IsForest.statementPart_of_mem_insertSourceParts (h : a.IsForest) {child : NodeId}
    {source : Node} (hid : a.kind? id = some (.insert target)) (hchild : a.HangsBelow child id)
    (hsource : a.node? child = some source) {p : Part}
    (hp : p ∈ a.insertSourceParts target child source) : a.StatementPart id p := by
  have hkind := kind?_of_node? hsource
  unfold insertSourceParts at hp
  split at hp
  next items hk =>
    rcases List.mem_append.mp hp with hp | hp
    · exact .head hid hp
    · exact .values hid hchild (hk ▸ hkind) hp
  next table hk _ =>
    split at hp
    next hcheck =>
      obtain ⟨n, rfl⟩ := eq_mismatch_of_checkSelectLists hcheck
      rw [List.mem_singleton.mp hp]
      exact .count _ _ _
    next =>
      rcases List.mem_append.mp hp with hp | hp
      · exact .head hid hp
      · exact .inserted hid hchild (hk ▸ hkind) hp
  next =>
    rw [List.mem_singleton.mp hp]
    exact .expression _
  next hvalues hquery hguarded =>
    have haccepted := h.accepted hchild hid hkind
    cases hk : source.kind with
    | values items => exact absurd hk (hvalues items)
    | source table =>
      cases hguard : target.guard with
      | none => exact (hquery table hk hguard).elim
      | some condition => exact (hguarded table condition hk hguard).elim
    | _ =>
      rw [hk] at haccepted
      cases haccepted

theorem IsForest.statementPart_of_mem (h : a.IsForest) {p : Part}
    (hp : p ∈ a.statementParts id) : a.StatementPart id p := by
  unfold statementParts at hp
  split at hp
  next e howner =>
    rcases a.ownerOf_cases id with hid | hid
    · cases howner.symm.trans hid
    · cases howner.symm.trans hid
      rw [List.mem_singleton.mp hp]
      exact .detached _
  next =>
    split at hp
    next =>
      rw [List.mem_singleton.mp hp]
      exact .detached _
    next n hn =>
      split at hp
      next => exact .query hp
      next target hk =>
        unfold insertParts at hp
        split at hp
        next =>
          rw [List.mem_singleton.mp hp]
          exact .expression _
        next child _ hchildren =>
          split at hp
          next =>
            rw [List.mem_singleton.mp hp]
            exact .detached _
          next source hsource =>
            refine h.statementPart_of_mem_insertSourceParts (hk ▸ kind?_of_node? hn) ?_ hsource hp
            rw [← h.mem_childrenOf_iff, childrenOf_of_node? hn, hchildren]
            exact List.mem_cons_self
      next =>
        rw [List.mem_singleton.mp hp]
        exact .expression _

theorem IsForest.shows_of_mem_statementParts (h : a.IsForest) {p : Part}
    (hp : p ∈ a.statementParts id) : a.Shows id p ∨ p.IsWording := by
  cases h.statementPart_of_mem hp with
  | expression | detached | count => exact .inr rfl
  | query hp => exact h.shows_of_mem_sourceParts hp
  | @head target _ hid hp =>
    exact (Query.comeFrom_insertHeadParts target p hp).imp_left (.leaf (.inl rfl) hid)
  | @values target _ items _ hid hchild hitems hp =>
    refine (Query.comeFrom_insertValuesParts target items p hp).imp_left fun hp => ?_
    rcases List.mem_append.mp hp with hp | hp
    · exact .leaf (.inr hchild) hitems hp
    · exact .leaf (.inl rfl) hid hp
  | inserted hid hchild hsource hp =>
    exact (h.shows_of_mem_sourceParts hp).imp_left (.inserted hid hchild hsource)

/-- Every piece stands for a part of the statement, or it is wording. -/
theorem IsForest.explains_of_mem_pieces (h : a.IsForest) (hqs : a.pieces id = .ok qs)
    (hq : q ∈ qs) : a.Explains id q := by
  rw [pieces_eq] at hqs
  exact explains_of_mem_piecesOf (fun g rs hrs q hq => h.explains_of_mem_selectPieces hrs hq)
    (fun p hp => h.shows_of_mem_statementParts hp) hqs hq

/-- The pieces of the query, or of the statement, are among these. -/
def IsWrittenIn (a : Arena) (f : NodeId) (qs : List Piece) : Prop :=
  (∃ depth rs, a.selectPieces depth f = .ok rs ∧ rs ⊆ qs) ∨ ∃ rs, a.pieces f = .ok rs ∧ rs ⊆ qs

/-- The pieces of the part are among these. -/
def HasPiecesIn (a : Arena) (p : Part) (qs : List Piece) : Prop :=
  ∃ depth rs, p.pieces (a.surroundings depth) = .ok rs ∧ rs ⊆ qs

theorem HasPiecesIn.mono {p : Part} {rs : List Piece} (h : a.HasPiecesIn p rs) (hsub : rs ⊆ qs) :
    a.HasPiecesIn p qs := by
  obtain ⟨depth, ps, hps, hmem⟩ := h
  exact ⟨depth, ps, hps, fun _ hq => hsub (hmem hq)⟩

theorem hasPiecesIn_of_mem {p : Part} (h : Part.piecesOf (a.surroundings depth) ps = .ok qs)
    (hp : p ∈ ps ∨ Part.Refused ps) : a.HasPiecesIn p qs := by
  have hp := hp.resolve_right (Part.not_refused_of_piecesOf_eq_ok h)
  obtain ⟨rs, hrs⟩ := Part.exists_of_piecesOf_eq_ok h hp
  exact ⟨depth, rs, hrs, fun q hq => (Part.mem_piecesOf_iff h).mpr ⟨p, hp, rs, hrs, hq⟩⟩

theorem isReference_leaves_insert {p : Part} (hp : p ∈ (NodeKind.insert target).leaves)
    (href : p.IsReference) : p ∈ Expr.leavesOf target.guard.toList := by
  simp only [NodeKind.leaves, List.mem_append, List.mem_cons, List.mem_map] at hp
  rcases hp with (rfl | ⟨c, -, rfl⟩) | rfl | hp
  · cases href
  · cases href
  · cases href
  · exact hp

theorem IsForest.isWrittenIn_cases (h : a.IsForest) (hf : a.IsWrittenIn f qs) :
    (∃ depth table rs, a.kind? f = some (.source table) ∧
      Part.piecesOf (a.surroundings depth) (a.sourceParts f) = .ok rs ∧ rs ⊆ qs) ∨
    ∃ target child source rs, a.kind? f = some (.insert target) ∧ a.childrenOf f = [child] ∧
      a.node? child = some source ∧ a.insertSource target child source = .ok rs ∧ rs ⊆ qs := by
  have hquery : ∀ {depth rs}, a.selectPieces depth f = .ok rs → rs ⊆ qs →
      ∃ depth table rs, a.kind? f = some (.source table) ∧
        Part.piecesOf (a.surroundings depth) (a.sourceParts f) = .ok rs ∧ rs ⊆ qs := by
    intro depth rs hrs hsub
    cases depth with
    | zero => cases hrs
    | succ depth =>
      rw [selectPieces_succ] at hrs
      by_contra hnone
      have hkind : ∀ t, a.kind? f ≠ some (.source t) :=
        fun t ht => hnone ⟨depth, t, rs, ht, hrs, hsub⟩
      obtain ⟨e, he⟩ := sourceParts_of_not_source hkind
      rw [he] at hrs
      cases hrs
  rcases hf with ⟨depth, rs, hrs, hsub⟩ | ⟨rs, hrs, hsub⟩
  · exact .inl (hquery hrs hsub)
  rcases pieces_cases hrs with hrs | ⟨target, hf⟩
  · exact .inl (hquery hrs hsub)
  · obtain ⟨child, source, ps, hchildren, hchild, hps, rfl⟩ := h.exists_of_pieces_insert hf hrs
    exact .inr ⟨target, child, source, ps, hf, hchildren, hchild, hps,
      fun q hq => hsub (List.mem_append_right _ hq)⟩

theorem IsForest.hasPiecesIn_of_leaf (h : a.IsForest) {c : NodeId} {k : NodeKind} {p : Part}
    (hc : c = f ∨ a.HangsBelow c f) (hk : a.kind? c = some k) (hp : p ∈ k.leaves)
    (href : p.IsReference) (hf : a.IsWrittenIn f qs) : a.HasPiecesIn p qs := by
  rcases h.isWrittenIn_cases hf with ⟨depth, table, rs, hsource, hrs, hsub⟩ |
    ⟨target, child, source, rs, hid, hchildren, hchild, hrs, hsub⟩
  · rcases hc with rfl | hc
    · cases Option.some.inj (hk.symm.trans hsource)
      rw [List.mem_singleton.mp hp] at href
      cases href
    · have hmem : p ∈ (a.kinds (a.childrenOf f)).flatMap NodeKind.leaves :=
        List.mem_flatMap.mpr ⟨k, mem_kinds_iff.mpr ⟨c, h.mem_childrenOf_iff.mpr hc, hk⟩, hp⟩
      exact (hasPiecesIn_of_mem hrs (h.show_sourceParts hsource p hmem)).mono hsub
  · have hleaf : p ∈ Expr.leavesOf target.guard.toList ∨ source.kind = k := by
      rcases hc with rfl | hc
      · cases Option.some.inj (hk.symm.trans hid)
        exact .inl (isReference_leaves_insert hp href)
      · have hmem := h.mem_childrenOf_iff.mpr hc
        rw [hchildren, List.mem_singleton] at hmem
        subst hmem
        exact .inr (Option.some.inj ((kind?_of_node? hchild).symm.trans hk))
    unfold insertSource at hrs
    split at hrs
    next items hsource =>
      have hvalues := (Query.insertValues_eq (s := a.surroundings (a.size + 1)) target
        items).symm.trans hrs
      refine (hasPiecesIn_of_mem hvalues (Query.show_insertValuesParts target items p ?_)).mono hsub
      rcases hleaf with hleaf | rfl
      · exact List.mem_append_right _ hleaf
      · rw [hsource] at hp
        exact List.mem_append_left _ hp
    next hsource hguard =>
      rcases hleaf with hleaf | rfl
      · rw [hguard] at hleaf
        cases hleaf
      · rw [hsource] at hp
        rw [List.mem_singleton.mp hp] at href
        cases href
    next => cases hrs
    next => cases hrs

/-- No source, no command and no code that a statement shows is left out. -/
theorem IsForest.hasPiecesIn_of_shows (h : a.IsForest) {p : Part} (hp : a.Shows f p)
    (href : p.IsReference) (hf : a.IsWrittenIn f qs) : a.HasPiecesIn p qs := by
  induction hp generalizing qs with
  | leaf hc hk hp => exact h.hasPiecesIn_of_leaf hc hk hp href hf
  | subquery _ _ ihmention ih =>
    obtain ⟨depth, rs, hrs, hsub⟩ := ihmention trivial hf
    obtain ⟨_, -, hquery⟩ := bind_eq_ok.mp hrs
    exact ih href (.inl ⟨depth, rs, hquery, hsub⟩)
  | @inserted id f target table p hid hbelow hsource _ ih =>
    rcases h.isWrittenIn_cases hf with ⟨_, _, _, hother, -⟩ |
      ⟨target', child, source, rs, -, hchildren, hchild, hrs, hsub⟩
    · cases hother.symm.trans hid
    · have hmem := h.mem_childrenOf_iff.mpr hbelow
      rw [hchildren, List.mem_singleton] at hmem
      subst hmem
      have hkind : source.kind = .source table :=
        Option.some.inj ((kind?_of_node? hchild).symm.trans hsource)
      unfold insertSource at hrs
      split at hrs
      next hother => cases hother.symm.trans hkind
      next =>
        obtain ⟨_, -, hquery⟩ := bind_eq_ok.mp hrs
        exact ih href (.inl ⟨_, rs, hquery, hsub⟩)
      next => cases hrs
      next => cases hrs

theorem IsForest.mem_pieces_of_shows (h : a.IsForest) (hqs : a.pieces id = .ok qs) :
    (∀ s, a.Shows id (.source s) → .source s ∈ qs) ∧
      (∀ c, a.Shows id (.command c) → .command c ∈ qs) ∧
      ∀ code, a.Shows id (.code code) → .code code ∈ qs := by
  have hwritten : a.IsWrittenIn id qs := .inr ⟨qs, hqs, List.Subset.refl _⟩
  refine ⟨fun s hs => ?_, fun c hc => ?_, fun code hcode => ?_⟩
  · obtain ⟨_, _, hrs, hsub⟩ := h.hasPiecesIn_of_shows hs trivial hwritten
    cases hrs
    exact hsub List.mem_cons_self
  · obtain ⟨_, _, hrs, hsub⟩ := h.hasPiecesIn_of_shows hc trivial hwritten
    simp only [Part.pieces, bind_eq_ok, pure_eq_ok] at hrs
    obtain ⟨r, hr, rfl⟩ := hrs
    rw [Piece.eq_command_of_ofCommand hr] at hsub
    exact hsub List.mem_cons_self
  · obtain ⟨_, _, hrs, hsub⟩ := h.hasPiecesIn_of_shows hcode trivial hwritten
    cases hrs
    exact hsub List.mem_cons_self

end Arena

end DeclarativeSql
