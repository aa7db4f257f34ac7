import DeclarativeSql.Proofs.Query.Refusals
import Mathlib.Data.List.Infix

/-!
# Sources that mention each other

A source mentions another one if a clause below it uses the other one as a subquery. The trees do
not keep the two apart from each other, so mentions may form a loop. A run stays free of loops
exactly as long as no clause is put below a source that one of its own subqueries leads to by
mentions.
-/
namespace DeclarativeSql

namespace Arena

/-- A clause of the source `f` has an expression that uses `g` as a subquery. -/
def Mentions (a : Arena) (f g : NodeId) : Prop :=
  ∃ t c k, a.kind? f = some (.source t) ∧ a.HangsBelow c f ∧ a.kind? c = some k ∧
    g ∈ k.subqueries

def IsLoopFree (a : Arena) : Prop := ∀ id, ¬ Relation.TransGen a.Mentions id id

/-- Mentions lead from a subquery of the clause back to its place. -/
def LeadsBack (a : Arena) (parent : NodeId) (clause : NodeKind) : Prop :=
  ∃ t g, a.kind? parent = some (.source t) ∧ g ∈ clause.subqueries ∧
    Relation.ReflTransGen a.Mentions g parent

/-- The operation is accepted and puts a clause where its subqueries lead back to. -/
def ClosesLoop (a : Arena) (op : Operation) : Prop :=
  (∃ id, (a.apply op).1 = .ok id) ∧
    match op with
    | .attach parent child => ∃ k, a.kind? child = some k ∧ a.LeadsBack parent k
    | .createBelow parent kind => a.LeadsBack parent kind
    | _ => False

/-- New edges from one point keep a relation free of loops unless one of them leads back. -/
theorem acyclic_insert_iff {α : Type} {r r' : α → α → Prop} {p : α} {s : α → Prop}
    (hr : ∀ x y, r' x y ↔ r x y ∨ x = p ∧ s y) :
    (∀ x, ¬ Relation.TransGen r' x x) ↔
      (∀ x, ¬ Relation.TransGen r x x) ∧ ∀ y, s y → ¬ Relation.ReflTransGen r y p := by
  have hmono : ∀ x y, r x y → r' x y := fun x y hxy => (hr x y).mpr (.inl hxy)
  -- a path along the new edges is an old one, or it passes through `p`
  have hpath : ∀ {x y}, Relation.TransGen r' x y → Relation.TransGen r x y ∨
      Relation.ReflTransGen r x p ∧ ∃ z, s z ∧ Relation.ReflTransGen r z y := by
    intro x y hxy
    induction hxy with
    | single hstep =>
      rcases (hr _ _).mp hstep with hold | ⟨rfl, hs⟩
      · exact .inl (.single hold)
      · exact .inr ⟨.refl, _, hs, .refl⟩
    | tail _ hstep ih =>
      rcases (hr _ _).mp hstep with hold | ⟨rfl, hs⟩
      · rcases ih with ih | ⟨hp, z, hz, hzy⟩
        · exact .inl (ih.tail hold)
        · exact .inr ⟨hp, z, hz, hzy.tail hold⟩
      · rcases ih with ih | ⟨hp, -⟩
        · exact .inr ⟨ih.to_reflTransGen, _, hs, .refl⟩
        · exact .inr ⟨hp, _, hs, .refl⟩
  constructor
  · intro h
    refine ⟨fun x hx => h x (Relation.TransGen.mono hmono _ _ hx), fun y hy hback => h p ?_⟩
    exact .head' ((hr p y).mpr (.inr ⟨rfl, hy⟩)) (Relation.ReflTransGen.mono hmono _ _ hback)
  · rintro ⟨hold, hnew⟩ x hx
    rcases hpath hx with hx | ⟨hp, z, hz, hzx⟩
    · exact hold x hx
    · exact hnew z hz (hzx.trans hp)

variable {a b : Arena}

theorem IsLoopFree.mono (h : a.IsLoopFree) (hmono : ∀ f g, b.Mentions f g → a.Mentions f g) :
    b.IsLoopFree := fun id hid => h id (Relation.TransGen.mono hmono _ _ hid)

theorem mentions_cut_iff {id f g : NodeId} :
    (a.cut id).Mentions f g ↔ ∃ t c k, a.kind? f = some (.source t) ∧ c ≠ id ∧
      a.HangsBelow c f ∧ a.kind? c = some k ∧ g ∈ k.subqueries := by
  simp only [Mentions, kind?_cut, hangsBelow_cut_iff]
  grind

theorem mentions_of_mentions_cut {id : NodeId} (f g : NodeId) (h : (a.cut id).Mentions f g) :
    a.Mentions f g := by
  obtain ⟨t, c, k, hf, -, hc, hk, hg⟩ := mentions_cut_iff.mp h
  exact ⟨t, c, k, hf, hc, hk, hg⟩

theorem mentions_attach_iff {parent child : NodeId} (hchild : child < a.size) (f g : NodeId) :
    ((a.cut child).graft parent child).Mentions f g ↔ (a.cut child).Mentions f g ∨
      f = parent ∧ ∃ t k, a.kind? parent = some (.source t) ∧ a.kind? child = some k ∧
        g ∈ k.subqueries := by
  have hlt : child < (a.cut child).size := by rwa [size_cut]
  have hroot : ∀ {p}, ¬ (a.cut child).HangsBelow child p := fun hp =>
    (hangsBelow_cut_iff.mp hp).1 rfl
  constructor
  · rintro ⟨t, c, k, hf, hc, hk, hg⟩
    rw [kind?_graft] at hf hk
    rcases (hangsBelow_graft_iff hlt).mp hc with ⟨rfl, rfl⟩ | ⟨-, hc⟩
    · rw [kind?_cut] at hf hk
      exact .inr ⟨rfl, t, k, hf, hk, hg⟩
    · exact .inl ⟨t, c, k, hf, hc, hk, hg⟩
  · rintro (⟨t, c, k, hf, hc, hk, hg⟩ | ⟨rfl, t, k, hf, hk, hg⟩)
    · have hne : c ≠ child := fun he => hroot (he ▸ hc)
      exact ⟨t, c, k, by rwa [kind?_graft],
        (hangsBelow_graft_iff hlt).mpr (.inr ⟨hne, hc⟩), by rwa [kind?_graft], hg⟩
    · exact ⟨t, child, k, by rwa [kind?_graft, kind?_cut],
        (hangsBelow_graft_iff hlt).mpr (.inl ⟨rfl, rfl⟩), by rwa [kind?_graft, kind?_cut], hg⟩

/-- A new node is no clause of a source yet, and the sources that move are no clauses. -/
theorem Created.mentions_iff {kind : NodeKind} (h : Created a b kind) (hforest : a.IsForest)
    (f g : NodeId) : b.Mentions f g ↔ a.Mentions f g := by
  have hclause : ∀ {c k}, a.kind? c = some k → g ∈ k.subqueries → c ∉ kind.subqueries := by
    intro c k hk hg hc
    obtain ⟨t, ht⟩ := h.sources c hc
    rw [ht, Option.some.injEq] at hk
    subst hk
    cases hg
  constructor
  · rintro ⟨t, c, k, hf, hc, hk, hg⟩
    have hold : c ∉ kind.subqueries := by
      intro hmem
      rw [HangsBelow, h.parents, if_pos hmem, Option.some.injEq] at hc
      subst hc
      rw [h.kinds, if_pos rfl, Option.some.injEq] at hf
      subst hf
      cases hmem
    rw [HangsBelow, h.parents, if_neg hold] at hc
    rw [h.kinds, if_neg (Nat.ne_of_lt (hforest.lt_size_of_parent hc))] at hf
    rw [h.kinds, if_neg (Nat.ne_of_lt (lt_size_of_parent? hc))] at hk
    exact ⟨t, c, k, hf, hc, hk, hg⟩
  · rintro ⟨t, c, k, hf, hc, hk, hg⟩
    refine ⟨t, c, k, ?_, ?_, ?_, hg⟩
    · rwa [h.kinds, if_neg (Nat.ne_of_lt (hforest.lt_size_of_parent hc))]
    · rwa [HangsBelow, h.parents, if_neg (hclause hk hg)]
    · rwa [h.kinds, if_neg (Nat.ne_of_lt (lt_size_of_parent? hc))]

/-- A new source has no clauses, and its owner is no source. -/
theorem mentions_of_mentions_addSource (hforest : a.IsForest) (t : Table) (f g : NodeId)
    (h : (a.addSource t).2.Mentions f g) : a.Mentions f g := by
  obtain ⟨s, c, k, hf, hc, hk, hg⟩ := h
  have hsize : (a.register t).size = a.size := size_registerAll (some t)
  have hlt : a.size < ((a.register t).push (.source t)).size := by
    rw [size_push, hsize]
    exact Nat.lt_succ_self _
  have hkinds : ∀ id, (a.register t).kind? id = a.kind? id := kind?_registerAll (some t)
  have hparents : ∀ id, (a.register t).parent? id = a.parent? id := parent?_registerAll (some t)
  rw [addSource, kind?_graft, kind?_push, hsize, hkinds] at hf hk
  rcases (hangsBelow_graft_iff hlt).mp hc with ⟨rfl, -⟩ | ⟨-, hc⟩
  · rw [if_pos rfl, Option.some.injEq] at hk
    subst hk
    cases hg
  · rw [HangsBelow, parent?_push, hparents] at hc
    rw [if_neg (Nat.ne_of_lt (hforest.lt_size_of_parent hc))] at hf
    rw [if_neg (Nat.ne_of_lt (lt_size_of_parent? hc))] at hk
    exact ⟨s, c, k, hf, hc, hk, hg⟩

/-- Without loops, the way back does not pass the clause in its old place. -/
theorem IsLoopFree.leadsBack_cut_iff (h : a.IsLoopFree) {parent child : NodeId} {k : NodeKind}
    (hk : a.kind? child = some k) :
    (a.cut child).LeadsBack parent k ↔ a.LeadsBack parent k := by
  have hpath : ∀ {g}, g ∈ k.subqueries →
      (Relation.ReflTransGen (a.cut child).Mentions g parent ↔
        Relation.ReflTransGen a.Mentions g parent) := by
    intro g hg
    constructor
    · exact fun hreach => Relation.ReflTransGen.mono mentions_of_mentions_cut _ _ hreach
    · intro hreach
      induction hreach with
      | refl => exact .refl
      | @tail x y hreach hstep ih =>
        obtain ⟨t, c, kc, hx, hc, hkc, hy⟩ := hstep
        by_cases hne : c = child
        · -- the clause would mention `g` from a source that `g` leads to
          subst hne
          obtain rfl := Option.some.inj (hk.symm.trans hkc)
          exact absurd (.tail' hreach ⟨t, c, k, hx, hc, hk, hg⟩) (h g)
        · exact ih.tail (mentions_cut_iff.mpr ⟨t, c, kc, hx, hne, hc, hkc, hy⟩)
  simp only [LeadsBack, kind?_cut]
  constructor
  · rintro ⟨t, g, hp, hg, hreach⟩
    exact ⟨t, g, hp, hg, (hpath hg).mp hreach⟩
  · rintro ⟨t, g, hp, hg, hreach⟩
    exact ⟨t, g, hp, hg, (hpath hg).mpr hreach⟩

theorem IsLoopFree.attach_iff (h : a.IsLoopFree) {parent child : NodeId} {k : NodeKind}
    (hk : a.kind? child = some k) :
    ((a.cut child).graft parent child).IsLoopFree ↔ ¬ a.LeadsBack parent k := by
  rw [← h.leadsBack_cut_iff hk]
  unfold IsLoopFree
  rw [acyclic_insert_iff (mentions_attach_iff (lt_size_of_kind? hk))]
  constructor
  · rintro ⟨-, hnew⟩ ⟨t, g, hp, hg, hreach⟩
    rw [kind?_cut] at hp
    exact hnew g ⟨t, k, hp, hk, hg⟩ hreach
  · intro hback
    refine ⟨h.mono mentions_of_mentions_cut, ?_⟩
    rintro g ⟨t, k', hp, hk', hg⟩ hreach
    obtain rfl := Option.some.inj (hk.symm.trans hk')
    exact hback ⟨t, g, by rwa [kind?_cut], hg, hreach⟩

theorem Created.leadsBack_iff {kind k : NodeKind} {parent : NodeId} (h : Created a b kind)
    (hforest : a.IsForest) (hparent : parent < a.size) :
    b.LeadsBack parent k ↔ a.LeadsBack parent k := by
  have hmentions : b.Mentions = a.Mentions := by
    funext f g
    exact propext (h.mentions_iff hforest f g)
  rw [LeadsBack, LeadsBack, hmentions, h.kinds, if_neg (Nat.ne_of_lt hparent)]

theorem Created.isLoopFree {kind : NodeKind} (h : Created a b kind) (hforest : a.IsForest)
    (hfree : a.IsLoopFree) : b.IsLoopFree :=
  hfree.mono fun f g hfg => (h.mentions_iff hforest f g).mp hfg

theorem isLoopFree_create (hforest : a.IsForest) (hfree : a.IsLoopFree) (kind : NodeKind) :
    (a.create kind).2.IsLoopFree := by
  rcases hcheck : a.checkCreate kind with e | ⟨⟩
  · simp only [create, hcheck]
    exact hfree
  · obtain ⟨b, hb, hcreated⟩ := hforest.created_of_checkCreate hcheck
    rw [hb]
    exact hcreated.isLoopFree hforest hfree

theorem closesLoop_attach_iff {parent child : NodeId} :
    a.ClosesLoop (.attach parent child) ↔ a.checkAttach parent child = .ok () ∧
      ∃ k, a.kind? child = some k ∧ a.LeadsBack parent k := by
  refine and_congr_left' ?_
  rw [apply]
  unfold attach
  rcases a.checkAttach parent child with e | ⟨⟩ <;> simp [Except.map]

theorem closesLoop_createBelow_iff {parent : NodeId} {kind : NodeKind} :
    a.ClosesLoop (.createBelow parent kind) ↔
      (∃ id, (a.createBelow parent kind).1 = .ok id) ∧ a.LeadsBack parent kind := by
  refine and_congr_left' ?_
  rw [apply_createBelow]
  cases (a.createBelow parent kind).1 <;> simp [Except.map]

theorem IsLoopFree.apply_attach_iff (h : a.IsLoopFree) (parent child : NodeId) :
    (a.apply (.attach parent child)).2.IsLoopFree ↔
      ¬ a.ClosesLoop (.attach parent child) := by
  rw [closesLoop_attach_iff, apply]
  unfold attach
  rcases hcheck : a.checkAttach parent child with e | ⟨⟩
  · simpa using h
  · obtain ⟨c, hc, -⟩ := checkAttach_eq_ok_iff.mp hcheck
    have hk := kind?_of_node? hc
    simp [h.attach_iff hk, hk]

theorem IsLoopFree.apply_createBelow_iff (h : a.IsLoopFree) (hforest : a.IsForest)
    (parent : NodeId) (kind : NodeKind) :
    (a.apply (.createBelow parent kind)).2.IsLoopFree ↔
      ¬ a.ClosesLoop (.createBelow parent kind) := by
  rw [closesLoop_createBelow_iff, apply_createBelow]
  rcases hplace : a.checkPlace parent kind none with e | ⟨⟩
  · simpa [createBelow, hplace] using h
  rcases hcheck : a.checkCreate kind with e | ⟨⟩
  · simpa [createBelow, hplace, create, hcheck] using h
  obtain ⟨b, hb, hcreated⟩ := hforest.created_of_checkCreate hcheck
  have hfree : b.IsLoopFree := hcreated.isLoopFree hforest h
  rcases hattach : b.checkAttach parent a.size with e | ⟨⟩
  · simpa [createBelow, hplace, hb, attach, hattach] using hfree
  · obtain ⟨p, hp, -⟩ := checkPlace_eq_ok_iff.mp hplace
    have hlt : parent < a.size := isSome_node?_iff.mp (by simp [hp])
    have hnew : b.kind? a.size = some kind := by rw [hcreated.kinds, if_pos rfl]
    simp [createBelow, hplace, hb, attach, hattach, hfree.attach_iff hnew,
      hcreated.leadsBack_iff hforest hlt]

theorem IsLoopFree.apply_iff (h : a.IsLoopFree) (hforest : a.IsForest) (op : Operation) :
    (a.apply op).2.IsLoopFree ↔ ¬ a.ClosesLoop op := by
  cases op with
  | source t =>
    exact iff_of_true (h.mono (mentions_of_mentions_addSource hforest t)) fun hc => hc.2.elim
  | create kind => exact iff_of_true (isLoopFree_create hforest h kind) fun hc => hc.2.elim
  | createBelow parent kind => exact h.apply_createBelow_iff hforest parent kind
  | attach parent child => exact h.apply_attach_iff parent child
  | detach id =>
    refine iff_of_true ?_ fun hc => hc.2.elim
    rw [apply]
    unfold detach
    cases a.node id with
    | error e => exact h
    | ok n => exact h.mono mentions_of_mentions_cut

theorem run_concat (operations : List Operation) (op : Operation) :
    a.run (operations ++ [op]) = ((a.run operations).apply op).2 := by
  simp [run]

theorem empty_isLoopFree : empty.IsLoopFree := by
  intro id hid
  obtain ⟨g, ⟨t, c, k, -, hc, -⟩, -⟩ := Relation.TransGen.head'_iff.mp hid
  cases c <;> cases hc

theorem run_isLoopFree_iff (operations : List Operation) :
    (∀ earlier, earlier <+: operations → (empty.run earlier).IsLoopFree) ↔
      ∀ earlier op, earlier ++ [op] <+: operations → ¬ (empty.run earlier).ClosesLoop op := by
  have hforest : ∀ earlier, (empty.run earlier).IsForest := fun earlier =>
    empty_isForest.run earlier
  constructor
  · intro h earlier op hprefix
    have hbefore := h earlier ((List.prefix_append ..).trans hprefix)
    have hafter := h (earlier ++ [op]) hprefix
    rw [run_concat] at hafter
    exact (hbefore.apply_iff (hforest earlier) op).mp hafter
  · intro h earlier
    induction earlier using List.reverseRecOn with
    | nil => exact fun _ => empty_isLoopFree
    | append_singleton earlier op ih =>
      intro hprefix
      have hbefore := ih ((List.prefix_append ..).trans hprefix)
      rw [run_concat]
      exact (hbefore.apply_iff (hforest earlier) op).mpr (h earlier op hprefix)

end Arena

end DeclarativeSql
