import DeclarativeSql.Expr.Operator
import DeclarativeSql.Proofs.Scanning.Content

/-!
# Tokens behind tokens

A sequence of tokens in which operator characters only meet where an operator is followed by a minus
sign. Joined, it is scanned token by token, except that some operators take in the sign.
-/
namespace DeclarativeSql

namespace Content

open Scanner

def minus : Content := [.char '-']

def ofOperator (op : BinaryOp) : Content := marks op.text

def startsWithOperator (c : Content) : Bool := c.head?.any Mark.isOperator

def endsInOperator (c : Content) : Bool := c.getLast?.any Mark.isOperator

/-- The second token may be written behind the first. -/
def Meets (u v : Content) : Prop :=
  u.endsInOperator = true → v.startsWithOperator = true → v = minus ∧ ∃ op, u = ofOperator op

/-- A token that does not meet others with operator characters. -/
structure IsAtom (c : Content) : Prop where
  nonempty : c ≠ []
  noComment : NoComment c
  starts : c.startsWithOperator = false
  ends : c.endsInOperator = false

/-- Operators and operands, of which the last one is not an operator. -/
structure Flow (cs : List Content) : Prop where
  nonempty : ∀ c ∈ cs, c ≠ []
  noComment : ∀ c ∈ cs, NoComment c
  chain : cs.IsChain Meets
  starts : ∀ c ∈ cs.head?, c.startsWithOperator = true → c = minus
  ends : ∀ c ∈ cs.getLast?, c.endsInOperator = false

end Content

/-- Together with a sign behind it, the operator is another one. -/
def BinaryOp.absorbsSign (op : BinaryOp) : Bool := op.text.toList.any Scanner.allowsSign

namespace Content

open Scanner

/-- No operator is followed by a sign that it takes in. -/
def Quiet (cs : List Content) : Prop :=
  cs.IsChain fun u v => ∀ op : BinaryOp, op.absorbsSign = true → u = ofOperator op → v ≠ minus

variable {c u v : Content} {us vs : List Content}

theorem isAtom_of_forall (hne : c ≠ []) (h : ∀ x ∈ c, x.isOperator = false) : IsAtom c := by
  have hnot : ∀ o : Option Mark, (∀ x ∈ o, x ∈ c) → o.any Mark.isOperator = false := by
    intro o ho
    cases o with
    | none => rfl
    | some x => exact h x (ho x rfl)
  refine ⟨hne, ?_, hnot _ fun x hx => List.mem_of_head? hx, hnot _ fun x hx => ?_⟩
  · refine (List.pairwise_of_forall_mem_list fun x hx y _ => ?_).isChain
    rintro ⟨rfl, -⟩
    exact absurd (h _ hx) (by decide)
  · exact List.mem_of_getLast? hx

instance (c : Content) : Decidable (IsAtom c) :=
  decidable_of_iff (c ≠ [] ∧ NoComment c ∧ c.startsWithOperator = false ∧ c.endsInOperator = false)
    ⟨fun h => ⟨h.1, h.2.1, h.2.2.1, h.2.2.2⟩, fun h => ⟨h.1, h.2, h.3, h.4⟩⟩

namespace Flow

theorem nil : Flow [] := ⟨by simp, by simp, .nil, by simp, by simp⟩

theorem atoms (h : ∀ c ∈ us, IsAtom c) : Flow us := by
  exact {
    nonempty := fun c hc => (h c hc).nonempty
    noComment := fun c hc => (h c hc).noComment
    chain := by
      refine (List.pairwise_of_forall_mem_list fun u hu v _ hends => ?_).isChain
      exact absurd (hends.symm.trans (h u hu).ends) (by decide)
    starts := by
      intro c hc hstarts
      exact absurd (hstarts.symm.trans (h c (List.mem_of_head? hc)).starts) (by decide)
    ends := fun c hc => (h c (List.mem_of_getLast? hc)).ends }

theorem append (hu : Flow us) (hv : Flow vs) : Flow (us ++ vs) where
  nonempty := List.forall_mem_append.mpr ⟨hu.nonempty, hv.nonempty⟩
  noComment := List.forall_mem_append.mpr ⟨hu.noComment, hv.noComment⟩
  chain := by
    refine List.isChain_append.mpr ⟨hu.chain, hv.chain, fun u hlast v _ hends => ?_⟩
    exact absurd (hends.symm.trans (hu.ends u hlast)) (by decide)
  starts := by
    cases us with
    | nil => exact hv.starts
    | cons u us => exact hu.starts
  ends := by
    intro c hc
    rw [List.getLast?_append] at hc
    cases hlast : vs.getLast? with
    | none => exact hu.ends c (by simpa [hlast] using hc)
    | some v => exact hv.ends c (by simpa [hlast] using hc)

theorem cons (hne : c ≠ []) (hcomment : NoComment c) (hv : Flow vs)
    (hmeets : ∀ v ∈ vs.head?, Meets c v) (hvs : vs ≠ [])
    (hstarts : c.startsWithOperator = true → c = minus) : Flow (c :: vs) := by
  obtain ⟨v, vs, rfl⟩ := List.exists_cons_of_ne_nil hvs
  exact {
    nonempty := List.forall_mem_cons.mpr ⟨hne, hv.nonempty⟩
    noComment := List.forall_mem_cons.mpr ⟨hcomment, hv.noComment⟩
    chain := List.isChain_cons_cons.mpr ⟨hmeets v rfl, hv.chain⟩
    starts := by simpa using hstarts
    ends := by
      rw [List.getLast?_cons_cons]
      exact hv.ends }

theorem meets_ofOperator (hv : Flow vs) (op : BinaryOp) :
    ∀ v ∈ vs.head?, Meets (ofOperator op) v :=
  fun v hhead _ hstarts => ⟨hv.starts v hhead hstarts, op, rfl⟩

theorem cons_minus (hv : Flow vs) (hvs : vs ≠ []) : Flow (minus :: vs) :=
  cons (by decide) (by decide) hv (hv.meets_ofOperator .subtract) hvs fun _ => rfl

theorem operation (hu : Flow us) (hus : us ≠ []) (hv : Flow vs) (hvs : vs ≠ []) (op : BinaryOp) :
    Flow (us ++ ofOperator op :: vs) := by
  have hop : ofOperator op ≠ [] ∧ NoComment (ofOperator op) := by cases op <;> decide
  obtain ⟨v, vs, rfl⟩ := List.exists_cons_of_ne_nil hvs
  exact {
    nonempty := List.forall_mem_append.mpr
      ⟨hu.nonempty, List.forall_mem_cons.mpr ⟨hop.1, hv.nonempty⟩⟩
    noComment := List.forall_mem_append.mpr
      ⟨hu.noComment, List.forall_mem_cons.mpr ⟨hop.2, hv.noComment⟩⟩
    chain := by
      refine List.isChain_append.mpr ⟨hu.chain, ?_, fun u hlast v _ hends => ?_⟩
      · exact List.isChain_cons_cons.mpr ⟨hv.meets_ofOperator op v rfl, hv.chain⟩
      · exact absurd (hends.symm.trans (hu.ends u hlast)) (by decide)
    starts := by
      rw [List.head?_append_of_ne_nil _ hus]
      exact hu.starts
    ends := by
      rw [List.getLast?_append_cons, List.getLast?_cons_cons]
      exact hv.ends }

end Flow

theorem endsInOperator_of_absorbsSign {op : BinaryOp} (h : op.absorbsSign = true) :
    (ofOperator op).endsInOperator = true := by
  cases op <;> first | rfl | exact absurd h (by decide)

theorem Quiet.of_forall_ne_minus (h : ∀ c ∈ us, c ≠ minus) : Quiet us :=
  (List.pairwise_of_forall_mem_list fun _ _ v hv _ _ _ => h v hv).isChain

theorem quiet_append_iff (hu : ∀ u ∈ us.getLast?, u.endsInOperator = false) :
    Quiet (us ++ vs) ↔ Quiet us ∧ Quiet vs := by
  rw [Quiet, List.isChain_append, ← and_assoc]
  refine and_iff_left fun u hlast v _ op hop heq => ?_
  rw [heq] at hlast
  exact absurd ((endsInOperator_of_absorbsSign hop).symm.trans (hu _ hlast)) (by decide)

theorem quiet_cons_iff : Quiet (c :: vs) ↔
    (∀ op : BinaryOp, op.absorbsSign = true → c = ofOperator op → vs.head? ≠ some minus) ∧
      Quiet vs := by
  rw [Quiet, List.isChain_cons]
  refine and_congr_left fun _ => ⟨fun h op hop heq hhead => ?_, fun h v hv op hop heq => ?_⟩
  · exact h minus hhead op hop heq rfl
  · rintro rfl
    exact h op hop heq hv

theorem ofOperator_injective {op op' : BinaryOp} (h : ofOperator op = ofOperator op') :
    op = op' := by
  cases op <;> cases op' <;> first | rfl | exact absurd h (by decide)

theorem quiet_operation_iff (hu : Flow us) {op : BinaryOp} :
    Quiet (us ++ ofOperator op :: vs) ↔
      Quiet us ∧ Quiet vs ∧ (op.absorbsSign = true → vs.head? ≠ some minus) := by
  rw [quiet_append_iff hu.ends, quiet_cons_iff, and_comm (a := Quiet vs)]
  refine and_congr_right fun _ => and_congr_left fun _ => ⟨fun h hop => h op hop rfl, ?_⟩
  intro h op' hop heq
  rw [ofOperator_injective heq] at h
  exact h hop

theorem quiet_cons_minus_iff : Quiet (minus :: vs) ↔ Quiet vs := by
  rw [quiet_cons_iff]
  refine and_iff_right fun op hop heq => ?_
  have hop' : op = .subtract := ofOperator_injective heq.symm
  rw [hop'] at hop
  exact absurd hop (by decide)

theorem needsSpace_of_isWord {c d : Char} (hc : isWord c = true) (hd : isWord d = true) :
    (Mark.char c).needsSpace (.char d) = true := by
  have hsymbol : ∀ {x : Char}, isWord x = true → Spacing.isSymbol x = false := by
    intro x hx
    rcases Bool.or_eq_true_iff.mp hx with hx | hx
    · exact Spacing.isSymbol_of_isAlphanum hx
    · rw [beq_iff_eq.mp hx]
      decide
  simp [Mark.needsSpace, Mark.last, Mark.first, Spacing.isNeeded, hsymbol hc, hsymbol hd]

/-- Joined texts are scanned one after the other, if no operator goes from the first to the
second. -/
theorem scan_join (hu : NoComment u) (h : ∀ x ∈ u.getLast?, ∀ y ∈ v.head?,
    x.isOperator = true → y.isOperator = true → x.needsSpace y = true) :
    scan (join u v) = scan u ++ scan v := by
  cases hx : u.getLast? with
  | none =>
    rw [List.getLast?_eq_none_iff.mp hx, nil_join]
    rfl
  | some x =>
    cases hy : v.head? with
    | none =>
      rw [List.head?_eq_none_iff.mp hy, join_nil]
      exact (List.append_nil _).symm
    | some y =>
      rw [join, hx, hy, gap]
      split
      · rw [List.append_assoc, List.singleton_append, scan_space_append hu]
      next hspace =>
        rw [List.append_nil, scan_append hu]
        rw [hx, hy]
        intro x' hx' y' hy'
        obtain rfl := Option.mem_some_iff.mp hx'
        obtain rfl := Option.mem_some_iff.mp hy'
        by_contra hruns
        cases x with
        | placeholder s => exact hruns rfl
        | char c =>
          cases y with
          | placeholder s => exact hruns rfl
          | char d =>
            simp only [Mark.runsOn, Bool.not_eq_false, Bool.or_eq_true, Bool.and_eq_true] at hruns
            rcases hruns with ⟨hc, hd⟩ | ⟨hc, hd⟩
            · exact hspace (needsSpace_of_isWord hc hd)
            · exact hspace (h _ hx _ hy hc hd)

theorem noComment_join (hu : NoComment u) (hv : NoComment v) : NoComment (join u v) := by
  rw [join]
  cases hx : u.getLast? with
  | none => simpa [List.getLast?_eq_none_iff.mp hx, gap] using hv
  | some x =>
    cases hy : v.head? with
    | none => simpa [List.head?_eq_none_iff.mp hy, gap] using hu
    | some y =>
      have hspace : NoComment [.char ' '] := .singleton _
      rw [gap]
      split
      · refine List.isChain_append.mpr ⟨List.isChain_append.mpr ⟨hu, hspace, ?_⟩, hv, ?_⟩
        · rintro x - y hy ⟨-, rfl⟩
          cases hy
        · rintro x hx y - ⟨rfl, -⟩
          simp at hx
      next hneeded =>
        rw [List.append_nil]
        refine List.isChain_append.mpr ⟨hu, hv, ?_⟩
        rw [hx, hy]
        rintro x' hx' y' hy' ⟨rfl, rfl⟩
        obtain rfl := Option.mem_some_iff.mp hx'
        obtain rfl := Option.mem_some_iff.mp hy'
        exact hneeded (by decide)

theorem head?_joinAll (h : ∀ c ∈ us, c ≠ []) :
    (joinAll us).head? = us.head?.bind List.head? := by
  cases us with
  | nil => rfl
  | cons u us =>
    rw [joinAll_cons, head?_join (h u List.mem_cons_self)]
    rfl

theorem getLast?_joinAll (h : ∀ c ∈ us, c ≠ []) :
    (joinAll us).getLast? = us.getLast?.bind List.getLast? := by
  cases us using List.reverseRecOn with
  | nil => rfl
  | append_singleton us u =>
    rw [joinAll_concat, getLast?_join _ (h u (by simp)), List.getLast?_concat]
    rfl

theorem noComment_joinAll (h : ∀ c ∈ us, NoComment c) : NoComment (joinAll us) := by
  induction us with
  | nil => exact .nil
  | cons u us ih =>
    exact noComment_join (h u List.mem_cons_self) (ih fun c hc => h c (List.mem_cons_of_mem _ hc))

theorem Flow.isAtom_joinAll (h : Flow us) {u : Content} (hu : us.head? = some u)
    (hstarts : u.startsWithOperator = false) : IsAtom (joinAll us) := by
  obtain ⟨rest, rfl⟩ := List.head?_eq_some_iff.mp hu
  have hlast : ∃ v, (u :: rest).getLast? = some v := ⟨_, List.getLast?_cons ..⟩
  obtain ⟨v, hv⟩ := hlast
  exact {
    nonempty := by
      intro hnil
      have hhead := head?_joinAll h.nonempty
      rw [hnil, hu] at hhead
      exact h.nonempty u List.mem_cons_self (List.head?_eq_none_iff.mp hhead.symm)
    noComment := noComment_joinAll h.noComment
    starts := by
      rw [startsWithOperator, head?_joinAll h.nonempty, hu]
      exact hstarts
    ends := by
      rw [endsInOperator, getLast?_joinAll h.nonempty, hv]
      exact h.ends v hv }

/-- A token is scanned by itself unless it ends in an operator that goes on behind it. Two minus
signs are set apart. -/
theorem scan_join_joinAll (hu : NoComment u) (hvs : ∀ c ∈ vs, c ≠ [])
    (h : ∀ v ∈ vs.head?, u.endsInOperator = true → v.startsWithOperator = true →
      u.getLast? = some (.char '-') ∧ v = minus) :
    scan (join u (joinAll vs)) = scan u ++ scan (joinAll vs) := by
  refine scan_join hu fun x hx y hy hxop hyop => ?_
  rw [head?_joinAll hvs] at hy
  obtain ⟨v, hv, hy⟩ := Option.bind_eq_some_iff.mp hy
  have hends : u.endsInOperator = true := by
    rw [endsInOperator, Option.mem_def.mp hx]
    exact hxop
  have hstarts : v.startsWithOperator = true := by
    rw [startsWithOperator, hy]
    exact hyop
  obtain ⟨hlast, rfl⟩ := h v hv hends hstarts
  cases hlast.symm.trans hx
  cases hy
  decide

/-- What the scanner makes of an operator and a sign that are written together. -/
theorem scan_ofOperator_append {op : BinaryOp} (hop : op ≠ .subtract)
    (hsymbolic : (ofOperator op).endsInOperator = true) :
    (op.absorbsSign = false →
        scan (ofOperator op ++ minus) = scan (ofOperator op) ++ scan minus) ∧
      (op.absorbsSign = true →
        (scan (ofOperator op ++ minus)).length < (scan (ofOperator op) ++ scan minus).length) := by
  cases op <;> first
    | exact absurd rfl hop
    | exact absurd hsymbolic (by decide)
    | decide

theorem scan_joinAll_operator {op : BinaryOp} (hop : op ≠ .subtract) (hvs : ∀ c ∈ vs, c ≠ [])
    (hmeets : ∀ v ∈ vs.head?, Meets minus v) :
    scan (joinAll (ofOperator op :: minus :: vs)) =
        scan (ofOperator op ++ minus) ++ scan (joinAll vs) ∧
      scan (joinAll (minus :: vs)) = scan minus ++ scan (joinAll vs) := by
  have hjoin : join (ofOperator op) minus = ofOperator op ++ minus := by
    cases op <;> first | rfl | exact absurd rfl hop
  have hcomment : NoComment (ofOperator op ++ minus) := by
    cases op <;> first | exact absurd rfl hop | decide
  have hsign : ∀ v ∈ vs.head?, v.startsWithOperator = true → v = minus :=
    fun v hv hstarts => (hmeets v hv rfl hstarts).1
  constructor
  · rw [joinAll_cons, joinAll_cons, ← join_assoc, hjoin]
    exact scan_join_joinAll hcomment hvs fun v hv _ hstarts =>
      ⟨List.getLast?_concat, hsign v hv hstarts⟩
  · exact scan_join_joinAll (by decide) hvs fun v hv _ hstarts => ⟨rfl, hsign v hv hstarts⟩

/-- A sign that an operator takes in gets lost. -/
theorem length_scan_joinAll_lt {op : BinaryOp} (hop : op ≠ .subtract)
    (habsorbs : op.absorbsSign = true) (hvs : ∀ c ∈ vs, c ≠ [])
    (hmeets : ∀ v ∈ vs.head?, Meets minus v)
    (hlength : (scan (joinAll (minus :: vs))).length ≤ ((minus :: vs).flatMap scan).length) :
    (scan (joinAll (ofOperator op :: minus :: vs))).length <
      ((ofOperator op :: minus :: vs).flatMap scan).length := by
  obtain ⟨hboth, hone⟩ := scan_joinAll_operator hop hvs hmeets
  have hlost := (scan_ofOperator_append hop (endsInOperator_of_absorbsSign habsorbs)).2 habsorbs
  rw [hone, List.flatMap_cons] at hlength
  rw [hboth, List.flatMap_cons, List.flatMap_cons]
  simp only [List.length_append] at hlost hlength ⊢
  omega

/-- No token gets lost exactly if no operator takes in a sign. -/
theorem scan_joinAll (hne : ∀ c ∈ us, c ≠ []) (hcomment : ∀ c ∈ us, NoComment c)
    (hchain : us.IsChain Meets) :
    (scan (joinAll us)).length ≤ (us.flatMap scan).length ∧
      (scan (joinAll us) = us.flatMap scan ↔ Quiet us) := by
  induction us with
  | nil => exact ⟨le_rfl, iff_of_true rfl .nil⟩
  | cons u vs ih =>
    have hvs : ∀ c ∈ vs, c ≠ [] := fun c hc => hne c (List.mem_cons_of_mem _ hc)
    obtain ⟨hlength, hiff⟩ :=
      ih hvs (fun c hc => hcomment c (List.mem_cons_of_mem _ hc)) hchain.tail
    have happly : scan (joinAll (u :: vs)) = scan u ++ scan (joinAll vs) →
        (∀ op : BinaryOp, op.absorbsSign = true → u = ofOperator op → vs.head? ≠ some minus) →
        (scan (joinAll (u :: vs))).length ≤ ((u :: vs).flatMap scan).length ∧
          (scan (joinAll (u :: vs)) = (u :: vs).flatMap scan ↔ Quiet (u :: vs)) := by
      intro hscan hquiet
      rw [hscan, List.flatMap_cons, List.length_append, List.length_append, quiet_cons_iff,
        List.append_cancel_left_eq, hiff, and_iff_right hquiet]
      exact ⟨Nat.add_le_add_left hlength _, Iff.rfl⟩
    by_cases hsign : vs.head? = some minus ∧ u.endsInOperator = true ∧ u ≠ minus
    · -- the sign is scanned with the operator in front of it
      obtain ⟨hhead, hends, hminus⟩ := hsign
      obtain ⟨rest, rfl⟩ := List.head?_eq_some_iff.mp hhead
      obtain ⟨hmeets, hrest⟩ := List.isChain_cons_cons.mp hchain
      obtain ⟨-, op, rfl⟩ := hmeets hends (by decide)
      have hop : op ≠ .subtract := by
        rintro rfl
        exact hminus rfl
      have hrestNe : ∀ c ∈ rest, c ≠ [] := fun c hc => hvs c (List.mem_cons_of_mem _ hc)
      have hrestMeets := (List.isChain_cons.mp hrest).1
      cases habsorbs : op.absorbsSign with
      | false =>
        obtain ⟨hboth, hone⟩ := scan_joinAll_operator hop hrestNe hrestMeets
        refine happly ?_ fun op' hop' heq => ?_
        · rw [hboth, (scan_ofOperator_append hop hends).1 habsorbs, hone, List.append_assoc]
        · rw [← ofOperator_injective heq, habsorbs] at hop'
          cases hop'
      | true =>
        have hlt := length_scan_joinAll_lt hop habsorbs hrestNe hrestMeets hlength
        refine ⟨hlt.le, iff_of_false (fun heq => ?_) fun hquiet => ?_⟩
        · exact Nat.lt_irrefl _ (heq ▸ hlt)
        · exact (quiet_cons_iff.mp hquiet).1 op habsorbs rfl rfl
    · -- an operator in front of a sign is a minus sign here, and the two are set apart
      refine happly (scan_join_joinAll (hcomment u List.mem_cons_self) hvs ?_) ?_
      · intro v hv hends hstarts
        have hv' : v = minus := ((List.isChain_cons.mp hchain).1 v hv hends hstarts).1
        by_cases hu : u = minus
        · exact ⟨by rw [hu]; rfl, hv'⟩
        · exact absurd ⟨hv' ▸ hv, hends, hu⟩ hsign
      · intro op hop heq hhead
        refine hsign ⟨hhead, heq ▸ endsInOperator_of_absorbsSign hop, fun hu => ?_⟩
        have hop' : op = .subtract := ofOperator_injective (heq.symm.trans hu)
        rw [hop'] at hop
        exact absurd hop (by decide)

end Content

end DeclarativeSql
