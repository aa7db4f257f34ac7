import DeclarativeSql.Proofs.Query.Links
import Mathlib.Logic.Relation

/-!
# Steps

All that operations do to the trees is made of four steps. One that is refused may have done some of
them already.
-/
namespace DeclarativeSql

namespace Arena

inductive Step : Arena → Arena → Prop
  | create {a : Arena} {kind : NodeKind} :
    a.checkCreate kind = .ok () → Step a ((a.registerAll kind.table?).push kind)
  | addSource {a : Arena} (t : Table) : Step a (a.addSource t).2
  | cut {a : Arena} (id : NodeId) : Step a (a.cut id)
  | attach {a : Arena} {parent child : NodeId} :
    a.checkAttach parent child = .ok () → Step a ((a.cut child).graft parent child)

/-- The second arena comes from the first by steps. -/
def Leads : Arena → Arena → Prop := Relation.ReflTransGen Step

theorem Leads.refl (a : Arena) : a.Leads a := Relation.ReflTransGen.refl

theorem Leads.trans {a b c : Arena} (hab : a.Leads b) (hbc : b.Leads c) : a.Leads c :=
  Relation.ReflTransGen.trans hab hbc

theorem Step.leads {a b : Arena} (h : Step a b) : a.Leads b := .single h

theorem Leads.preserves {P : Arena → Prop} (hstep : ∀ a b, Step a b → P a → P b) {a b : Arena}
    (h : a.Leads b) (ha : P a) : P b := by
  induction h with
  | refl => exact ha
  | tail _ hs ih => exact hstep _ _ hs ih

section Operations

variable (a : Arena)

theorem leads_attach (parent child : NodeId) : a.Leads (a.attach parent child).2 := by
  unfold attach
  rcases hcheck : a.checkAttach parent child with e | ⟨⟩
  · exact .refl a
  · exact (Step.attach hcheck).leads

theorem leads_detach (id : NodeId) : a.Leads (a.detach id).2 := by
  unfold detach
  cases a.node id with
  | error e => exact .refl a
  | ok n => exact (Step.cut id).leads

/-- Nodes that were attached before one is refused stay where they are. -/
theorem leads_attachAll (parent : NodeId) (ids : List NodeId) :
    a.Leads (a.attachAll parent ids).2 := by
  induction ids generalizing a with
  | nil => exact .refl a
  | cons child rest ih =>
    have hstep := a.leads_attach parent child
    unfold attachAll
    rcases hattach : a.attach parent child with ⟨e | ⟨⟩, b⟩
    · rw [hattach] at hstep
      exact hstep
    · rw [hattach] at hstep
      exact hstep.trans (ih b)

theorem leads_create (kind : NodeKind) : a.Leads (a.create kind).2 := by
  unfold create
  rcases hcheck : a.checkCreate kind with e | ⟨⟩
  · exact .refl a
  · have hall := (Step.create hcheck).leads.trans
      (leads_attachAll ((a.registerAll kind.table?).push kind) a.size kind.subqueries)
    dsimp only
    rcases hattach : ((a.registerAll kind.table?).push kind).attachAll a.size kind.subqueries with
      ⟨e | ⟨⟩, b⟩
    · rw [hattach] at hall
      exact hall
    · rw [hattach] at hall
      exact hall

theorem leads_createBelow (parent : NodeId) (kind : NodeKind) :
    a.Leads (a.createBelow parent kind).2 := by
  unfold createBelow
  rcases a.checkPlace parent kind none with e | ⟨⟩
  · exact .refl a
  · have hcreate := a.leads_create kind
    rcases hkind : a.create kind with ⟨e | id, b⟩
    · rw [hkind] at hcreate
      exact hcreate
    · rw [hkind] at hcreate
      have hattach := hcreate.trans (b.leads_attach parent id)
      rcases hparent : b.attach parent id with ⟨e | ⟨⟩, c⟩
      · rw [hparent] at hattach
        simp only [hparent]
        exact hattach
      · rw [hparent] at hattach
        simp only [hparent]
        exact hattach

theorem leads_apply (op : Operation) : a.Leads (a.apply op).2 := by
  cases op with
  | source t => exact (Step.addSource t).leads
  | create kind => exact a.leads_create kind
  | createBelow parent kind => exact a.leads_createBelow parent kind
  | attach parent child => exact a.leads_attach parent child
  | detach id => exact a.leads_detach id

theorem leads_run (operations : List Operation) : a.Leads (a.run operations) := by
  unfold run
  induction operations generalizing a with
  | nil => exact .refl a
  | cons op operations ih => exact (a.leads_apply op).trans (ih (a.apply op).2)

end Operations

end Arena

end DeclarativeSql
