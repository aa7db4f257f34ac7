import DeclarativeSql.Proofs.Parameters.Glyph

/-!
# Numbering

Parameters are named by their positions and stand for different sources. A text names them in the
order of their first use, whether it is written token by token or taken over from elsewhere with its
placeholders renamed.
-/
namespace DeclarativeSql

namespace Parameter

/-- Named by position, and no two for one source. -/
structure AreNumbered (ps : List Parameter) : Prop where
  names : ps.map (·.name) = (List.range ps.length).map placeholderName
  distinct : (ps.map (·.source.id)).Nodup

/-- Going through a text that names the numbers `ns`, the parameters grow from `start` to `ps`: each
number is that of an old parameter or of the next new one. -/
inductive Numbered (start : List Parameter) : (ns : List Nat) → (ps : List Parameter) → Prop
  | start : Numbered start [] start
  | again {ns : List Nat} {ps : List Parameter} {n : Nat} (h : Numbered start ns ps)
    (hn : n < ps.length) : Numbered start (ns ++ [n]) ps
  | fresh {ns : List Nat} {ps : List Parameter} {source : ParameterSource}
    (h : Numbered start ns ps) (hnew : ∀ p ∈ ps, p.source.id ≠ source.id) :
    Numbered start (ns ++ [ps.length]) (ps ++ [⟨placeholderName ps.length, source⟩])

theorem placeholderName_injective : Function.Injective placeholderName := by
  intro m n h
  have hm := (Spells.placeholderName m).numbersIn
  rw [h, (Spells.placeholderName n).numbersIn] at hm
  exact (List.singleton_inj.mp hm).symm

namespace AreNumbered

variable {ps : List Parameter}

theorem nil : AreNumbered [] := ⟨rfl, .nil⟩

theorem push (h : AreNumbered ps) {source : ParameterSource}
    (hnew : ∀ p ∈ ps, p.source.id ≠ source.id) :
    AreNumbered (ps ++ [⟨placeholderName ps.length, source⟩]) := by
  constructor
  · rw [List.map_append, h.names, List.length_append, List.length_singleton, List.range_succ,
      List.map_append]
    rfl
  · rw [List.map_append]
    refine List.nodup_append.mpr ⟨h.distinct, List.pairwise_singleton _ _, ?_⟩
    intro x hx y hy
    obtain ⟨p, hp, rfl⟩ := List.mem_map.mp hx
    rw [List.mem_singleton.mp hy]
    exact hnew p hp

theorem name_getElem (h : AreNumbered ps) {n : Nat} (hn : n < ps.length) :
    ps[n].name = placeholderName n := by
  have hname := congrArg (·[n]?) h.names
  simpa [hn] using hname

theorem named?_placeholderName (h : AreNumbered ps) (n : Nat) :
    named? ps (placeholderName n) = ps[n]? := by
  have hname : ∀ {i} (hi : i < ps.length), ps[i].name = placeholderName n ↔ i = n := by
    intro i hi
    rw [h.name_getElem hi]
    exact placeholderName_injective.eq_iff
  by_cases hn : n < ps.length
  · rw [List.getElem?_eq_getElem hn, named?, List.find?_eq_some_iff_getElem]
    refine ⟨by simpa using (hname hn).mpr rfl, n, hn, rfl, fun j hj => ?_⟩
    have hne := mt (hname (hj.trans hn)).mp (Nat.ne_of_lt hj)
    simpa using hne
  · rw [List.getElem?_eq_none (Nat.le_of_not_lt hn), named?, List.find?_eq_none]
    intro p hp
    obtain ⟨i, hi, rfl⟩ := List.getElem_of_mem hp
    have hne := mt (hname hi).mp fun he => hn (he ▸ hi)
    simpa using hne

end AreNumbered

namespace Numbered

variable {start ps : List Parameter} {ns ms : List Nat}

theorem areNumbered (h : Numbered start ns ps) (hstart : AreNumbered start) : AreNumbered ps := by
  induction h with
  | start => exact hstart
  | again _ _ ih => exact ih
  | fresh _ hnew ih => exact ih.push hnew

theorem length_le (h : Numbered start ns ps) : start.length ≤ ps.length := by
  induction h with
  | start => exact le_rfl
  | again _ _ ih => exact ih
  | fresh _ _ ih =>
    rw [List.length_append]
    exact ih.trans (Nat.le_add_right _ _)

theorem lt_length (h : Numbered start ns ps) : ∀ n ∈ ns, n < ps.length := by
  induction h with
  | start => simp
  | again _ hn ih => simpa using fun n hn' => hn'.elim (ih n) fun he => he ▸ hn
  | fresh _ _ ih =>
    intro n hn
    rw [List.length_append, List.length_singleton]
    rcases List.mem_append.mp hn with hn | hn
    · exact Nat.lt_succ_of_lt (ih n hn)
    · rw [List.mem_singleton.mp hn]
      exact Nat.lt_succ_self _

theorem named (h : Numbered start ns ps) {n : Nat} (hn : n < ps.length) :
    n < start.length ∨ n ∈ ns := by
  induction h with
  | start => exact .inl hn
  | again _ _ ih => exact (ih hn).imp_right (List.mem_append_left _)
  | @fresh ns ps source _ _ ih =>
    rw [List.length_append, List.length_singleton] at hn
    rcases Nat.lt_succ_iff_lt_or_eq.mp hn with hn | rfl
    · exact (ih hn).imp_right (List.mem_append_left _)
    · exact .inr List.mem_concat_self

/-- Parameters that are known already may be named at will. -/
theorem known (h : Numbered start ns ps) (hms : ∀ n ∈ ms, n < ps.length) :
    Numbered start (ns ++ ms) ps := by
  induction ms generalizing ns with
  | nil => simpa using h
  | cons m ms ih =>
    have hnext := h.again (hms m List.mem_cons_self)
    simpa using ih hnext fun n hn => hms n (List.mem_cons_of_mem _ hn)

/-- From no parameters on, the numbers are first named in increasing order. -/
theorem eraseDups (h : Numbered [] ns ps) : ns.eraseDups = List.range ps.length := by
  induction h with
  | start => rfl
  | @again ns ps n _ hn ih =>
    have hmem : n ∈ ns := List.mem_eraseDups.mp (ih ▸ List.mem_range.mpr hn)
    simp [List.eraseDups_append, List.removeAll, hmem, ih]
  | @fresh ns ps source h _ ih =>
    have hmem : ps.length ∉ ns := fun hn => Nat.lt_irrefl _ (h.lt_length _ hn)
    simp [List.eraseDups_append, List.eraseDups_cons, List.removeAll, hmem, ih, List.range_succ]

end Numbered

/-- A source has the number of its parameter, which is the next one if it is new. -/
theorem register_numbered {start ps : List Parameter} {ns : List Nat} (hps : AreNumbered ps)
    (h : Numbered start ns ps) (source : ParameterSource) :
    ∃ n ps', register ps source = (placeholderName n, ps') ∧ Numbered start (ns ++ [n]) ps' := by
  unfold register
  cases hfind : standingFor? ps source.id with
  | some p =>
    obtain ⟨n, hn, rfl⟩ := List.getElem_of_mem (List.mem_of_find?_eq_some hfind)
    exact ⟨n, ps, congrArg (·, ps) (hps.name_getElem hn), h.again hn⟩
  | none =>
    refine ⟨ps.length, _, rfl, h.fresh fun p hp => ?_⟩
    simpa using List.find?_eq_none.mp hfind p hp

end Parameter

namespace Glyph

/-- The same character, or placeholders both. -/
def Alike : Glyph → Glyph → Prop
  | char c, char d => c = d
  | parameter _, parameter _ => True
  | _, _ => False

theorem isPlain_of_alike {g h : Glyph} (hgh : Alike g h) (hg : g.IsPlain) : h.IsPlain := by
  cases g <;> cases h <;> simp_all [Alike, IsPlain]

theorem apart_of_alike {g g' h h' : Glyph} (hg : Alike g g') (hh : Alike h h')
    (hapart : Apart g h) : Apart g' h' := by
  rintro n c rfl rfl
  cases g with
  | char => cases hg
  | parameter m =>
    cases h with
    | parameter => cases hh
    | char d => exact hh ▸ hapart m d rfl rfl

theorem areLegible_of_alike {gs hs : List Glyph} (h : List.Forall₂ Alike gs hs)
    (hgs : AreLegible gs) : AreLegible hs := by
  induction h with
  | nil => exact hgs
  | @cons g g' gs hs hg hrest ih =>
    have htail := ih hgs.tail
    constructor
    · intro x hx
      rcases List.mem_cons.mp hx with rfl | hx
      · exact isPlain_of_alike hg (hgs.plain g List.mem_cons_self)
      · exact htail.plain x hx
    · cases hrest with
      | nil => exact .singleton _
      | cons hh _ =>
        have hapart := (List.isChain_cons_cons.mp hgs.apart).1
        exact List.isChain_cons_cons.mpr ⟨apart_of_alike hg hh hapart, htail.apart⟩

end Glyph

namespace CodeBuffer

open Parameter

/-- Renaming keeps all characters and goes on with the numbering. -/
theorem rename_numbered {given start : List Parameter} (hgiven : AreNumbered given)
    (hstart : AreNumbered start) {gs : List Glyph}
    (hknown : ∀ n, .parameter n ∈ gs → n < given.length) {b : CodeBuffer} {ns : List Nat}
    (h : Numbered start ns b.parameters) :
    ∃ hs ps,
      b.rename given (gs.map Glyph.part) = (.ok (Glyph.text hs), { b with parameters := ps }) ∧
      List.Forall₂ Glyph.Alike gs hs ∧ Numbered start (ns ++ hs.filterMap Glyph.number?) ps := by
  induction gs generalizing b ns with
  | nil => exact ⟨[], b.parameters, rfl, .nil, by simpa using h⟩
  | cons g gs ih =>
    have hrest : ∀ n, .parameter n ∈ gs → n < given.length :=
      fun n hn => hknown n (List.mem_cons_of_mem _ hn)
    cases g with
    | char c =>
      obtain ⟨hs, ps, heq, halike, hnum⟩ := ih hrest h
      refine ⟨.char c :: hs, ps, ?_, .cons rfl halike, hnum⟩
      rw [List.map_cons, Glyph.part, rename, heq]
      rfl
    | parameter n =>
      have hn : n < given.length := hknown n List.mem_cons_self
      obtain ⟨m, ps, hregister, hnum⟩ :=
        register_numbered (h.areNumbered hstart) h given[n].source
      obtain ⟨hs, ps', heq, halike, hnum'⟩ := ih (b := { b with parameters := ps }) hrest hnum
      refine ⟨.parameter m :: hs, ps', ?_, .cons trivial halike, ?_⟩
      · have hname : named? given (String.ofList (Glyph.part (.parameter n)).chars) =
            some given[n] := by
          have hchars : String.ofList (Glyph.part (.parameter n)).chars = placeholderName n := by
            rw [← toList_placeholderName, String.ofList_toList]
          rw [hchars, hgiven.named?_placeholderName, List.getElem?_eq_getElem hn]
        rw [List.map_cons, Glyph.part, rename]
        rw [Glyph.part] at hname
        simp only [hname, CodeBuffer.register, hregister, heq, toList_placeholderName]
        rfl
      · simpa [Glyph.number?] using hnum'

end CodeBuffer

end DeclarativeSql
