import KernelGrid.Proofs.Module.Additions
import KernelGrid.Proofs.Module.Outline
import Mathlib.Logic.Relation

/-!
# Handles

A module is contained if every handle that it holds, wherever it holds it, stands for one of
its own instructions.  It stays so as long as it is given nothing but handles of its own.
-/

namespace KernelGrid

namespace Description

def references (d : Description) : List Handle := d.type.toList ++ d.kind.references

end Description

/-- The types whose values are part of every value of this type. -/
def Kind.parts : Kind Handle → List Handle
  | typeVector component _ => [component]
  | typeArray element _ => [element]
  | typeStruct members => members
  | _ => []

theorem Kind.mem_references_of_mem_parts {k : Kind Handle} {u : Handle} (hu : u ∈ k.parts) :
    u ∈ k.references := by
  cases k
  case typeVector | typeArray | typeStruct =>
    simp_all [parts, references, operands, List.filterMap_cons]
  all_goals cases hu

namespace Module

open Relation

variable {m m' : Module} {h g : Handle}

def Owns (m : Module) (h : Handle) : Prop := h.index < m.insts.size

instance (m : Module) (h : Handle) : Decidable (m.Owns h) := inferInstanceAs (Decidable (_ < _))

theorem owns_iff : m.Owns h ↔ (m.insts.get? h).isSome := by
  rw [Owns, Arena.get?, Arena.size, isSome_getElem?]

theorem mem_handles : h ∈ m.insts.handles ↔ m.Owns h := by
  refine List.mem_map.trans ⟨?_, fun hh => ⟨h.index, List.mem_range.2 hh, rfl⟩⟩
  rintro ⟨i, hi, rfl⟩
  exact List.mem_range.1 hi

theorem inst_of_not_owns (hh : ¬m.Owns h) : m.inst h = .plain .placeholder := by
  rw [owns_iff, Option.not_isSome_iff_eq_none] at hh
  rw [inst, hh, Option.getD_none]

/-- Whether all handles that a module holds are its own. -/
structure Contained (m : Module) : Prop where
  references : ∀ h, ∀ r ∈ (m.inst h).references, m.Owns r
  sections : ∀ s : Section, ∀ h ∈ s.handles m, m.Owns h
  entryPoints : ∀ e ∈ m.entryPoints, ∀ r ∈ e.references, m.Owns r
  functions : ∀ f ∈ m.functions, ∀ h ∈ f.handles, m.Owns h
  ids : ∀ id h, m.byId? id = some h → m.Owns h
  interned : ∀ d h, (d, h) ∈ m.interned → m.Owns h ∧ ∀ r ∈ d.references, m.Owns r
  distinct : ∀ h ∈ m.distinct, m.Owns h

/-! ## Elementary changes -/

/-- An elementary change outside functions, given nothing but handles of the module.  What is
changed in place gets no new parts. -/
inductive Move (m : Module) : Module → Prop
  | allocId : Move m (allocId m).2
  | append {i : Inst Handle} (hi : ∀ r ∈ i.references, m.Owns r) : Move m (append i m).2
  | change {h : Handle} {f : Inst Handle → Inst Handle} (hh : m.Owns h)
    (hreferences : ∀ r ∈ (f (m.inst h)).references, m.Owns r)
    (hparts : ∀ u ∈ (f (m.inst h)).kind.parts, u ∈ (m.inst h).kind.parts) :
    Move m { m with insts := m.insts.modify h f }
  | list {m' : Module}
    (hm' : ∃ capabilities extensions extInstImports memoryModel executionModes debug annotations
      globals, m' = { m with capabilities, extensions, extInstImports, memoryModel,
                             executionModes, debug, annotations, globals })
    (hlists : ∀ s : Section, ∀ h ∈ s.handles m', m.Owns h) : Move m m'
  | enter {entryPoints : List (EntryPoint Handle)}
    (hentries : ∀ e ∈ entryPoints, ∀ r ∈ e.references, m.Owns r) : Move m { m with entryPoints }
  | tabulate {interned : List (Description × Handle)} {distinct : List Handle}
    (hinterned : ∀ d h, (d, h) ∈ interned → m.Owns h ∧ ∀ r ∈ d.references, m.Owns r)
    (hdistinct : ∀ h ∈ distinct, m.Owns h) : Move m { m with interned, distinct }

theorem owns_append (i : Inst Handle) :
    (append i m).2.Owns h ↔ h = m.insts.nextHandle ∨ m.Owns h := by
  rw [owns_iff, insts_append, Arena.get?_push, owns_iff]
  by_cases hh : h = m.insts.nextHandle
  · simp [hh]
  · simp [hh]

theorem owns_modify (f : Inst Handle → Inst Handle) :
    ({ m with insts := m.insts.modify g f } : Module).Owns h ↔ m.Owns h := by
  rw [Owns, Arena.size_modify, Owns]

theorem Move.owns (hmove : m.Move m') (hh : m.Owns h) : m'.Owns h := by
  cases hmove with
  | append => exact (owns_append _).2 (.inr hh)
  | change => exact (owns_modify _).2 hh
  | list hm' =>
      obtain ⟨_, _, _, _, _, _, _, _, rfl⟩ := hm'
      exact hh
  | allocId | enter | tabulate => exact hh

theorem Contained.append (hm : m.Contained) {i : Inst Handle}
    (hi : ∀ r ∈ i.references, m.Owns r) : (append i m).2.Contained := by
  have howns {h : Handle} (hh : m.Owns h) : (Module.append i m).2.Owns h :=
    (owns_append i).2 (.inr hh)
  obtain ⟨bound, insts, ids, hframe⟩ := append_frame i m
  refine ⟨fun h r hr => howns ?_, fun s h hh => howns (hm.sections s h ?_),
    fun e he r hr => howns (hm.entryPoints e ?_ r hr),
    fun f hf h hh => howns (hm.functions f ?_ h hh), fun id h hh => ?_, fun d h hh => ?_,
    fun h hh => howns (hm.distinct h ?_)⟩
  · rw [inst_append] at hr
    split at hr
    · exact hi r hr
    · exact hm.references h r hr
  · rw [hframe] at hh
    cases s <;> exact hh
  · rwa [hframe] at he
  · rwa [hframe] at hf
  · rw [byId?_append] at hh
    split at hh
    · exact (owns_append i).2 (.inl (Option.some.inj hh).symm)
    · exact howns (hm.ids id h hh)
  · rw [hframe] at hh
    obtain ⟨hd, hreferences⟩ := hm.interned d h hh
    exact ⟨howns hd, fun r hr => howns (hreferences r hr)⟩
  · rwa [hframe] at hh

theorem Contained.modify (hm : m.Contained) {f : Inst Handle → Inst Handle}
    (hf : ∀ r ∈ (f (m.inst h)).references, m.Owns r) :
    ({ m with insts := m.insts.modify h f } : Module).Contained := by
  have howns {g : Handle} (hg : m.Owns g) :
    ({ m with insts := m.insts.modify h f } : Module).Owns g :=
    (owns_modify f).2 hg
  refine ⟨fun g r hr => howns ?_, fun s g hg => howns (hm.sections s g ?_),
    fun e he r hr => howns (hm.entryPoints e he r hr),
    fun d hd g hg => howns (hm.functions d hd g hg), fun id g hg => howns (hm.ids id g hg),
    fun d g hg => ?_, fun g hg => howns (hm.distinct g hg)⟩
  · rw [inst_modify] at hr
    split at hr
    · rename_i heq
      rw [← heq.1] at hr
      exact hf r hr
    · exact hm.references g r hr
  · cases s <;> exact hg
  · obtain ⟨hown, hreferences⟩ := hm.interned d g hg
    exact ⟨howns hown, fun r hr => howns (hreferences r hr)⟩

theorem Move.contained (hmove : m.Move m') (hm : m.Contained) : m'.Contained := by
  cases hmove with
  | allocId =>
      refine ⟨hm.references, fun s h hh => hm.sections s h ?_, hm.entryPoints,
        hm.functions, hm.ids, hm.interned, hm.distinct⟩
      cases s <;> exact hh
  | append hi => exact hm.append hi
  | change hh hreferences => exact hm.modify hreferences
  | list hm' hlists =>
      obtain ⟨_, _, _, _, _, _, _, _, rfl⟩ := hm'
      exact ⟨hm.references, hlists, hm.entryPoints, hm.functions, hm.ids, hm.interned,
        hm.distinct⟩
  | enter hentries =>
      refine ⟨hm.references, fun s h hh => hm.sections s h ?_, hentries, hm.functions, hm.ids,
        hm.interned, hm.distinct⟩
      cases s <;> exact hh
  | tabulate hinterned hdistinct =>
      refine ⟨hm.references, fun s h hh => hm.sections s h ?_, hm.entryPoints,
        hm.functions, hm.ids, hinterned, hdistinct⟩
      cases s <;> exact hh

theorem Move.functions (hmove : m.Move m') : m'.functions = m.functions := by
  cases hmove with
  | @append i =>
      obtain ⟨bound, insts, ids, hframe⟩ := append_frame i m
      rw [hframe]
  | list hm' =>
      obtain ⟨_, _, _, _, _, _, _, _, rfl⟩ := hm'
      rfl
  | allocId | change | enter | tabulate => rfl

end Module

end KernelGrid
