import KernelGrid.Proofs.Kernel.Operations
import KernelGrid.Proofs.Module.Decoded
import KernelGrid.Proofs.Module.Normalization

/-!
# Numbering

Ids come into a module from a stream, with placeholders for what is mentioned first, and from
the bound of its header.  Either way an id is given to one instruction, which is found by it,
and the bound stays above all of them, up to the largest word.
-/

namespace KernelGrid.Module

open Relation

variable {m m' m₀ : Module} {h : Handle}

/-- Whether every id is below the bound and leads to the one instruction that has it. -/
structure Identified (m : Module) : Prop where
  bound_pos : 1 ≤ m.header.bound
  below : ∀ h, ∀ id ∈ (m.inst h).resultId, IdBelow m.header.bound id
  indexed : m.Indexed

theorem identified_empty : empty.Identified := by
  refine ⟨by decide, fun h id hid => ?_, fun id h => ?_⟩
  · cases hid
  · simp [byId?, empty, inst, Arena.get?, Arena.empty, Inst.plain]

theorem identified_of_decode {w : List Word} (hdecode : decode w = .ok m) : m.Identified := by
  obtain ⟨version, generator, bound, schema, body, -, -, records, -, item, hm⟩ :=
    exists_endOf hdecode
  obtain ⟨origin, hA⟩ := hm.assembled hm.mentions_below
  have hheader : m.header = ⟨version, generator, max bound 1⟩ := hA.header
  refine ⟨?_, ?_, hA.stores.indexed⟩
  · rw [hheader]
    exact Word.le_max_right bound 1
  · rw [hheader]
    exact hA.named

theorem bound_le_append (i : Inst Handle) (m : Module) :
    m.header.bound ≤ (append i m).2.header.bound := by
  cases hid : i.resultId with
  | none =>
      rw [append_of_none hid]
      exact UInt32.le_refl _
  | some id =>
      rw [append_of_some hid]
      exact Word.le_max_left m.header.bound (Word.next id)

namespace Identified

variable (hm : m.Identified)

include hm

theorem unique {g : Handle} {id : ResultId} (hh : (m.inst h).resultId = some id)
    (hg : (m.inst g).resultId = some id) : h = g :=
  Option.some.inj (((hm.indexed id h).2 hh).symm.trans ((hm.indexed id g).2 hg))

theorem fresh : (m.inst h).resultId ≠ some m.header.bound := fun hid =>
  UInt32.lt_irrefl _ (hm.below h _ hid).2

theorem of_resultId (hresult : ∀ h, (m'.inst h).resultId = (m.inst h).resultId)
    (hids : m'.ids = m.ids) (hbound : m.header.bound ≤ m'.header.bound) : m'.Identified := by
  refine ⟨UInt32.le_trans hm.bound_pos hbound, fun h id hid => ?_, fun id h => ?_⟩
  · rw [hresult] at hid
    exact ⟨(hm.below h id hid).1, UInt32.lt_of_lt_of_le (hm.below h id hid).2 hbound⟩
  · rw [hresult, byId?, hids]
    exact hm.indexed id h

theorem append {i : Inst Handle} (hid : ∀ id ∈ i.resultId, m.Unused id)
    (hbound : (append i m).2.header.bound < 0xffffffff) : (Module.append i m).2.Identified := by
  have hle := bound_le_append i m
  refine ⟨UInt32.le_trans hm.bound_pos hle, ?_, hm.indexed.append ?_⟩
  · intro h id hresult
    rw [inst_append] at hresult
    split at hresult
    · refine ⟨(hid id hresult).1, ?_⟩
      rw [append_of_some hresult] at hbound ⊢
      exact UInt32.lt_of_lt_of_le
        (Word.lt_next (Word.le_max_right m.header.bound (Word.next id)) hbound)
        (Word.le_max_right m.header.bound (Word.next id))
    · exact ⟨(hm.below h id hresult).1, UInt32.lt_of_lt_of_le (hm.below h id hresult).2 hle⟩
  · intro id hresult
    cases hbyId : m.byId? id with
    | none => rfl
    | some g => exact absurd ((hm.indexed id g).1 hbyId) ((hid id hresult).2.2 g)

theorem define (type : Option Handle) (kind : Kind Handle)
    (hbound : (define type kind m).2.header.bound < 0xffffffff) :
    (Module.define type kind m).2.Identified := by
  -- The id is taken first, so that it is below the bound already when it is given away.
  have halloc : (Module.allocId m).2.Identified :=
    hm.of_resultId (fun _ => rfl) rfl (Word.le_next m.header.bound)
  rw [define_eq] at hbound ⊢
  refine halloc.append ?_ hbound
  rintro id ⟨⟩
  refine ⟨fun hzero => ?_, ?_, fun g hg => hm.fresh hg⟩
  · have hpos := hm.bound_pos
    rw [hzero] at hpos
    exact absurd hpos (by decide)
  · exact UInt32.lt_of_le_of_lt (UInt32.le_trans (Word.le_next m.header.bound)
      (bound_le_append _ (Module.allocId m).2)) hbound

end Identified

structure Renumbers (m m' : Module) : Prop where
  bound_le : m.header.bound ≤ m'.header.bound
  identified : m.Identified → m'.header.bound < 0xffffffff → m'.Identified

theorem Renumbers.refl (m : Module) : m.Renumbers m := ⟨UInt32.le_refl _, fun hm _ => hm⟩

theorem Renumbers.trans {m'' : Module} (h₁ : m.Renumbers m') (h₂ : m'.Renumbers m'') :
    m.Renumbers m'' :=
  ⟨UInt32.le_trans h₁.bound_le h₂.bound_le, fun hm hbound =>
    h₂.identified (h₁.identified hm (UInt32.lt_of_le_of_lt h₂.bound_le hbound)) hbound⟩

theorem renumbers_of_resultId (hresult : ∀ h, (m'.inst h).resultId = (m.inst h).resultId)
    (hids : m'.ids = m.ids) (hbound : m.header.bound ≤ m'.header.bound) : m.Renumbers m' :=
  ⟨hbound, fun hm _ => hm.of_resultId hresult hids hbound⟩

theorem renumbers_of_insts (hinsts : m'.insts = m.insts) (hids : m'.ids = m.ids)
    (hheader : m'.header = m.header) : m.Renumbers m' :=
  renumbers_of_resultId (fun h => by rw [inst, inst, hinsts]) hids
    (by rw [hheader]; exact UInt32.le_refl _)

theorem renumbers_append {i : Inst Handle} (hid : ∀ id ∈ i.resultId, m.Unused id) :
    m.Renumbers (append i m).2 :=
  ⟨bound_le_append i m, fun hm hbound => hm.append hid hbound⟩

theorem renumbers_define (type : Option Handle) (kind : Kind Handle) :
    m.Renumbers (define type kind m).2 := by
  refine ⟨?_, fun hm hbound => hm.define type kind hbound⟩
  rw [define_eq]
  exact UInt32.le_trans (Word.le_next m.header.bound) (bound_le_append _ (allocId m).2)

theorem renumbers_setKind (h : Handle) (kind : Kind Handle) :
    m.Renumbers (setKind h kind m).2 := by
  refine renumbers_of_resultId (fun g => ?_) rfl (UInt32.le_refl _)
  rw [inst_setKind]
  split <;> rfl

theorem Primitive.renumbers (hstep : Primitive m m') : m.Renumbers m' := by
  cases hstep with
  | allocId => exact renumbers_of_resultId (fun _ => rfl) rfl (Word.le_next m.header.bound)
  | append hid => exact renumbers_append hid
  | define type kind => exact renumbers_define type kind
  | @intern d hd =>
      rcases hrun : Module.intern d m with ⟨h, m₂⟩
      obtain ⟨-, rfl⟩ | ⟨m₁, hstored, rfl⟩ := intern_cases hrun
      · exact .refl _
      · have hdefine := renumbers_define (m := m) d.type d.kind
        rw [hstored] at hdefine
        exact hdefine.trans (renumbers_of_insts rfl rfl rfl)
  | freshStructType members =>
      exact (renumbers_define none (.typeStruct members)).trans (renumbers_of_insts rfl rfl rfl)
  | addGlobalVar pointer storage =>
      exact (renumbers_define (some pointer) (.var storage none)).trans
        (renumbers_of_insts rfl rfl rfl)
  | setMemoryModel addressing memory =>
      rcases hrun : Module.setMemoryModel addressing memory m with ⟨u, m₂⟩
      obtain ⟨h, -, rfl⟩ | ⟨-, h, m₁, hstored, rfl⟩ := setMemoryModel_cases hrun
      · exact renumbers_setKind h _
      · have happend :
            m.Renumbers (Module.append (.plain (.memoryModel addressing memory)) m).2 :=
          renumbers_append (by simp [Inst.plain])
        rw [hstored] at happend
        exact happend.trans (renumbers_of_insts rfl rfl rfl)
  | restate words hh => exact renumbers_setKind _ _
  | relist hlists =>
      obtain ⟨_, _, _, _, _, _, _, _, rfl⟩ := hlists
      exact renumbers_of_insts rfl rfl rfl
  | normalizeStorage =>
      obtain ⟨-, heq⟩ | ⟨insts, heq, hinst⟩ := m.normalizeStorage_cases
      · rw [heq]
        exact .refl m
      · rw [heq]
        refine renumbers_of_resultId (fun h => ?_) rfl (UInt32.le_refl _)
        change (({ m with insts } : Module).inst h).resultId = _
        rw [hinst]
        split
        · exact (replaces_makeUniform _).resultId
        · rfl
  | reintern => exact renumbers_of_insts rfl rfl rfl

theorem renumbers_of_steps (hsteps : ReflTransGen Primitive m m') : m.Renumbers m' := by
  induction hsteps with
  | refl => exact .refl m
  | tail _ hstep ih => exact ih.trans hstep.renumbers

/-- Whatever is done to a new module or to one that was read, ids belong to one instruction
each, which is found by its id, and the next id is free. -/
theorem identified_of_operations (hstart : m₀ = .empty ∨ ∃ w, decode w = .ok m₀)
    (hops : ReflTransGen Operation m₀ m) (hbound : m.header.bound < 0xffffffff) :
    (∀ h g id, (m.inst h).resultId = some id → (m.inst g).resultId = some id → h = g) ∧
    (∀ h, ∀ id ∈ (m.inst h).resultId, 1 ≤ id ∧ id < m.header.bound) ∧
    (∀ id h, m.byId? id = some h ↔ (m.inst h).resultId = some id) ∧
    (∀ h, (m.inst h).resultId.isSome → m.byId? (m.idOf h) = some h) ∧
    (∀ id h, m.byId? id = some h → m.idOf h = id) ∧
    m₀.header.bound ≤ m.header.bound ∧
    (∀ m', Operation m m' → m.header.bound ≤ m'.header.bound) ∧
    ∀ h, (m.inst h).resultId ≠ some (allocId m).1 := by
  have hm₀ : m₀.Identified := by
    obtain rfl | ⟨w, hdecode⟩ := hstart
    · exact identified_empty
    · exact identified_of_decode hdecode
  have hsteps := renumbers_of_steps (steps_of_operations hops)
  have hm := hsteps.identified hm₀ hbound
  refine ⟨fun h g id hh hg => hm.unique hh hg, fun h id hid => ?_, hm.indexed,
    fun h hh => hm.indexed.byId?_idOf hh, fun id h hid => idOf_eq ((hm.indexed id h).1 hid),
    hsteps.bound_le, fun m' hop => (renumbers_of_steps hop.steps).bound_le, fun h => hm.fresh⟩
  obtain ⟨hzero, hlt⟩ := hm.below h id hid
  exact ⟨Word.one_le hzero, hlt⟩

def namesOnly : List Word := [0x07230203, 0x10000, 0, 5, 0, 0x30005, 3, 0x61]

/-- The id that is only named is taken, and so are those of a type and of a constant. -/
theorem identified_of_operations_namesOnly :
    ∃ m₀ word m, decode namesOnly = .ok m₀ ∧
      m = (constant word 1 ((Request.int 32 false).make m₀).2).2 ∧ m.header.bound = 7 ∧
      (m.byId? 3).isSome ∧ (∀ id h, m.byId? id = some h ↔ (m.inst h).resultId = some id) ∧
      ∀ h, (m.inst h).resultId ≠ some (allocId m).1 := by
  have hall : (decode namesOnly).toOption.map (fun m₀ =>
      let made := (Request.int 32 false).make m₀
      let m := (constant made.1 1 made.2).2
      (m.header.bound, (m.byId? 3).isSome)) = some (7, true) := by decide +kernel
  cases hdecode : decode namesOnly with
  | error e =>
      rw [hdecode] at hall
      cases hall
  | ok m₀ =>
      rw [hdecode] at hall
      obtain ⟨hbound, hid⟩ := Prod.mk.inj (Option.some.inj hall)
      refine ⟨m₀, _, _, rfl, rfl, hbound, hid, ?_⟩
      obtain ⟨-, -, hindexed, -, -, -, -, hfresh⟩ := identified_of_operations (.inr ⟨_, hdecode⟩)
        (.tail (.single (.request (.int 32 false))) (.request (.constant _ 1)))
        (UInt32.lt_of_le_of_lt (UInt32.le_of_eq hbound) (by decide))
      exact ⟨hindexed, hfresh⟩

end KernelGrid.Module
