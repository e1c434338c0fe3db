import KernelGrid.Kernel.Cell
import KernelGrid.Proofs.Kernel.Variables
import KernelGrid.Proofs.Module.Building

/-!
# The code of a cell

The instructions that number a cell, line by line, with the declarations that they refer to.
-/

namespace KernelGrid

open KernelGrid.Module (Line)

structure CellCode where
  word : Handle
  triple : Handle
  invocationId : Handle
  numWorkgroups : Handle
  one : Handle
  groupSize : Handle
  position : Handle
  x : Handle
  y : Handle
  z : Handle
  groupSizeX : Handle
  groupSizeY : Handle
  groups : Handle
  groupsX : Handle
  groupsY : Handle
  extentX : Handle
  extentY : Handle
  rowsBelow : Handle
  row : Handle
  cellsBefore : Handle
  index : Handle

namespace CellCode

def cell (c : CellCode) : Cell := ⟨c.x, c.y, c.z, c.index, c.invocationId, c.numWorkgroups⟩

def lines (c : CellCode) : List Line :=
  [⟨c.position, some c.triple, .load c.invocationId []⟩,
    ⟨c.x, some c.word, .compositeExtract c.position [0]⟩,
    ⟨c.y, some c.word, .compositeExtract c.position [1]⟩,
    ⟨c.z, some c.word, .compositeExtract c.position [2]⟩,
    ⟨c.groupSizeX, some c.word, .compositeExtract c.groupSize [0]⟩,
    ⟨c.groupSizeY, some c.word, .compositeExtract c.groupSize [1]⟩,
    ⟨c.groups, some c.triple, .load c.numWorkgroups []⟩,
    ⟨c.groupsX, some c.word, .compositeExtract c.groups [0]⟩,
    ⟨c.groupsY, some c.word, .compositeExtract c.groups [1]⟩,
    ⟨c.extentX, some c.word, .iMul c.groupSizeX c.groupsX⟩,
    ⟨c.extentY, some c.word, .iMul c.groupSizeY c.groupsY⟩,
    ⟨c.rowsBelow, some c.word, .iMul c.extentY c.z⟩,
    ⟨c.row, some c.word, .iAdd c.y c.rowsBelow⟩,
    ⟨c.cellsBefore, some c.word, .iMul c.extentX c.row⟩,
    ⟨c.index, some c.word, .iAdd c.cellsBefore c.x⟩]

structure Operands (c : CellCode) (m : Module) : Prop where
  triple : m.Describes c.triple ⟨none, .typeVector c.word 3⟩
  invocationId : m.IsBuiltInVar c.invocationId BuiltIn.globalInvocationId
  numWorkgroups : m.IsBuiltInVar c.numWorkgroups BuiltIn.numWorkgroups
  one : m.Describes c.one ⟨some c.word, .constant [1]⟩
  groupSize : m.Describes c.groupSize ⟨some c.triple, .constantComposite [c.one, c.one, c.one]⟩

theorem Operands.extends {c : CellCode} {m m' : Module} {notes : List (Kind Handle)}
    (hc : c.Operands m) (hmm : m.Extends notes m') : c.Operands m' :=
  ⟨hmm.describes hc.triple, hmm.isBuiltInVar hc.invocationId, hmm.isBuiltInVar hc.numWorkgroups,
    hmm.describes hc.one, hmm.describes hc.groupSize⟩

end CellCode

open KernelGrid.Builder

variable {b b' : Builder}

theorem builtInVar_bind {β : Type} {builtIn : Word} {f : Handle → Build β} {r : β}
    (hm : b.module.Interns)
    (hrun : Runs (edit (Module.builtInVar builtIn) >>= f) b r b') :
    ∃ notes var b₁, b.Writes notes [] b₁ ∧ b₁.module.IsBuiltInVar var builtIn ∧
      (notes = [] ∨ b.module.insts.get? var = none ∧
        notes = [.decorate var .builtIn [builtIn]]) ∧ Runs (f var) b₁ r b' := by
  obtain ⟨var, _, hedit, hrun⟩ := runs_bind.1 hrun
  obtain ⟨m₁, hvar, rfl⟩ := runs_edit.1 hedit
  obtain ⟨notes, hadds, hdeclares, hbuiltIn, -, hnew⟩ := Module.builtInVar_adds hm hvar
  exact ⟨notes, var, _, .of_adds hadds hdeclares.code, hbuiltIn, hnew, hrun⟩

theorem Cell.emit_writes {word : Handle} {cell : Cell} (hm : b.module.Interns)
    (hrun : Runs (Cell.emit word) b cell b') :
    ∃ notes, ∃ c : CellCode, c.cell = cell ∧ c.word = word ∧ b.Writes notes c.lines b' ∧
      c.Operands b'.module ∧ Module.DeclareOnce notes ∧ notes.filter Kind.isSlot = [] := by
  obtain ⟨triple, b₁, h₁, htriple, hrun⟩ := intern_bind (Description.proper_type rfl) hm hrun
  obtain ⟨n₂, invocationId, b₂, h₂, hinvocation, hnew₂, hrun⟩ :=
    builtInVar_bind (h₁.adds.interns hm) hrun
  obtain ⟨position, b₃, h₃, hrun⟩ := pushResult_bind hrun
  obtain ⟨x, b₄, h₄, hrun⟩ := pushResult_bind hrun
  obtain ⟨y, b₅, h₅, hrun⟩ := pushResult_bind hrun
  obtain ⟨z, b₆, h₆, hrun⟩ := pushResult_bind hrun
  have hposition := (((h₁.trans h₂).trans h₃).trans ((h₄.trans h₅).trans h₆))
  have hm₆ := hposition.adds.interns hm
  obtain ⟨one, b₇, h₇, hone, hrun⟩ := intern_bind (Description.proper_constant rfl) hm₆ hrun
  have hm₇ := h₇.adds.interns hm₆
  obtain ⟨groupSize, b₈, h₈, hgroupSize, hrun⟩ :=
    intern_bind (Description.proper_constant rfl) hm₇ hrun
  obtain ⟨groupSizeX, b₉, h₉, hrun⟩ := pushResult_bind hrun
  obtain ⟨groupSizeY, b₁₀, h₁₀, hrun⟩ := pushResult_bind hrun
  have hsize := (h₉.trans h₁₀)
  obtain ⟨n₁₁, numWorkgroups, b₁₁, h₁₁, hworkgroups, hnew₁₁, hrun⟩ :=
    builtInVar_bind (hsize.adds.interns (h₈.adds.interns hm₇)) hrun
  obtain ⟨groups, b₁₂, h₁₂, hrun⟩ := pushResult_bind hrun
  obtain ⟨groupsX, b₁₃, h₁₃, hrun⟩ := pushResult_bind hrun
  obtain ⟨groupsY, b₁₄, h₁₄, hrun⟩ := pushResult_bind hrun
  obtain ⟨extentX, b₁₅, h₁₅, hrun⟩ := pushResult_bind hrun
  obtain ⟨extentY, b₁₆, h₁₆, hrun⟩ := pushResult_bind hrun
  obtain ⟨rowsBelow, b₁₇, h₁₇, hrun⟩ := pushResult_bind hrun
  obtain ⟨row, b₁₈, h₁₈, hrun⟩ := pushResult_bind hrun
  obtain ⟨cellsBefore, b₁₉, h₁₉, hrun⟩ := pushResult_bind hrun
  obtain ⟨index, b₂₀, h₂₀, hrun⟩ := pushResult_bind hrun
  obtain ⟨rfl, rfl⟩ := runs_pure.1 hrun
  have hindex := ((h₁₂.trans h₁₃).trans (h₁₄.trans h₁₅)).trans
    (((h₁₆.trans h₁₇).trans (h₁₈.trans h₁₉)).trans h₂₀)
  have hlast := (hsize.trans h₁₁).trans hindex
  refine ⟨_, ⟨word, triple, invocationId, numWorkgroups, one, groupSize, position, x, y, z,
    groupSizeX, groupSizeY, groups, groupsX, groupsY, extentX, extentY, rowsBelow, row,
    cellsBefore, index⟩, rfl, rfl, ((hposition.trans h₇).trans h₈).trans hlast,
    ⟨?_, ?_, ?_, ?_, ?_⟩, ?_, ?_⟩
  · have hrest :=
      ((h₂.trans h₃).trans ((h₄.trans h₅).trans h₆)).trans ((h₇.trans h₈).trans hlast)
    exact hrest.adds.describes htriple
  · have hrest := (h₃.trans ((h₄.trans h₅).trans h₆)).trans ((h₇.trans h₈).trans hlast)
    exact hrest.adds.isBuiltInVar hinvocation
  · exact hindex.adds.isBuiltInVar hworkgroups
  · exact (h₈.trans hlast).adds.describes hone
  · exact hlast.adds.describes hgroupSize
  · have hbetween := ((h₃.trans ((h₄.trans h₅).trans h₆)).trans (h₇.trans h₈)).trans hsize
    have hstored := Module.isSome_of_isVar (hbetween.adds.isBuiltInVar hinvocation).isVar
    simp only [List.append_nil, List.nil_append]
    refine Module.declareOnce_append hnew₂ hnew₁₁ ?_
    rintro hfresh rfl
    rw [hfresh] at hstored
    cases hstored
  · simp only [List.append_nil, List.nil_append, List.filter_append]
    obtain rfl | ⟨-, rfl⟩ := hnew₂ <;> obtain rfl | ⟨-, rfl⟩ := hnew₁₁ <;> rfl

end KernelGrid
