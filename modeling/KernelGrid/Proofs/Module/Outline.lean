import KernelGrid.Module.Assembly
import KernelGrid.Proofs.Module.Places
import Mathlib.Tactic.ByContra

/-!
# Outlines

How a module lists its instructions: by section, and in functions with parameters and labelled
blocks.  The outline of a function can be told from the opcodes of what it lists.
-/

namespace KernelGrid

open KernelGrid.Stream

/-! ## Sections -/

namespace Section

def handles (m : Module) : Section → List Handle
  | capabilities => m.capabilities
  | extensions => m.extensions
  | extInstImports => m.extInstImports
  | memoryModel => m.memoryModel.toList
  | executionModes => m.executionModes
  | debug => m.debug
  | annotations => m.annotations
  | globals => m.globals

/-- What a section holds in the end of all that goes there: of several memory models the last. -/
def keep {α : Type} (s : Section) (xs : List α) : List α :=
  if s = memoryModel then xs.getLast?.toList else xs

theorem handles_add (s t : Section) (h : Handle) (m : Module) :
    t.handles (s.add h m) =
      if s = t then (if t = memoryModel then [h] else t.handles m ++ [h]) else t.handles m := by
  cases s <;> cases t <;> rfl

theorem keep_concat {α : Type} (s : Section) (xs : List α) (x : α) :
    s.keep (xs ++ [x]) = if s = memoryModel then [x] else s.keep xs ++ [x] := by
  by_cases hs : s = memoryModel
  · simp [keep, hs]
  · simp [keep, hs]

theorem eq_of_memoryModel {op : Opcode} (hop : ofOpcode op = memoryModel) :
    op = Form.memoryModel.opcode := by
  by_contra hne
  simp only [ofOpcode, hne, if_false] at hop
  repeat
    split at hop
    · cases hop
  cases hop

@[simp] theorem insts_add (s : Section) (h : Handle) (m : Module) :
    (s.add h m).insts = m.insts := by
  cases s <;> rfl

@[simp] theorem ids_add (s : Section) (h : Handle) (m : Module) : (s.add h m).ids = m.ids := by
  cases s <;> rfl

@[simp] theorem header_add (s : Section) (h : Handle) (m : Module) :
    (s.add h m).header = m.header := by
  cases s <;> rfl

@[simp] theorem entryPoints_add (s : Section) (h : Handle) (m : Module) :
    (s.add h m).entryPoints = m.entryPoints := by
  cases s <;> rfl

@[simp] theorem functions_add (s : Section) (h : Handle) (m : Module) :
    (s.add h m).functions = m.functions := by
  cases s <;> rfl

end Section

/-! ## Functions -/

namespace FunctionDef

def handles (f : FunctionDef) : List Handle :=
  f.function :: f.parameters ++ f.blocks.flatMap fun b => b.label :: b.body

def outlineOpcodes : List Opcode :=
  [Form.function.opcode, Form.functionParameter.opcode, Form.label.opcode]

structure Shaped (op : Handle → Opcode) (f : FunctionDef) : Prop where
  function : op f.function = Form.function.opcode
  parameters : ∀ p ∈ f.parameters, op p = Form.functionParameter.opcode
  labels : ∀ b ∈ f.blocks, op b.label = Form.label.opcode
  bodies : ∀ b ∈ f.blocks, ∀ h ∈ b.body, op h ∉ outlineOpcodes

theorem Shaped.congr {op op' : Handle → Opcode} {f : FunctionDef} (hf : f.Shaped op)
    (h : ∀ g ∈ f.handles, op' g = op g) : f.Shaped op' := by
  simp only [handles, List.cons_append, List.forall_mem_cons, List.forall_mem_append,
    List.mem_flatMap, forall_exists_index, and_imp] at h
  constructor
  · rw [h.1, hf.function]
  · intro p hp
    rw [h.2.1 p hp, hf.parameters p hp]
  · intro b hb
    rw [h.2.2 b.label b hb List.mem_cons_self, hf.labels b hb]
  · intro b hb g hg
    rw [h.2.2 g b hb (List.mem_cons_of_mem _ hg)]
    exact hf.bodies b hb g hg

end FunctionDef

namespace OpenFunction

structure Shaped (op : Handle → Opcode) (f : OpenFunction) : Prop where
  close : f.close.Shaped op
  header : f.block = none → f.definition.blocks = []

def position (f : OpenFunction) : Position := if f.block.isSome then .blocks else .header

theorem position_ne_outside (f : OpenFunction) : f.position ≠ .outside := by
  rw [position]
  split <;> simp

theorem close_eq_of_header {f : OpenFunction} (hb : f.block = none) :
    f.close = f.definition := by
  rw [close, hb]
  simp

theorem Shaped.addParameter {op : Handle → Opcode} {f : OpenFunction} {h : Handle}
    (hf : f.Shaped op) (hop : op h = Form.functionParameter.opcode)
    (hblocks : f.close.blocks = []) :
    let f' := { f with definition.parameters := f.definition.parameters ++ [h] }
    f'.Shaped op ∧ f'.close.handles = f.close.handles ++ [h] := by
  obtain ⟨⟨function, parameters, blocks⟩, block⟩ := f
  have hnone : block = none := by
    cases block with
    | none => rfl
    | some b => simp [OpenFunction.close] at hblocks
  subst hnone
  obtain rfl : blocks = [] := by simpa [OpenFunction.close] using hblocks
  have hparameters : ∀ p ∈ parameters ++ [h], op p = Form.functionParameter.opcode := by
    intro p hp
    rw [List.mem_append, List.mem_singleton] at hp
    obtain hp | rfl := hp
    · exact hf.close.parameters p hp
    · exact hop
  refine ⟨⟨⟨hf.close.function, hparameters, ?_, ?_⟩, fun _ => rfl⟩, ?_⟩
  · simp [OpenFunction.close]
  · simp [OpenFunction.close]
  · simp [OpenFunction.close, FunctionDef.handles]

theorem Shaped.addLabel {op : Handle → Opcode} {f : OpenFunction} {h : Handle}
    (hf : f.Shaped op) (hop : op h = Form.label.opcode) :
    let f' : OpenFunction := ⟨f.close, some ⟨h, []⟩⟩
    f'.Shaped op ∧ f'.close.handles = f.close.handles ++ [h] := by
  have hclose : (⟨f.close, some ⟨h, []⟩⟩ : OpenFunction).close =
      { f.close with blocks := f.close.blocks ++ [⟨h, []⟩] } := rfl
  refine ⟨⟨⟨hf.close.function, hf.close.parameters, ?_, ?_⟩, by simp⟩, ?_⟩
  · rw [hclose, List.forall_mem_append]
    exact ⟨hf.close.labels, by simpa using hop⟩
  · rw [hclose, List.forall_mem_append]
    exact ⟨hf.close.bodies, by simp⟩
  · rw [hclose]
    simp [FunctionDef.handles]

theorem Shaped.addBody {op : Handle → Opcode} {f : OpenFunction} {b : Block} {h : Handle}
    (hf : f.Shaped op) (hblock : f.block = some b) (hop : op h ∉ FunctionDef.outlineOpcodes) :
    let f' := { f with block := some { b with body := b.body ++ [h] } }
    f'.Shaped op ∧ f'.close.handles = f.close.handles ++ [h] := by
  obtain ⟨definition, block⟩ := f
  subst hblock
  have hlabels := hf.close.labels
  have hbodies := hf.close.bodies
  simp only [OpenFunction.close, Option.toList_some, List.forall_mem_append,
    List.forall_mem_singleton] at hlabels hbodies
  refine ⟨⟨⟨hf.close.function, hf.close.parameters, ?_, ?_⟩, by simp⟩, ?_⟩
  · simp only [OpenFunction.close, Option.toList_some, List.forall_mem_append,
      List.forall_mem_singleton]
    exact hlabels
  · simp only [OpenFunction.close, Option.toList_some, List.forall_mem_append,
      List.forall_mem_singleton]
    exact ⟨hbodies.1, hbodies.2, hop⟩
  · simp [OpenFunction.close, FunctionDef.handles]

theorem Shaped.add_spec {op : Handle → Opcode} {f f' : OpenFunction} {h : Handle}
    (hf : f.Shaped op) (hadd : f.add (op h) h = .ok f') :
    f'.Shaped op ∧ f'.close.handles = f.close.handles ++ [h] ∧
      op h ≠ Form.function.opcode ∧
      f'.position = if op h = Form.label.opcode then .blocks else f.position := by
  unfold add at hadd
  split at hadd
  · cases hadd
  rename_i hfunction
  split at hadd
  · rename_i hparameter
    split at hadd
    · rename_i hblocks
      cases hadd
      obtain ⟨hshaped, hhandles⟩ := hf.addParameter hparameter (by simpa using hblocks)
      refine ⟨hshaped, hhandles, hfunction, ?_⟩
      rw [if_neg (by rw [hparameter]; decide)]
      rfl
    · cases hadd
  rename_i hparameter
  split at hadd
  · rename_i hlabel
    cases hadd
    obtain ⟨hshaped, hhandles⟩ := hf.addLabel hlabel
    exact ⟨hshaped, hhandles, hfunction, (if_pos hlabel).symm⟩
  rename_i hlabel
  split at hadd
  · rename_i b hblock
    cases hadd
    have hbody : op h ∉ FunctionDef.outlineOpcodes := by
      simp [FunctionDef.outlineOpcodes, hfunction, hparameter, hlabel]
    obtain ⟨hshaped, hhandles⟩ := hf.addBody hblock hbody
    refine ⟨hshaped, hhandles, hfunction, ?_⟩
    rw [if_neg hlabel, position, position, hblock]
    rfl
  · cases hadd

/-- Parameters can be added in front of the blocks, bodies behind a label. -/
theorem Shaped.exists_add {op : Handle → Opcode} {f : OpenFunction} {h : Handle}
    (hf : f.Shaped op) (hfunction : op h ≠ Form.function.opcode)
    (hheader : f.position = .header → op h = Form.functionParameter.opcode ∨
      op h = Form.label.opcode)
    (hblocks : f.position = .blocks → op h ≠ Form.functionParameter.opcode) :
    ∃ f', f.add (op h) h = .ok f' := by
  unfold add
  rw [if_neg hfunction]
  cases hblock : f.block with
  | none =>
      have hempty : f.close.blocks.isEmpty := by
        rw [close_eq_of_header hblock, hf.header hblock]
        rfl
      obtain hop | hop := hheader (by simp [position, hblock])
      · rw [if_pos hop, if_pos hempty]
        exact ⟨_, rfl⟩
      · rw [if_neg (by rw [hop]; decide), if_pos hop]
        exact ⟨_, rfl⟩
  | some b =>
      rw [if_neg (hblocks (by simp [position, hblock]))]
      split
      · exact ⟨_, rfl⟩
      · exact ⟨_, rfl⟩

end OpenFunction

end KernelGrid
