import KernelGrid.Kernel.Entry
import KernelGrid.Proofs.Kernel.CellCode

/-!
# The code of an entry point

What the block of an entry point consists of: the code of the cell, one access for each input,
the call, and one access for the output.
-/

namespace KernelGrid

open KernelGrid.Module (Line)

namespace Signature

variable {s : Signature}

theorem intersects_of_contains {flag mask : Signature} (hs : s.contains flag)
    (hmask : mask.contains flag) (hflag : flag.bits ≠ 0) : s.intersects mask := by
  rw [contains, decide_eq_true_eq] at hs hmask
  rw [intersects, decide_eq_true_eq]
  intro hzero
  refine hflag ?_
  calc flag.bits = s.bits &&& (mask.bits &&& flag.bits) := by rw [hmask, hs]
    _ = (s.bits &&& mask.bits) &&& flag.bits := (UInt32.and_assoc ..).symm
    _ = 0 := by rw [hzero, UInt32.zero_and]

theorem needsIndex_of_output (hs : s.contains .output) : s.needsIndex :=
  intersects_of_contains hs (by decide) (by decide)

theorem needsIndex_of_x (hs : s.contains .x) : s.needsIndex :=
  intersects_of_contains hs (by decide) (by decide)

end Signature

/-! ## Accesses -/

structure Access where
  buffer : Handle
  element : Handle
  binding : Word
  type : Handle
  indices : List Handle
  pointer : Handle
  transfer : Handle

namespace Access

def chain (a : Access) : Line := ⟨a.pointer, some a.type, .accessChain a.buffer a.indices⟩

def readLines (a : Access) : List Line :=
  [a.chain, ⟨a.transfer, some a.element, .load a.pointer []⟩]

def writeLines (a : Access) (object : Handle) : List Line :=
  [a.chain, ⟨a.transfer, none, .store a.pointer object []⟩]

def slotNotes (a : Access) : List (Kind Handle) := Module.slotNotes a.buffer a.binding

/-- Whether the access goes to a buffer of its element, through a pointer of that type. -/
structure Operands (a : Access) (m : Module) (notes : List (Kind Handle)) : Prop where
  buffer : m.IsBuffer notes a.buffer a.element a.binding
  type : m.Describes a.type ⟨none, .typePointer .uniform a.element⟩

variable {a : Access} {m m' m₀ m₁ : Module} {notes notes' : List (Kind Handle)}

theorem Operands.adds (ha : a.Operands m notes) (hmm : m.Adds notes' m') :
    a.Operands m' (notes ++ notes') := ⟨ha.buffer.adds hmm, hmm.describes ha.type⟩

theorem Operands.after (ha : a.Operands m notes) (hmm : m₀.Adds notes' m₁)
    (hfresh : m₁.insts.get? a.buffer = none) : a.Operands m (notes' ++ notes) :=
  ⟨ha.buffer.after hmm hfresh, ha.type⟩

end Access

namespace Callee

open KernelGrid.Builder

variable {b b' : Builder} {zero : Handle} {cell : Cell}

theorem emitElement_writes {element pointer : Handle} {binding : Word} (hm : b.module.Interns)
    (hrun : Runs (emitElement zero cell element binding) b pointer b') :
    ∃ notes, ∃ a : Access, a.pointer = pointer ∧ a.element = element ∧ a.binding = binding ∧
      a.indices = [zero, cell.index] ∧ b.Writes notes [a.chain] b' ∧
      b.module.insts.get? a.buffer = none ∧ a.Operands b'.module notes ∧
      notes.filter Kind.isSlot = a.slotNotes ∧ ∀ k ∈ notes, k.statesBuiltIn = false := by
  obtain ⟨buffer, _, hbuffer, hrun⟩ := runs_bind.1 hrun
  obtain ⟨m₁, hadd, rfl⟩ := runs_attempt.1 hbuffer
  obtain ⟨notes, hadds, hcode, hfresh, hisBuffer, hslot, hsilent⟩ :=
    Module.addBuffer_adds hm hadd
  have h₁ := Writes.of_adds hadds hcode
  obtain ⟨type, b₂, h₂, htype, hrun⟩ :=
    intern_bind (Description.proper_type rfl) (hadds.interns hm) hrun
  have h₃ := pushResult_writes hrun
  have hrest := h₂.trans h₃
  refine ⟨notes, ⟨buffer, element, binding, type, [zero, cell.index], pointer, zero⟩, rfl,
    rfl, rfl, rfl, ?_, hfresh, ⟨?_, ?_⟩, hslot, hsilent⟩
  · have hall := h₁.trans hrest
    rw [List.append_nil, List.append_nil] at hall
    exact hall
  · have hkept := hisBuffer.adds hrest.adds
    rw [List.append_nil, List.append_nil] at hkept
    exact hkept
  · exact h₃.adds.describes htype

theorem emitInputs_writes {types values : List Handle} {n : Nat} (hm : b.module.Interns)
    (hrun : Runs ((types.zipIdx n).mapM fun (type, i) => do
      let pointer ← emitElement zero cell type (firstInputBinding + i.toUInt32)
      load type pointer) b values b') :
    ∃ notes, ∃ inputs : List Access, inputs.map Access.transfer = values ∧
      inputs.map (fun a => (a.element, a.binding)) =
        (types.zipIdx n).map (fun (type, i) => (type, firstInputBinding + i.toUInt32)) ∧
      b.Writes notes (inputs.flatMap Access.readLines) b' ∧
      (inputs.map Access.buffer).Nodup ∧
      (∀ a ∈ inputs, a.indices = [zero, cell.index] ∧ b.module.insts.get? a.buffer = none ∧
        a.Operands b'.module notes) ∧
        notes.filter Kind.isSlot = inputs.flatMap Access.slotNotes ∧
      ∀ k ∈ notes, k.statesBuiltIn = false := by
  induction types generalizing n b values with
  | nil =>
      obtain ⟨rfl, rfl⟩ := runs_pure.1 hrun
      exact ⟨[], [], rfl, rfl, .refl b, .nil, by simp⟩
  | cons type types ih =>
      rw [List.zipIdx_cons, List.mapM_cons] at hrun
      obtain ⟨value, b₂, hvalue, hrun⟩ := runs_bind.1 hrun
      obtain ⟨pointer, b₁, hpointer, hload⟩ := runs_bind.1 hvalue
      obtain ⟨values', b₃, hinputs, hrun⟩ := runs_bind.1 hrun
      obtain ⟨rfl, rfl⟩ := runs_pure.1 hrun
      obtain ⟨notes, a, rfl, rfl, hbinding, hindices, h₁, hfresh, ha, hslot, hsilent⟩ :=
        emitElement_writes hm hpointer
      have h₂ := pushResult_writes hload
      have hfirst := h₁.trans h₂
      obtain ⟨notes', inputs, rfl, hspec, h₃, hnodup, hrest, hslots, hsilent'⟩ :=
        ih (hfirst.adds.interns hm) hinputs
      refine ⟨notes ++ [] ++ notes', { a with transfer := value } :: inputs, rfl, ?_,
        hfirst.trans h₃, ?_, ?_, ?_, ?_⟩
      · rw [List.map_cons, List.zipIdx_cons, List.map_cons, hspec, hbinding]
      · refine List.nodup_cons.2 ⟨?_, hnodup⟩
        intro hmem
        obtain ⟨a', ha', heq⟩ := List.mem_map.1 hmem
        have hstored := (ha.adds h₂.adds).buffer.isVar.1
        rw [← heq, (hrest a' ha').2.1] at hstored
        cases hstored
      · rw [List.forall_mem_cons]
        refine ⟨⟨hindices, hfresh, ?_, ?_⟩, ?_⟩
        · exact (ha.buffer.adds h₂.adds).adds h₃.adds
        · exact (h₂.trans h₃).adds.describes ha.type
        · intro a' ha'
          obtain ⟨hindices', hfresh', hoperands⟩ := hrest a' ha'
          exact ⟨hindices', hfirst.adds.get?_eq_none hfresh',
            hoperands.after hfirst.adds hfresh'⟩
      · rw [List.append_nil, List.filter_append, hslot, hslots]
        rfl
      · rw [List.append_nil]
        exact List.forall_mem_append.2 ⟨hsilent, hsilent'⟩

/-- The call is followed by a write exactly if the kernel has an output. -/
theorem emitOutput_bind {β : Type} {s : Signature} {element result : Handle}
    {rest : Build β} {r : β} (hm : b.module.Interns)
    (hrun : Runs (if s.contains .output then do
        let pointer ← emitElement zero cell element outputBinding
        let _ ← store pointer result
        rest
      else rest) b r b') :
    ∃ notes, ∃ output : Option Access, ∃ b₁,
      output.map (fun a => (a.element, a.binding)) =
        (if s.contains .output then some (element, outputBinding) else none) ∧
      b.Writes notes (output.elim [] (Access.writeLines · result)) b₁ ∧
      (∀ a ∈ output, a.indices = [zero, cell.index] ∧ b.module.insts.get? a.buffer = none ∧
        a.Operands b₁.module notes) ∧
      notes.filter Kind.isSlot = output.toList.flatMap Access.slotNotes ∧
      (∀ k ∈ notes, k.statesBuiltIn = false) ∧ Runs rest b₁ r b' := by
  by_cases houtput : s.contains .output
  · rw [if_pos houtput] at hrun
    obtain ⟨pointer, b₁, hpointer, hgo⟩ := runs_bind.1 hrun
    obtain ⟨transfer, b₂, hstore, hlast⟩ := runs_bind.1 hgo
    obtain ⟨notes, a, rfl, rfl, hbinding, hindices, h₁, hfresh, ha, hslot, hsilent⟩ :=
      emitElement_writes hm hpointer
    have h₂ := push_writes rfl hstore
    refine ⟨_, some { a with transfer }, b₂, ?_, h₁.trans h₂, ?_, ?_, ?_, hlast⟩
    · rw [if_pos houtput, Option.map_some, hbinding]
    · rintro _ ⟨⟩
      exact ⟨hindices, hfresh, ha.buffer.adds h₂.adds, h₂.adds.describes ha.type⟩
    · rw [List.append_nil, hslot]
      exact (List.append_nil _).symm
    · rwa [List.append_nil]
  · rw [if_neg houtput] at hrun
    exact ⟨[], none, b, (if_neg houtput).symm, .refl b, by simp, rfl, by simp, hrun⟩

end Callee

/-! ## The whole block -/

structure EntryCode where
  cell : Option CellCode
  zero : Handle
  inputs : List Access
  call : Handle
  output : Option Access
  ret : Handle

namespace EntryCode

def accesses (e : EntryCode) : List Access := e.inputs ++ e.output.toList

/-- What is passed to the kernel: the elements of the inputs, then the coordinates that it
takes. -/
def arguments (e : EntryCode) (s : Signature) : List Handle :=
  e.inputs.map Access.transfer ++ e.cell.elim [] fun c => c.cell.coordinates s

def interface (e : EntryCode) : List Handle :=
  e.cell.elim [] fun c => c.cell.interface

def lines (e : EntryCode) (c : Callee) : List Line :=
  e.cell.elim [] CellCode.lines ++ e.inputs.flatMap Access.readLines ++
    [⟨e.call, some c.resultType, .functionCall c.function (e.arguments c.signature)⟩] ++
    e.output.elim [] (Access.writeLines · e.call) ++ [⟨e.ret, none, .ret⟩]

/-- How the code of an entry point that was added to `m` follows from the kernel. -/
structure Fits (e : EntryCode) (c : Callee) (word : Handle) (m : Module)
    (notes : List (Kind Handle)) (m' : Module) : Prop where
  needsIndex : e.cell.isSome = c.signature.needsIndex
  cell : ∀ cell ∈ e.cell, cell.word = word ∧ cell.Operands m'
  zero : m'.Describes e.zero ⟨some word, .constant [0]⟩
  inputs : e.inputs.map (fun a => (a.element, a.binding)) =
    c.inputTypes.zipIdx.map fun (type, i) => (type, firstInputBinding + i.toUInt32)
  output : e.output.map (fun a => (a.element, a.binding)) =
    if c.signature.contains .output then some (c.resultType, outputBinding) else none
  accesses : ∀ a ∈ e.accesses, (∃ cell ∈ e.cell, a.indices = [e.zero, cell.index]) ∧
    m.insts.get? a.buffer = none ∧ a.Operands m' notes
  distinct : (e.accesses.map Access.buffer).Nodup
  slots : notes.filter Kind.isSlot = e.accesses.flatMap Access.slotNotes
  builtIns : Module.DeclareOnce notes

/-- Whether `m'` has one function more than `m`, with a single block that holds the code. -/
structure Added (e : EntryCode) (c : Callee) (entry void type : Handle) (m : Module)
    (notes : List (Kind Handle)) (m' : Module) : Prop where
  adds : m.Adds notes m'
  isFunction : m.insts.get? entry = none ∧ m'.Results entry void (.function 0 type)
  functions : ∃ label, m'.functions =
    m.functions ++ [⟨entry, [], [⟨label, (e.lines c).map Line.handle⟩]⟩]
  fresh : ∀ l ∈ e.lines c, m.insts.get? l.handle = none
  holds : ∀ l ∈ e.lines c, m'.Holds l
  nodup : ((e.lines c).map Line.handle).Nodup

variable {e : EntryCode} {c : Callee} {word entry void type : Handle} {m m' m₀ m₁ : Module}
  {notes notes' : List (Kind Handle)}

theorem Fits.after (he : e.Fits c word m notes m') (hmm : m₀.Edits [] m) :
    e.Fits c word m₀ notes m' := by
  refine ⟨he.needsIndex, he.cell, he.zero, he.inputs, he.output, ?_, he.distinct, he.slots,
    he.builtIns⟩
  intro a ha
  obtain ⟨hindices, hfresh, hoperands⟩ := he.accesses a ha
  exact ⟨hindices, hmm.get?_eq_none hfresh, hoperands.after hmm.adds hfresh⟩

theorem Added.after (he : e.Added c entry void type m notes m') (hmm : m₀.Edits [] m) :
    e.Added c entry void type m₀ notes m' := by
  refine ⟨hmm.adds.trans he.adds, ⟨hmm.get?_eq_none he.isFunction.1, he.isFunction.2⟩, ?_,
    fun l hl => hmm.get?_eq_none (he.fresh l hl), he.holds, he.nodup⟩
  rw [← hmm.code.functions]
  exact he.functions

theorem Added.withEntryPoints (he : e.Added c entry void type m notes m')
    (entryPoints : List (EntryPoint Handle)) :
    e.Added c entry void type m notes { m' with entryPoints } := by
  have hadds := he.adds.trans (.of_code m' m'.functions entryPoints)
  rw [List.append_nil] at hadds
  exact ⟨hadds, he.isFunction, he.functions, he.fresh, he.holds, he.nodup⟩

theorem Fits.withEntryPoints (he : e.Fits c word m notes m')
    (entryPoints : List (EntryPoint Handle)) :
    e.Fits c word m notes { m' with entryPoints } := by
  have hmm := Module.Adds.of_code m' m'.functions entryPoints
  refine ⟨he.needsIndex, ?_, hmm.describes he.zero, he.inputs, he.output, ?_, he.distinct,
    he.slots, he.builtIns⟩
  · intro cell hcell
    obtain ⟨hword, hoperands⟩ := he.cell cell hcell
    exact ⟨hword, hoperands.extends hmm.toExtends⟩
  · intro a ha
    obtain ⟨hindices, hfresh, hoperands⟩ := he.accesses a ha
    have hkept := hoperands.adds hmm
    rw [List.append_nil] at hkept
    exact ⟨hindices, hfresh, hkept⟩

end EntryCode

namespace Callee

open KernelGrid.Builder

variable {c : Callee} {word void type entry : Handle} {m : Module} {cell : Option Cell}

theorem emit_writes_of_needsIndex (hm : m.Interns) (hneeds : c.signature.needsIndex)
    (hrun : Runs (c.emit word void type) (.start m) (entry, cell) b') :
    ∃ notes, ∃ e : EntryCode, e.cell.map CellCode.cell = cell ∧
      b'.module.entryPoints = m.entryPoints ∧ e.Added c entry void type m notes b'.module ∧
      e.Fits c word m notes b'.module := by
  obtain ⟨_, b₁, hentry, hrun⟩ := runs_bind.1 hrun
  obtain ⟨label, b₂, hlabel, hrun⟩ := runs_bind.1 hrun
  obtain ⟨hopened, hentryPoints, hopen, hresults, -, hfresh⟩ := open_of_begin hentry hlabel
  have hm₂ := hopened.interns hm
  rw [if_pos hneeds] at hrun
  obtain ⟨_, b₃, hcell, hrun⟩ := runs_bind.1 hrun
  obtain ⟨_, hemit, rfl⟩ := runs_map.1 hcell
  obtain ⟨n₃, code, rfl, hword, h₃, hoperands, honce, hnone⟩ := Cell.emit_writes hm₂ hemit
  have hm₃ := h₃.adds.interns hm₂
  obtain ⟨zero, b₄, h₄, hzero, hrun⟩ := intern_bind (Description.proper_constant rfl) hm₃ hrun
  have hm₄ := h₄.adds.interns hm₃
  obtain ⟨values, b₅, hinputs, hrun⟩ := runs_bind.1 hrun
  obtain ⟨n₅, inputs, rfl, hspec, h₅, hnodup, hread, hslots, hsilent⟩ :=
    emitInputs_writes hm₄ hinputs
  obtain ⟨_, _, harguments, hrun⟩ := runs_bind.1 hrun
  obtain ⟨rfl, rfl⟩ := runs_pure.1 harguments
  obtain ⟨call, b₆, h₆, hrun⟩ := pushResult_bind hrun
  have hm₆ := h₆.adds.interns (h₅.adds.interns hm₄)
  dsimp only at hrun
  obtain ⟨n₇, output, b₇, houtput, h₇, hwrite, hslots', hsilent', hrun⟩ :=
    emitOutput_bind hm₆ hrun
  obtain ⟨_, b₈, hret, hrun⟩ := runs_bind.1 hrun
  obtain ⟨heq, rfl⟩ := runs_pure.1 hrun
  obtain ⟨rfl, rfl⟩ := Prod.mk.inj heq
  obtain ⟨ret, b₉, h₉, hmodule⟩ := ret_writes hret
  rw [hmodule]
  have hbefore := h₃.trans h₄
  rw [List.append_nil, List.append_nil] at hbefore
  have hafter := h₇.trans h₉
  rw [List.append_nil] at hafter
  have hall := ((hbefore.trans h₅).trans h₆).trans hafter
  rw [List.append_nil, ← List.append_assoc (_ ++ [_])] at hall
  let e : EntryCode := ⟨some code, zero, inputs, call, output, ret⟩
  refine ⟨n₃ ++ n₅ ++ n₇, e, rfl, hall.entryPoints.trans hentryPoints, ⟨hopened.trans hall.adds,
    ⟨hfresh, hall.adds.results hresults⟩, ⟨label, (hall.opens _ _ _ _ hopen).functions⟩,
    fun l hl => hopened.get?_eq_none (hall.fresh l hl), hall.holds, hall.nodup⟩, ?_⟩
  refine ⟨hneeds.symm, ?_, ?_, hspec, houtput, ?_, ?_, ?_,
    (honce.append hsilent).append hsilent'⟩
  · rintro _ ⟨⟩
    have hrest := ((h₄.trans h₅).trans h₆).trans hafter
    exact ⟨hword, hoperands.extends hrest.adds.toExtends⟩
  · exact ((h₅.trans h₆).trans hafter).adds.describes hzero
  · refine List.forall_mem_append.2 ⟨?_, ?_⟩
    · intro a ha
      obtain ⟨hindices, hnew, hstands⟩ := hread a ha
      have hkept := (hstands.after hbefore.adds hnew).adds (h₆.trans hafter).adds
      rw [List.nil_append] at hkept
      exact ⟨⟨code, rfl, hindices⟩, hopened.get?_eq_none (hbefore.adds.get?_eq_none hnew), hkept⟩
    · intro a ha
      obtain ⟨hindices, hnew, hstands⟩ := hwrite a (Option.mem_toList.1 ha)
      have hbegun := (hbefore.trans h₅).trans h₆
      have hkept := (hstands.after hbegun.adds hnew).adds h₉.adds
      rw [List.append_nil, List.append_nil] at hkept
      exact ⟨⟨code, rfl, hindices⟩, hopened.get?_eq_none (hbegun.adds.get?_eq_none hnew), hkept⟩
  · rw [EntryCode.accesses, List.map_append]
    refine List.nodup_append.2 ⟨hnodup, ?_, ?_⟩
    · cases output with
      | none => exact .nil
      | some a => exact List.pairwise_singleton _ _
    · intro buffer hbuffer buffer' hbuffer' hsame
      obtain ⟨a, ha, rfl⟩ := List.mem_map.1 hbuffer
      obtain ⟨a', ha', rfl⟩ := List.mem_map.1 hbuffer'
      have hstored := ((hread a ha).2.2.adds h₆.adds).buffer.isVar.1
      rw [hsame, (hwrite a' (Option.mem_toList.1 ha')).2.1] at hstored
      cases hstored
  · rw [List.filter_append, List.filter_append, hnone, hslots, hslots', List.nil_append,
      EntryCode.accesses, List.flatMap_append]

theorem emit_writes_of_not_needsIndex (hm : m.Interns) (hneeds : ¬c.signature.needsIndex)
    (hinputs : c.inputTypes = [])
    (hrun : Runs (c.emit word void type) (.start m) (entry, cell) b') :
    ∃ notes, ∃ e : EntryCode, e.cell.map CellCode.cell = cell ∧
      b'.module.entryPoints = m.entryPoints ∧ e.Added c entry void type m notes b'.module ∧
      e.Fits c word m notes b'.module := by
  obtain ⟨_, b₁, hentry, hrun⟩ := runs_bind.1 hrun
  obtain ⟨label, b₂, hlabel, hrun⟩ := runs_bind.1 hrun
  obtain ⟨hopened, hentryPoints, hopen, hresults, -, hfresh⟩ := open_of_begin hentry hlabel
  have hm₂ := hopened.interns hm
  rw [if_neg hneeds] at hrun
  obtain ⟨_, _, hcell, hrun⟩ := runs_bind.1 hrun
  obtain ⟨rfl, rfl⟩ := runs_pure.1 hcell
  obtain ⟨zero, b₃, h₃, hzero, hrun⟩ := intern_bind (Description.proper_constant rfl) hm₂ hrun
  obtain ⟨_, _, harguments, hrun⟩ := runs_bind.1 hrun
  obtain ⟨rfl, rfl⟩ := runs_pure.1 harguments
  obtain ⟨call, b₄, h₄, hrun⟩ := pushResult_bind hrun
  obtain ⟨_, b₅, hret, hrun⟩ := runs_bind.1 hrun
  obtain ⟨heq, rfl⟩ := runs_pure.1 hrun
  obtain ⟨rfl, rfl⟩ := Prod.mk.inj heq
  obtain ⟨ret, b₆, h₆, hmodule⟩ := ret_writes hret
  rw [hmodule]
  have hall := (h₃.trans h₄).trans h₆
  let e : EntryCode := ⟨none, zero, [], call, none, ret⟩
  refine ⟨[], e, rfl, hall.entryPoints.trans hentryPoints, ⟨hopened.trans hall.adds,
    ⟨hfresh, hall.adds.results hresults⟩, ⟨label, (hall.opens _ _ _ _ hopen).functions⟩,
    fun l hl => hopened.get?_eq_none (hall.fresh l hl), hall.holds, hall.nodup⟩, ?_⟩
  refine ⟨?_, by simp [e], (h₄.trans h₆).adds.describes hzero, ?_, ?_, ?_, ?_, rfl, [], rfl,
    .nil⟩
  · exact (Bool.eq_false_iff.2 hneeds).symm
  · rw [hinputs]
    rfl
  · have houtput : ¬c.signature.contains .output :=
      fun h => hneeds (Signature.needsIndex_of_output h)
    exact (if_neg houtput).symm
  · intro a ha
    cases ha
  · exact .nil

end Callee

end KernelGrid
