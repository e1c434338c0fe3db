import KernelGrid.Proofs.Kernel.DataFlow
import KernelGrid.Proofs.Kernel.Execution
import KernelGrid.Proofs.Kernel.Preamble
import KernelGrid.Proofs.Kernel.SoundCode
import KernelGrid.Proofs.Module.Normalization

/-!
# The index of a cell

Every access of an entry point goes to the element of its buffer that belongs to the cell: the
one with the number that the host gives to the cell.
-/

namespace KernelGrid

open KernelGrid.Module (Line)

namespace Module

variable {m m' : Module} {i : Invocation}

/-! ## Built-in values -/

theorem HoldsOne.adds {notes : List (Kind Handle)} (hone : m.HoldsOne) (hm : m.Sound)
    (hmm : m.Adds notes m') (hnotes : DeclareOnce notes) : m'.HoldsOne := by
  obtain ⟨vars, hfilter, hnodup⟩ := hnotes
  -- a value of a variable was declared before, or by a note about a new variable
  have hcases (var : Handle) (hvar : (m'.kindOf var).isVar) (b : Word)
    (hb : b ∈ m'.builtIns var) :
      (m.kindOf var).isVar ∧ b ∈ m.builtIns var ∨ m.insts.get? var = none ∧ (var, b) ∈ vars := by
    obtain ⟨h, hh, operands, hkind, hhead⟩ := mem_builtIns.1 hb
    obtain ⟨hs, heq, -, hstated⟩ := hmm.annotations
    rw [heq, List.mem_append] at hh
    obtain hh | hh := hh
    · rw [hmm.kindOf_eq (hm.stored (mem_listed.2 (.inl ⟨.annotations, hh⟩)))] at hkind
      have hvar' := hm.usable_of_kindOf (h := h) (r := var)
        (by simp [hkind, Kind.references, Kind.operands])
      rw [hmm.kindOf_eq hvar'.stored] at hvar
      exact .inl ⟨hvar, mem_builtIns.2 ⟨h, hh, operands, hkind, hhead⟩⟩
    · obtain ⟨k, hk, hget⟩ : ∃ k ∈ notes, some (.plain k) = m'.insts.get? h := by
        have hmem : m'.insts.get? h ∈ notes.map fun k => some (.plain k) :=
          hstated ▸ List.mem_map_of_mem hh
        exact List.mem_map.1 hmem
      have hnote : m'.kindOf h = k := by rw [kindOf, inst_of_get? hget.symm, Inst.plain]
      obtain rfl := hnote.symm.trans hkind
      have hstates : .decorate var .builtIn operands ∈ notes.filter Kind.statesBuiltIn :=
        List.mem_filter.2 ⟨hk, by simp [Kind.statesBuiltIn]⟩
      rw [hfilter] at hstates
      obtain ⟨⟨v, b'⟩, hmem, heq⟩ := List.mem_map.1 hstates
      simp only [Kind.decorate.injEq, true_and] at heq
      obtain ⟨rfl, rfl⟩ := heq
      obtain rfl := Option.some.inj hhead
      have hfresh := (hmm.decorated _ hk v (by simp [Kind.decorates])).2 hvar
      exact .inr ⟨hfresh, hmem⟩
  intro var hvar a ha b hb
  obtain ⟨hold, ha⟩ | ⟨hnew, ha⟩ := hcases var hvar a ha
  · obtain ⟨-, hb⟩ | ⟨hnew, -⟩ := hcases var hvar b hb
    · exact hone var hold a ha b hb
    · have hstored := isSome_of_isVar hold
      rw [hnew] at hstored
      cases hstored
  · obtain ⟨hold, -⟩ | ⟨-, hb⟩ := hcases var hvar b hb
    · have hstored := isSome_of_isVar hold
      rw [hnew] at hstored
      cases hstored
    · exact congrArg Prod.snd (List.inj_on_of_nodup_map hnodup ha hb rfl)

end Module

/-! ## Accesses -/

theorem CellCode.kinds {c : CellCode} {l : Line} (hl : l ∈ c.lines) :
    ¬l.kind.isConstant ∧ ∀ base indices, l.kind ≠ .accessChain base indices := by
  have hall : c.lines.Forall fun l => ¬l.kind.isConstant ∧
      ∀ base indices, l.kind ≠ .accessChain base indices := by
    refine ⟨?_, ?_, ?_, ?_, ?_, ?_, ?_, ?_, ?_, ?_, ?_, ?_, ?_, ?_, ?_⟩
    all_goals exact ⟨nofun, nofun⟩
  exact List.forall_iff_forall_mem.1 hall l hl

namespace Module

variable {m m' : Module} {i : Invocation}

theorem map_fst_cellSteps (c : CellCode) (i : Invocation) :
    (cellSteps c i).map Prod.fst = c.lines :=
  rfl

theorem exists_knows_index {c : CellCode} (hholds : ∀ l ∈ c.lines, m.Holds l)
    (hnodup : (c.lines.map Line.handle).Nodup) (hc : c.Operands m)
    (hword : m.Describes c.word ⟨none, .typeInt 32 false⟩) (hone : m.HoldsOne) :
    ∃ facts, m.Knows i (c.lines.map Line.handle) facts ∧
      (c.index, .word (linearIndex i.cell i.extent)) ∈ facts := by
  have hsize : m.constant? c.groupSize = some (.vector [1, 1, 1]) :=
    constant?_composite hword (by simpa using hc.one) hc.groupSize
  have hknows : m.Knows i [] [(c.groupSize, .vector [1, 1, 1])] := by
    simp [Knows, hsize]
  obtain ⟨facts, hknows, hmem⟩ := hknows.lines (yields_cellSteps (i := i) hholds hc hone)
    (by rwa [map_fst_cellSteps])
    (by rw [map_fst_cellSteps]; exact fun l hl => (CellCode.kinds hl).1)
    (by rwa [map_fst_cellSteps])
  rw [map_fst_cellSteps] at hknows
  refine ⟨_, hknows, List.mem_append_left _ ?_⟩
  have hlast := hmem (⟨c.index, some c.word, .iAdd c.cellsBefore c.x⟩, _)
    (by simp only [cellSteps, CellCode.lines, List.zip_cons_cons, List.mem_cons]; tauto)
  convert hlast using 3
  simp [linearIndex, UInt32.add_comm]

end Module

namespace EntryCode

variable {e : EntryCode} {c : Callee} {word entry void type : Handle} {m m' : Module}
  {notes : List (Kind Handle)} {i : Invocation}

theorem Fits.length_inputs (hfits : e.Fits c word m notes m') :
    e.inputs.length = c.inputTypes.length := by
  simpa using congrArg List.length hfits.inputs

theorem Fits.length_output (hfits : e.Fits c word m notes m') :
    e.output.toList.length = if c.signature.contains .output then 1 else 0 := by
  have houtput := congrArg Option.isSome hfits.output
  rw [Option.isSome_map] at houtput
  cases hout : e.output <;> rw [hout] at houtput <;> split at houtput <;> simp_all

theorem Added.length_accessChains (hadded : e.Added c entry void type m notes m') :
    (((e.lines c).map Line.handle).filter fun h =>
      (m'.kindOf h).opcode = Form.accessChain.opcode).length = e.accesses.length := by
  have hkinds :
      (e.lines c).filter (fun l => (m'.kindOf l.handle).opcode = Form.accessChain.opcode) =
        linesOf .accessChain (e.lines c) :=
    List.filter_congr fun l hl => by rw [(hadded.holds l hl).kindOf_eq]
  rw [List.filter_map, List.length_map]
  refine (congrArg List.length hkinds).trans ?_
  rw [linesOf_accessChain, List.length_map]

/-- Every access goes to element zero of the block, the array, and there to the number of the
cell. -/
theorem Added.values (hadded : e.Added c entry void type m notes m')
    (hfits : e.Fits c word m notes m') (hword : m'.Describes word ⟨none, .typeInt 32 false⟩)
    (hone : m'.HoldsOne) {done rest : List Handle} {h base : Handle} {indices : List Handle}
    (hsplit : (e.lines c).map Line.handle = done ++ h :: rest)
    (hchain : m'.kindOf h = .accessChain base indices) :
    indices.map (m'.valueAfter i done) =
      [some (.word 0), some (.word (linearIndex i.cell i.extent))] := by
  obtain ⟨l, hl, rfl⟩ : ∃ l ∈ e.lines c, l.handle = h := by
    refine List.mem_map.1 ?_
    rw [hsplit]
    simp
  rw [(hadded.holds l hl).kindOf_eq] at hchain
  -- the access is one of those that go to the cell
  have hlines : l ∈ linesOf .accessChain (e.lines c) :=
    List.mem_filter.2 ⟨hl, by simp [hchain, Kind.opcode]⟩
  rw [linesOf_accessChain] at hlines
  obtain ⟨a, ha, rfl⟩ := List.mem_map.1 hlines
  obtain ⟨rfl, rfl⟩ : a.buffer = base ∧ a.indices = indices := by
    simpa [Access.chain] using hchain
  obtain ⟨⟨cell, hcell, hindices⟩, -, -⟩ := hfits.accesses a ha
  rw [Option.mem_def] at hcell
  obtain ⟨rfl, hoperands⟩ := hfits.cell cell hcell
  have hnodup := hadded.nodup
  have hprefix : cell.lines <+: e.lines c := by
    simp only [lines, hcell, Option.elim, List.append_assoc]
    exact List.prefix_append _ _
  obtain ⟨others, hothers⟩ := hprefix
  have hholds (l : Line) (hl : l ∈ cell.lines) : m'.Holds l :=
    hadded.holds l (mem_lines_of_cell hcell hl)
  -- it stands behind the code of the cell
  obtain ⟨between, rfl⟩ : ∃ between, done = cell.lines.map Line.handle ++ between := by
    rw [← hothers, List.map_append, List.append_eq_append_iff] at hsplit
    obtain ⟨between, hdone, -⟩ | ⟨between, hlines, hrest⟩ := hsplit
    · exact ⟨between, hdone⟩
    · cases between with
      | nil => exact ⟨[], by simpa using hlines.symm⟩
      | cons g between =>
          obtain ⟨rfl, -⟩ := List.cons.inj hrest
          have hmem : a.chain.handle ∈ cell.lines.map Line.handle := by
            rw [hlines]
            simp
          obtain ⟨l', hl', heq⟩ := List.mem_map.1 hmem
          have hkind := (hholds l' hl').kindOf_eq
          rw [heq, (hadded.holds _ hl).kindOf_eq] at hkind
          exact absurd (hkind.symm.trans hchain) ((CellCode.kinds hl').2 _ _)
  rw [hsplit, List.append_assoc] at hnodup
  have hdisjoint := (List.nodup_append.1 hnodup).2.2
  obtain ⟨facts, hknows, hmem⟩ := Module.exists_knows_index (i := i) hholds
    (List.nodup_append.1 hnodup).1 hoperands hword hone
  have hbetween : ∀ g ∈ cell.lines.map Line.handle, g ∉ between := fun g hg hg' =>
    hdisjoint g hg g (List.mem_append_left _ hg') rfl
  have hlater := hknows.append hbetween
  rw [hindices, List.map_cons, List.map_singleton]
  have hzero : m'.valueAfter i (cell.lines.map Line.handle ++ between) e.zero = some (.word 0) :=
    Module.operand?_of_constant (Module.constant?_of_describes hword hfits.zero)
  rw [hzero]
  have hindex := hlater.valueAfter_eq hmem
  exact congrArg (fun v => [some (.word 0), v]) hindex

end EntryCode

namespace Module

/-! ## Modules that entry points are added to -/

/-- A module that was read and changed by the stages of a lowering, in any order and also by
some that failed. -/
inductive Reached : Module → Prop
  | load {w : List Word} {m : Module} : load w = .ok m → Reached m
  | normalize {m : Module} : Reached m → Reached m.normalize.2
  | addComputePreamble {m : Module} : Reached m → Reached (addComputePreamble m).2
  | decorateGlobalBlock {m : Module} (host : Host) :
    Reached m → Reached (decorateGlobalBlock host m).2
  | addEntry {m : Module} (k : Kernel) : Reached m → Reached (addEntry k m).2

variable {m m' : Module} {k : Kernel}

theorem Reached.sound (hm : m.Reached) : m.Sound := by
  induction hm with
  | load hload => exact sound_of_load hload
  | normalize _ ih => exact ih.normalize.sound
  | addComputePreamble _ ih =>
      exact keeps_addComputePreamble.state ih
  | decorateGlobalBlock host _ ih =>
      exact ((keeps_decorateGlobalBlock host).state ih.edited).sound
  | addEntry k _ ih => exact ih.addEntry k

theorem exists_findFunction?_of_runs {name : String}
    (hrun : Runs (addEntry k) m (.synthesized name) m') :
    ∃ f, m.findFunction? k.name = some f := by
  obtain ⟨_, _, hget, hrun⟩ := runs_bind.1 hrun
  obtain ⟨rfl, rfl⟩ := runs_get.1 hget
  obtain ⟨r, _, hcallee, hrun⟩ := runs_bind.1 hrun
  obtain ⟨hr, rfl⟩ := runs_ofExcept.1 hcallee
  cases r with
  | none => cases (runs_pure.1 hrun).1
  | some c => exact Kernel.exists_findFunction? hr

/-- Whenever the entry point of a kernel is made, it has an access for each input and for the
output, and each of them goes to the number that the host gives to the cell. -/
theorem addEntry_index (hm : m.Reached) (hone : m.HoldsOne) {name : String}
    (hrun : Runs (addEntry k) m (.synthesized name) m') :
    ∃ entry label code, m'.functions = m.functions ++ [⟨entry, [], [⟨label, code⟩]⟩] ∧
      (code.filter fun h => (m'.kindOf h).opcode = Form.accessChain.opcode).length =
        k.inputs.toNat + (if k.signature.contains .output then 1 else 0) ∧
      ∀ (cell extent : Extent) (done rest : List Handle)
      (h base : Handle) (indices : List Handle),
        code = done ++ h :: rest → m'.kindOf h = .accessChain base indices →
        indices.map (m'.valueAfter ⟨cell, extent⟩ done) =
          [some (.word 0), some (.word (linearIndex cell extent))] := by
  obtain ⟨f, hf⟩ := exists_findFunction?_of_runs hrun
  obtain ⟨notes, entry, word, void, type, c, e, -, hc, -, hword, -, -, hadded, hfits⟩ :=
    addEntry_adds hm.sound.interns hf hrun
  obtain ⟨label, hfunctions⟩ := hadded.functions
  have hone' := hone.adds hm.sound hadded.adds hfits.builtIns
  refine ⟨entry, label, _, hfunctions, ?_,
    fun cell extent done rest h base indices hsplit hchain =>
    hadded.values hfits (i := ⟨cell, extent⟩) hword hone' hsplit hchain⟩
  rw [hadded.length_accessChains, EntryCode.accesses, List.length_append, hfits.length_inputs,
    hc.inputTypes_length, hfits.length_output, hc.signature]

def mappingKernel : List Word :=
  [0x07230203, 0x10000, 0, 5, 0, 0x30005, 3, 0x66, 0x40015, 1, 32, 0, 0x40021, 2, 1, 1,
    0x50036, 1, 3, 0, 2, 0x30037, 1, 4, 0x10038]

/-- The word is loaded from the element of the cell, and the result is stored there. -/
theorem addEntry_index_mappingKernel :
    ∃ m m', load mappingKernel = .ok m ∧
      Runs (addEntry ⟨"f", ⟨0x23⟩, 1⟩) m (.synthesized "entry_f") m' ∧
      ∃ entry label code, m'.functions = m.functions ++ [⟨entry, [], [⟨label, code⟩]⟩] ∧
        (code.filter fun h => (m'.kindOf h).opcode = Form.accessChain.opcode).length = 2 ∧
        ∀ (cell extent : Extent) (done rest : List Handle)
        (h base : Handle) (indices : List Handle),
          code = done ++ h :: rest → m'.kindOf h = .accessChain base indices →
          indices.map (m'.valueAfter ⟨cell, extent⟩ done) =
            [some (.word 0), some (.word (linearIndex cell extent))] := by
  have hall : (load mappingKernel).toOption.map
      (fun m => (m.annotations, (addEntry ⟨"f", ⟨0x23⟩, 1⟩ m).1.toOption)) =
        some ([], some (.synthesized "entry_f")) := by decide +kernel
  cases hload : load mappingKernel with
  | error e =>
      rw [hload] at hall
      cases hall
  | ok m =>
      rw [hload] at hall
      obtain ⟨hannotations, hadded⟩ := Prod.mk.inj (Option.some.inj hall)
      have hone : m.HoldsOne := by
        intro var _ a ha
        simp [builtIns, decorations, hannotations] at ha
      have hrun := runs_of_fst_eq (toOption_eq_some.1 hadded)
      exact ⟨m, _, rfl, hrun, addEntry_index (.load hload) hone hrun⟩

end Module

end KernelGrid
