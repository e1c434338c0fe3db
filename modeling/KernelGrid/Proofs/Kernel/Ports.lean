import KernelGrid.Proofs.Kernel.DataFlow
import KernelGrid.Proofs.Kernel.GlobalBlock
import KernelGrid.Proofs.Kernel.ModuleRules
import KernelGrid.Proofs.Module.StaticUses

/-!
# Ports of lowered modules

Which variables hold inputs and outputs, from stage to stage: those that were there keep their
storage, and what is declared for a built-in value is an input.
-/

namespace KernelGrid

open KernelGrid.Module

theorem Kind.isPort_withStorage_uniform (k : Kind Handle) :
    (k.withStorage .uniform).isPort = false := by
  cases k <;> rfl

theorem Kind.isPort_eq_false_of_storage? {k : Kind Handle} (hk : k.storage? = some .function) :
    k.isPort = false := by
  rw [Bool.eq_false_iff]
  intro hport
  obtain heq | heq := storage?_of_isPort hport
  all_goals exact absurd (Option.some.inj (heq.symm.trans hk)) (by decide)

theorem Inst.isPort_uniform (i : Inst Handle) : i.uniform.kind.isPort = i.kind.isPort := by
  rw [uniform]
  split
  next hstorage =>
    rw [Kind.isPort_eq_false_of_storage? hstorage]
    exact Kind.isPort_withStorage_uniform i.kind
  · rfl

namespace Module

variable {m m' : Module} {notes : List (Kind Handle)} {var v h : Handle} {builtIn : Word}
  {interface : List Handle} {s : Signature}

/-! ## Variables of built-in values -/

theorem isBuiltInVar_iff : m.IsBuiltInVar var builtIn ↔ (m.kindOf var).isVar ∧
    ∃ words, .decorate var .builtIn words ∈ m.notes ∧ words.head? = some builtIn := by
  have hdeclared : builtIn ∈ m.builtIns var ↔
      ∃ words, .decorate var .builtIn words ∈ m.notes ∧ words.head? = some builtIn := by
    simp only [builtIns, List.mem_filterMap, mem_decorations]
  exact ⟨fun hvar => ⟨hvar.isVar, hdeclared.1 hvar.declared⟩,
    fun hvar => ⟨hvar.1, hdeclared.2 hvar.2⟩⟩

theorem IsBuiltInVar.continues (hvar : m.IsBuiltInVar var builtIn) (hm : m.Sound)
    (hmm : m.Continues m') : m'.IsBuiltInVar var builtIn := by
  obtain ⟨hisVar, words, hmem, hhead⟩ := isBuiltInVar_iff.1 hvar
  refine isBuiltInVar_iff.2 ⟨?_, words, hmm.notes_subset hm hmem, hhead⟩
  rwa [hmm.kindOf_eq (isSome_of_isVar hisVar)]

theorem isBuiltInVar_consolidate :
    m.consolidate.IsBuiltInVar var builtIn ↔ m.IsBuiltInVar var builtIn := by
  rw [isBuiltInVar_iff, isBuiltInVar_iff]
  simp only [mem_notes_consolidate]
  rfl

theorem IsInterface.mono (hi : m.IsInterface s interface)
    (hvars : ∀ var builtIn, m.IsBuiltInVar var builtIn → m'.IsBuiltInVar var builtIn) :
    m'.IsInterface s interface := by
  rw [IsInterface] at hi ⊢
  split
  next hs =>
    rw [if_pos hs] at hi
    obtain ⟨position, groups, rfl, hposition, hgroups⟩ := hi
    exact ⟨position, groups, rfl, hvars _ _ hposition, hvars _ _ hgroups⟩
  next hs => rwa [if_neg hs] at hi

theorem IsInterface.isBuiltInVar (hi : m.IsInterface s interface) (hv : v ∈ interface) :
    ∃ builtIn ∈ [BuiltIn.globalInvocationId, BuiltIn.numWorkgroups],
      m.IsBuiltInVar v builtIn := by
  rw [IsInterface] at hi
  split at hi
  · obtain ⟨position, groups, rfl, hposition, hgroups⟩ := hi
    obtain rfl | rfl : v = position ∨ v = groups := by simpa using hv
    · exact ⟨_, by simp, hposition⟩
    · exact ⟨_, by simp, hgroups⟩
  · rw [hi] at hv
    cases hv

/-! ## Built-in values as inputs -/

def BuiltInsArePorts (m : Module) : Prop :=
  ∀ var, ∀ builtIn ∈ [BuiltIn.globalInvocationId, BuiltIn.numWorkgroups],
    m.IsBuiltInVar var builtIn → (m.kindOf var).isPort

theorem BuiltInsArePorts.of_isBuiltInVar (hm : m.BuiltInsArePorts)
    (hvars : ∀ var builtIn, m'.IsBuiltInVar var builtIn → (m'.kindOf var).isPort ∨
      m.IsBuiltInVar var builtIn ∧ ((m.kindOf var).isPort → (m'.kindOf var).isPort)) :
    m'.BuiltInsArePorts := by
  intro var builtIn hmem hvar
  obtain hport | ⟨hvar, hport⟩ := hvars var builtIn hvar
  · exact hport
  · exact hport (hm var builtIn hmem hvar)

/-- Whether built-in values are held by ports, and what is interned and annotated is there. -/
structure Ported (m : Module) : Prop where
  interns : m.Interns
  stored : ∀ h ∈ m.annotations, (m.insts.get? h).isSome
  targets : ∀ var words, .decorate var .builtIn words ∈ m.notes → (m.insts.get? var).isSome
  ports : m.BuiltInsArePorts

theorem Sound.ported (hm : m.Sound) (hports : m.BuiltInsArePorts) : m.Ported where
  interns := hm.interns
  stored _ hh := hm.stored (mem_listed.2 (.inl ⟨.annotations, hh⟩))
  targets var words hmem := by
    obtain ⟨h, -, hkind⟩ := List.mem_map.1 hmem
    exact (hm.usable_of_kindOf (h := h) (by simp [hkind, Kind.references, Kind.operands])).stored
  ports := hports

theorem Ported.extends (hm : m.Ported) (hmm : m.Extends notes m')
    (hnotes : ∀ var words, .decorate var .builtIn words ∈ notes → (m'.kindOf var).isPort) :
    m'.Ported := by
  have heq := hmm.notes_eq hm.stored
  have hcases {var : Handle} {words : List Word} (hmem : .decorate var .builtIn words ∈
      m'.notes) : (m'.kindOf var).isPort ∨ .decorate var .builtIn words ∈ m.notes := by
    rw [heq, List.mem_append] at hmem
    exact hmem.symm.imp_left (hnotes var words)
  refine ⟨hmm.interns hm.interns, hmm.stored_annotations hm.stored, fun var words hmem => ?_, ?_⟩
  · obtain hport | hmem := hcases hmem
    · exact isSome_of_isVar (Kind.isVar_of_isPort hport)
    · exact hmm.isSome (hm.targets var words hmem)
  · refine hm.ports.of_isBuiltInVar fun var builtIn hvar => ?_
    obtain ⟨hisVar, words, hmem, hhead⟩ := isBuiltInVar_iff.1 hvar
    refine (hcases hmem).imp_right fun hmem => ?_
    have hkind := hmm.kindOf_eq (hm.targets var words hmem)
    exact ⟨isBuiltInVar_iff.2 ⟨hkind ▸ hisVar, words, hmem, hhead⟩, fun hport => hkind ▸ hport⟩

theorem ported_rules : DeclarationRules Ported fun _ => True where
  code hm hmm _ := hm.extends hmm (by simp)
  intern hd _ hm hrun := hm.extends (intern_edits hd hm.interns hrun).1.toExtends (by simp)
  builtInVar {m} builtIn hm := by
    rcases hrun : Module.builtInVar builtIn m with ⟨var, m'⟩
    obtain ⟨notes, hadds, -, -, hkind, hnotes⟩ := builtInVar_adds hm.interns hrun
    refine hm.extends hadds.toExtends fun var' words hmem => ?_
    obtain rfl | ⟨-, rfl⟩ := hnotes
    · cases hmem
    · obtain ⟨rfl, -⟩ : var' = var ∧ words = [builtIn] := by simpa using hmem
      rw [hkind.resolve_left (List.cons_ne_nil _ _)]
      rfl
  addBuffer _ hm hrun := by
    obtain ⟨notes, hadds, -, -, -, -, hnone⟩ := addBuffer_adds hm.interns hrun
    refine hm.extends hadds.toExtends fun var words hmem => ?_
    have hstates := hnone _ hmem
    simp [Kind.statesBuiltIn] at hstates
  declaration _ := trivial
  value _ := trivial

end Module

theorem AddsEntries.ported {ks : List Kernel} {m m' : Module} (hadds : AddsEntries ks m m')
    (hm : m.Ported) : m'.Ported :=
  hadds.keeps hm fun _ k hm => ported_rules.addEntry hm k fun _ _ _ _ => trivial

namespace Module

variable {m m' : Module} {v : Handle}

theorem Ported.decorateGlobalBlock {host : Host} {outcome : BlockOutcome} (hm : m.Ported)
    (hrun : Runs (decorateGlobalBlock host) m outcome m') : m'.Ported := by
  obtain ⟨-, rfl⟩ | ⟨var, block, members, notes, -, -, hnotes, hmm⟩ :=
    decorateGlobalBlock_annotates hrun
  · exact hm
  · exact hm.extends hmm.toExtends fun target words hmem =>
      absurd hmem (hnotes.not_builtIn target words)

/-! ## Before lowering -/

theorem Readied.kindOf_eq_of_isPort (hmm : Readied m m') (hv : (m'.kindOf v).isPort) :
    m'.kindOf v = m.kindOf v := by
  have hvar := Kind.isVar_of_isPort hv
  obtain heq | ⟨-, heq⟩ := hmm.kinds v (by rw [Kind.isDeclaration, hvar, Bool.or_true])
  · exact heq
  · rw [heq, Kind.isPort_withStorage_uniform] at hv
    cases hv

theorem Readied.isPort_eq (hmm : Readied m m') (hm : m.Sound) (hv : v ∈ m.listed) :
    (m'.kindOf v).isPort = (m.kindOf v).isPort := by
  rw [Bool.eq_iff_iff]
  refine ⟨fun hport => hmm.kindOf_eq_of_isPort hport ▸ hport, fun hport => ?_⟩
  obtain ⟨s, hs⟩ | ⟨f, hf, hh⟩ := mem_listed.1 hv
  · -- ports that are in no function are global
    have hsection := (hm.sections s v hs).1
    rw [Kind.opcode_of_isPort hport] at hsection
    obtain rfl : Section.globals = s := hsection
    rw [kindOf, hmm.insts v hs, Inst.isPort_uniform]
    exact hport
  · rw [kindOf, hmm.bodies f hf v hh]
    exact hport

theorem Readied.builtInsArePorts (hmm : Readied m m') (hm : m.BuiltInsArePorts) :
    m'.BuiltInsArePorts := by
  refine hm.of_isBuiltInVar fun var builtIn hvar => .inr ?_
  obtain ⟨hisVar, words, hmem, hhead⟩ := isBuiltInVar_iff.1 hvar
  refine ⟨isBuiltInVar_iff.2 ⟨hmm.vars var hisVar, words, (hmm.notes _).1 hmem, hhead⟩,
    fun hport => ?_⟩
  obtain heq | ⟨hstorage, -⟩ := hmm.kinds var (by rw [Kind.isDeclaration, hisVar, Bool.or_true])
  · rwa [heq]
  · rw [Kind.isPort_eq_false_of_storage? hstorage] at hport
    cases hport

theorem Readied.keepsFunctions (hmm : Readied m m') : m.KeepsFunctions m' :=
  ⟨⟨[], by rw [hmm.code.functions, List.append_nil], by simp⟩, hmm.bodies⟩

end Module

end KernelGrid
