import KernelGrid.Proofs.Kernel.BlockDecoration

/-!
# Decorating the global block

What the host's layout of the global block becomes in annotations, and what stands there before.
-/

namespace KernelGrid.Module

variable {m m' : Module} {var block h : Handle} {binding : Word}

/-! ## Annotations -/

theorem Continues.notes_subset (hmm : m.Continues m') (hm : m.Sound) : m.notes ⊆ m'.notes := by
  intro k hk
  obtain ⟨h, hh, hkind⟩ := List.mem_map.1 hk
  rw [← hmm.kindOf_eq (hm.stored (mem_listed.2 (.inl ⟨.annotations, hh⟩)))] at hkind
  exact List.mem_map.2 ⟨h, hmm.annotations.subset hh, hkind⟩

/-- The annotations of a global block, as far as the host knows of it: the host lays out no
more members than there are, and binds a variable for each allocation, which is what has its
name. -/
inductive BlockNotes (m : Module) (host : Host) (var block : Handle) (members : List Handle) :
    List (Kind Handle) → Prop
  | unknown : host.layout = none → BlockNotes m host var block members
      (slotNotes var metadataBinding ++ [.decorate block .bufferBlock []])
  | known {offsets : List Word} {vars : List Handle} :
    host.layout = some (.struct offsets) → offsets.length ≤ members.length →
    vars.length = (host.allocations.getD []).length →
    ((∀ h ∈ m.debug, (m.insts.get? h).isSome) →
      (host.allocations.getD []).map m.findNamed? = vars.map some) →
    BlockNotes m host var block members
      (slotNotes var metadataBinding ++ [.decorate block .bufferBlock []] ++
        (offsetNotes block offsets.zipIdx ++
          bindingNotes (slotsFrom firstAllocationBinding 0 vars)))

theorem BlockNotes.not_builtIn {host : Host} {members : List Handle}
    {notes : List (Kind Handle)} (hnotes : BlockNotes m host var block members notes)
    (target : Handle) (words : List Word) : .decorate target .builtIn words ∉ notes := by
  have hne : Decoration.builtIn ≠ .descriptorSet ∧ Decoration.builtIn ≠ .binding ∧
      Decoration.builtIn ≠ .bufferBlock := by
    decide
  cases hnotes <;> simp [slotNotes, bindingNotes, offsetNotes, hne]

theorem decorateGlobalBlock_annotates {host : Host} {outcome : BlockOutcome}
    (hrun : Runs (decorateGlobalBlock host) m outcome m') :
    m.findNamed? globalBlockName = none ∧ m' = m ∨ ∃ var block members notes,
      m.findNamed? globalBlockName = some var ∧ m.pointeeStruct? var = some (block, members) ∧
        BlockNotes m host var block members notes ∧ m.Annotates notes m' := by
  obtain ⟨notes, hdecoration, rfl⟩ := decorateGlobalBlock_eq_iff.1 hrun
  have hall {var block : Handle} {members : List Handle}
      (hblock : m.IsGlobalBlock var block members)
      (hnotes : BlockNotes m host var block members notes) :
      ∃ var block members notes', m.findNamed? globalBlockName = some var ∧
        m.pointeeStruct? var = some (block, members) ∧
          BlockNotes m host var block members notes' ∧ m.Annotates notes' (m.annotated notes) :=
    ⟨var, block, members, notes, findNamed?_eq_some.2 hblock.named,
      pointeeStruct?_eq_some.2 hblock.typed, hnotes, m.annotates_annotated notes⟩
  cases hdecoration with
  | noBlock hnone => exact .inl ⟨findNamed?_eq_none.2 hnone, annotated_nil m⟩
  | noHostLayout hblock hlayout => exact .inr (hall hblock (.unknown hlayout))
  | noAllocations hlaysOut hallocations =>
      obtain ⟨members, hblock, hle⟩ := hlaysOut.isBlock
      refine .inr (hall hblock ?_)
      rw [layoutNotes, List.append_assoc]
      exact .known hlaysOut.layout hle (by rw [hallocations]; rfl)
        (by rw [hallocations]; exact fun _ => rfl)
  | complete hlaysOut hallocations hvars =>
      obtain ⟨members, hblock, hle⟩ := hlaysOut.isBlock
      refine .inr (hall hblock ?_)
      rw [layoutNotes, List.append_assoc]
      exact .known hlaysOut.layout hle (by rw [hallocations]; exact hvars.length_eq.symm)
        (by rw [hallocations]; exact fun _ => map_findNamed?_eq.2 hvars)

/-! ## What stands there before -/

theorem globals_normalize (m : Module) : m.normalize.2.globals = m.globals := by
  rw [normalize_eq]
  obtain ⟨-, heq⟩ | ⟨insts, heq, -⟩ := m.normalizeStorage_cases
  all_goals
    rw [heq]
    rfl

theorem typeOf?_normalize (m : Module) (g : Handle) : m.normalize.2.typeOf? g = m.typeOf? g := by
  rw [normalize_eq]
  obtain ⟨-, heq⟩ | ⟨insts, heq, hinst⟩ := m.normalizeStorage_cases
  · rw [heq]
    rfl
  · rw [heq]
    change (({ m with insts } : Module).inst g).resultType = _
    rw [hinst]
    split
    · obtain ⟨-, htype⟩ | ⟨-, htype⟩ := makeUniform_cases (m.inst g)
      all_goals
        rw [htype]
        rfl
    · rfl

/-- Normalization changes nothing but storage classes. -/
theorem kindOf_normalize (m : Module) (g : Handle) : m.normalize.2.kindOf g = m.kindOf g ∨
    (m.kindOf g).storage? = some .function ∧
      m.normalize.2.kindOf g = (m.kindOf g).withStorage .uniform := by
  rw [normalize_eq]
  obtain ⟨-, heq⟩ | ⟨insts, heq, hinst⟩ := m.normalizeStorage_cases
  · rw [heq]
    exact .inl rfl
  · rw [heq]
    change (({ m with insts } : Module).inst g).kind = _ ∨
      _ ∧ (({ m with insts } : Module).inst g).kind = _
    rw [hinst]
    split
    · exact (makeUniform_cases (m.inst g)).imp (fun h => congrArg Inst.kind h.2)
        fun h => ⟨h.1, congrArg Inst.kind h.2⟩
    · exact .inl rfl

structure Readied (m m' : Module) : Prop where
  globals : m'.globals = m.globals
  insts : ∀ h ∈ m.globals, m'.inst h = (m.inst h).uniform
  bodies : ∀ f ∈ m.functions, ∀ h ∈ f.handles, m'.inst h = m.inst h
  kinds : ∀ g, (m'.kindOf g).isDeclaration → m'.kindOf g = m.kindOf g ∨
    (m.kindOf g).storage? = some .function ∧ m'.kindOf g = (m.kindOf g).withStorage .uniform
  types : ∀ g, m'.typeOf? g = m.typeOf? g
  notes : ∀ k, k ∈ m'.notes ↔ k ∈ m.notes
  named : ∀ name, m'.findNamed? name = m.findNamed? name
  functions : ∀ name, m'.findFunction? name = m.findFunction? name
  code : m.SameCode m'
  keepsIds : m.KeepsIds m'
  executionModes : m'.executionModes.map m'.inst = m.executionModes.map m.inst
  interned : (∀ d h, (d, h) ∈ m.interned → h ∈ m.globals) →
    ∀ d h, (d, h) ∈ m'.interned → h ∈ m.globals

theorem Sound.readied (hm : m.Sound) :
    Readied m (Module.addComputePreamble m.normalize.2).2 := by
  have hprepared := hm.recasts_prepared
  have hrestates := restates_addComputePreamble m.normalize.2
  have hfunctions := hm.findFunction?_prepared
  generalize (Module.addComputePreamble m.normalize.2).2 = m₂ at hprepared hrestates hfunctions ⊢
  have hglobals := hrestates.globals.trans (globals_normalize m)
  refine ⟨hglobals, fun h hh => ?_, hprepared.bodies, fun g hg => ?_,
    fun g => (hrestates.types g).trans (typeOf?_normalize m g), fun k => ?_, fun name => ?_,
    hfunctions, hprepared.code, hprepared.keepsIds, ?_, fun hinterned d h hh => ?_⟩
  · have hcontents := hprepared.contents .globals
    change m₂.globals.map m₂.inst = (m.globals.map m.inst).map Inst.uniform at hcontents
    rw [hglobals, List.map_map] at hcontents
    exact List.map_inj_left.1 hcontents h hh
  · rw [hrestates.kinds g hg]
    exact kindOf_normalize m g
  · have hkinds := congrArg (List.map Inst.kind) (hprepared.contents .annotations)
    change (m₂.annotations.map m₂.inst).map Inst.kind =
      (m.annotations.map m.inst).eraseDups.map Inst.kind at hkinds
    rw [List.map_map] at hkinds
    have hnotes : m₂.notes = m.consolidate.notes := hkinds.trans (notes_consolidate m).symm
    rw [hnotes, mem_notes_consolidate]
  · rw [findNamed?, findNamed?, named_eq, named_eq, hprepared.contents,
      Section.filterMap_prepared]
  · exact hprepared.contents .executionModes
  · rw [hrestates.interned, normalize_eq] at hh
    obtain ⟨-, heq⟩ | ⟨insts, heq, -⟩ := m.normalizeStorage_cases
    · rw [heq] at hh
      exact hinterned d h hh
    · rw [heq] at hh
      exact (interned_reintern hh).1

theorem Readied.kind_eq (hmm : Readied m m') {g : Handle} (hg : (m'.kindOf g).isDeclaration)
    (hstorage : (m'.kindOf g).storage? = none) : m'.kindOf g = m.kindOf g := by
  obtain heq | ⟨-, heq⟩ := hmm.kinds g hg
  · exact heq
  · rw [heq] at hstorage ⊢
    revert hstorage
    cases m.kindOf g <;> simp [Kind.withStorage, Kind.storage?]

theorem Readied.structs (hmm : Readied m m') (g : Handle) (members : List Handle)
    (hg : m'.kindOf g = .typeStruct members) : m.kindOf g = .typeStruct members := by
  rw [← hmm.kind_eq (by rw [hg]; rfl) (by rw [hg]; rfl), hg]

theorem Readied.vars (hmm : Readied m m') (g : Handle) (hg : (m'.kindOf g).isVar) :
    (m.kindOf g).isVar := by
  obtain heq | ⟨-, heq⟩ := hmm.kinds g (by rw [Kind.isDeclaration, hg, Bool.or_true])
  · rwa [heq] at hg
  · rw [heq] at hg
    revert hg
    cases m.kindOf g <;> simp [Kind.withStorage, Kind.isVar]

theorem interned_of_load {w : List Word} (hload : load w = .ok m) :
    ∀ d h, (d, h) ∈ m.interned → h ∈ m.globals := by
  obtain ⟨d, -, -, rfl⟩ := load_eq_ok.1 hload
  exact fun _ _ hh => (interned_reintern hh).1

end KernelGrid.Module

namespace KernelGrid

open KernelGrid.Module

/-- What is prepared has been readied, has had its global block decorated and its entry points
made. -/
theorem Job.Prepares.exists_readied {job : Job} {m p : Module} (hp : job.Prepares m p)
    (hm : m.Sound) : ∃ outcome m₂ m₃ m₄, Readied m m₂ ∧ m₂.Sound ∧
      Runs (decorateGlobalBlock job.host) m₂ outcome m₃ ∧ AddsEntries job.kernels m₃ m₄ ∧
      p = m₄.consolidate := by
  obtain ⟨outcome, m₃, m₄, hdecorate, hadds, hconsolidate⟩ := hp.stages
  exact ⟨outcome, _, m₃, m₄, hm.readied, hm.normalize.sound.addComputePreamble, hdecorate, hadds,
    hconsolidate⟩

end KernelGrid
