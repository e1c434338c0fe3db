import KernelGrid.Proofs.Kernel.GlobalBlock
import KernelGrid.Proofs.Kernel.Metadata
import KernelGrid.Proofs.Kernel.ModuleRules
import KernelGrid.Proofs.Kernel.Reloading
import KernelGrid.Proofs.Module.Validity

/-!
# Bindings of lowered modules

What a lowering binds may be bound, and what it gives offsets may have them: validation finds
nothing in the modules that are handed over, as long as nothing had bindings or offsets before.
-/

namespace KernelGrid

open KernelGrid.Module

/-- Whether a host lays out the global block in order and backs no globals by allocations. -/
structure Host.InOrder (host : Host) : Prop where
  layout : host.layout = none ∨ ∃ offsets : List Word, host.layout = some (.struct offsets) ∧
    offsets.Pairwise (· < ·)
  allocations : host.allocations = none ∨ host.allocations = some []

namespace Module

variable {m m' : Module} {notes : List (Kind Handle)} {var element block h : Handle}
  {binding : Word}

theorem binding_ne : Decoration.binding ≠ .descriptorSet ∧ Decoration.binding ≠ .builtIn ∧
    Decoration.binding ≠ .arrayStride ∧ Decoration.binding ≠ .bufferBlock := by
  decide

/-! ## What edits bind -/

structure Tidy (m : Module) : Prop where
  interns : m.Interns
  laidOut : m.LaidOut

theorem Tidy.extends (hm : m.Tidy) (hmm : m.Extends notes m')
    (hbound : ∀ var words, .decorate var .binding words ∈ notes → m'.IsBound var)
    (hplaced : ∀ block member words, .memberDecorate block member .offset words ∈ notes →
      m'.InOrder block) : m'.Tidy :=
  ⟨hmm.interns hm.interns, hm.laidOut.extends hmm hbound hplaced⟩

/-- Declarations without annotations bind nothing. -/
theorem Tidy.grow (hm : m.Tidy) (hmm : m.Extends [] m') : m'.Tidy :=
  hm.extends hmm (by simp) (by simp)

theorem Tidy.intern (hm : m.Tidy) {d : Description} (hd : d.Proper)
    (hrun : intern d m = (h, m')) : m'.Tidy :=
  hm.grow (intern_edits hd hm.interns hrun).1.toExtends

theorem Tidy.builtInVar (hm : m.Tidy) (builtIn : Word) : (builtInVar builtIn m).2.Tidy := by
  rcases hrun : Module.builtInVar builtIn m with ⟨var, m'⟩
  obtain ⟨notes, hadds, -, -, -, hnotes⟩ := builtInVar_adds hm.interns hrun
  obtain rfl | ⟨-, rfl⟩ := hnotes
  · exact hm.grow hadds.toExtends
  · exact hm.extends hadds.toExtends (by simp [binding_ne]) (by simp)

theorem IsBlockVar.isBound {members : List Handle} (hvar : m.IsBlockVar var block)
    (hblock : m.Describes block ⟨none, .typeStruct members⟩) (hmarked : m.IsMarked block) :
    m.IsBound var := by
  obtain ⟨pointer, hstored, -⟩ := hvar.stored
  exact ⟨⟨none, hstored.kindOf_eq⟩, block, members, hvar.pointeeStruct?_eq hblock, hmarked⟩

theorem Describes.inOrder {member : Handle}
    (hblock : m.Describes block ⟨none, .typeStruct [member]⟩) : m.InOrder block := by
  refine ⟨hblock.isSome, fun members hmembers => ?_⟩
  obtain rfl : [member] = members := Kind.typeStruct.inj (hblock.kindOf_eq.symm.trans hmembers)
  exact pairwise_offsets_of_le_one le_rfl

theorem Tidy.addBuffer (hm : m.Tidy) (hrun : Runs (addBuffer element binding) m var m') :
    m'.Tidy := by
  obtain ⟨array, block, stride, -, hedits, hvar, hblock, -, -⟩ :=
    addBuffer_declares hm.interns hrun
  have hnotes := hedits.notes_eq hm.laidOut.stored
  refine hm.extends hedits.toExtends (fun var' words hmem => ?_)
    fun block' member words hmem => ?_
  · obtain ⟨rfl, -⟩ : var' = var ∧ words = [binding] := by
      simpa [bufferNotes, slotNotes, binding_ne] using hmem
    refine hvar.isBound hblock ⟨[], .inl ?_⟩
    rw [hnotes]
    simp [bufferNotes]
  · obtain ⟨rfl, -⟩ : block' = block ∧ member = 0 ∧ words = [0] := by
      simpa [bufferNotes, slotNotes] using hmem
    exact hblock.inOrder

/-! ## The global block -/

/-- Offsets that are attached to what had none are in order if they increase. -/
theorem Extends.inOrder {given : List Word} (hm : m.LaidOut) (hmm : m.Extends notes m')
    (hnone : ∀ member words, .memberDecorate block member .offset words ∉ m.notes)
    (hnotes : ∀ member, notes.findSome? (Kind.memberWordsOn? block member .offset) =
      (offsetNotes block given.zipIdx).findSome? (Kind.memberWordsOn? block member .offset))
    (hgiven : given.Pairwise (· < ·)) (hlength : given.length ≤ 2 ^ 32)
    (hblock : (m'.insts.get? block).isSome) :
    m'.InOrder block := by
  refine ⟨hblock, fun members _ => ?_⟩
  rw [offsets_eq_take hlength]
  · exact hgiven.sublist (List.take_sublist _ _)
  · intro member
    have hbefore : m.notes.findSome? (Kind.memberWordsOn? block member .offset) = none := by
      rw [List.findSome?_eq_none_iff]
      intro k hk
      rw [Option.eq_none_iff_forall_ne_some]
      intro words hwords
      exact hnone member words (Kind.memberWordsOn?_eq_some.1 hwords ▸ hk)
    rw [hmm.notes_eq hm.stored, List.findSome?_append, hbefore, Option.none_or, hnotes]

theorem BlockNotes.exists_offsets {host : Host} {members : List Handle}
    (hnotes : BlockNotes m host var block members notes) (hhost : host.InOrder) :
    ∃ offsets : List Word, offsets.Pairwise (· < ·) ∧ offsets.length ≤ members.length ∧
      notes = slotNotes var metadataBinding ++ [.decorate block .bufferBlock []] ++
        offsetNotes block offsets.zipIdx := by
  cases hnotes with
  | unknown => exact ⟨[], .nil, Nat.zero_le _, (List.append_nil _).symm⟩
  | @known offsets vars hlayout hle hlength =>
      refine ⟨offsets, ?_, hle, ?_⟩
      · obtain hnone | ⟨_, hsome, hincreasing⟩ := hhost.layout
        · rw [hlayout] at hnone
          cases hnone
        · rw [hlayout] at hsome
          cases hsome
          exact hincreasing
      · have hempty : host.allocations.getD [] = [] := by
          obtain heq | heq := hhost.allocations <;> rw [heq] <;> rfl
        rw [hempty] at hlength
        rw [List.eq_nil_of_length_eq_zero hlength]
        exact congrArg _ (List.append_nil _)

/-- What lays out the global block also marks and binds it. -/
theorem Tidy.decorateGlobalBlock {host : Host} {outcome : BlockOutcome} (hm : m.Tidy)
    (hhost : host.InOrder) (hrun : Runs (decorateGlobalBlock host) m outcome m')
    (hvar : ∀ var ∈ m.findNamed? globalBlockName, ∃ initializer,
      m.kindOf var = .var .uniform initializer)
    (hnone : ∀ block member words, .memberDecorate block member .offset words ∉ m.notes)
    (hlength : ∀ g members, m.kindOf g = .typeStruct members → members.length ≤ 2 ^ 32) :
    m'.Tidy := by
  obtain ⟨-, rfl⟩ | ⟨var, block, members, notes, hfind, hfound, hnotes, hmm⟩ :=
    decorateGlobalBlock_annotates hrun
  · exact hm
  obtain ⟨offsets, hincreasing, hle, rfl⟩ := hnotes.exists_offsets hhost
  obtain ⟨_, _, -, -, hblock⟩ := pointeeStruct?_eq_some.1 hfound
  refine hm.extends hmm.toExtends (fun var' words hmem => ?_) fun block' member words hmem => ?_
  · obtain ⟨rfl, -⟩ : var' = var ∧ words = [metadataBinding] := by
      simpa [slotNotes, offsetNotes, binding_ne] using hmem
    obtain ⟨initializer, hkind⟩ := hvar var' hfind
    refine ⟨⟨initializer, ?_⟩, block, members, pointeeStruct?_mono hmm.insts hfound, [], .inl ?_⟩
    · rw [hmm.kindOf_eq (isSome_of_kindOf (by simp [hkind])), hkind]
    · rw [hmm.notes_eq hm.laidOut.stored]
      simp
  · obtain rfl : block' = block := by
      simp only [slotNotes, offsetNotes, List.mem_append, List.mem_cons, reduceCtorEq,
        List.not_mem_nil, or_false, false_or, List.mem_map] at hmem
      obtain ⟨_, -, heq⟩ := hmem
      exact (Kind.memberDecorate.inj heq).1.symm
    have hstored := isSome_of_kindOf (m := m) (h := block') (by simp [hblock])
    refine hmm.inOrder hm.laidOut (hnone block') (fun member => ?_) hincreasing
      (hle.trans (hlength block' members hblock)) (hmm.isSome hstored)
    rw [List.findSome?_append]
    rfl

/-! ## The metadata -/

/-- The record of the metadata is new, so that it has no offsets but its own. -/
theorem Tidy.declareMetadata (hm : m.Tidy) : (declareMetadata m).2.Tidy := by
  rcases hrun : Module.declareMetadata m with ⟨var, m'⟩
  obtain ⟨word, record, array, block, hedits, hvar, hblock, -, hrecord, -, hfresh, -⟩ :=
    declareMetadata_declares hm.interns hrun
  refine hm.extends hedits.toExtends (fun var' words hmem => ?_)
    fun block' member words hmem => ?_
  · obtain ⟨rfl, -⟩ : var' = var ∧ words = [metadataBinding] := by
      simpa [metadataNotes, offsetNotes, slotNotes, binding_ne] using hmem
    refine hvar.isBound hblock ⟨[], .inl ?_⟩
    rw [hedits.notes_eq hm.laidOut.stored]
    simp [metadataNotes]
  · obtain rfl : block' = record := by
      simp only [metadataNotes, slotNotes, offsetNotes, List.mem_append, List.mem_cons,
        reduceCtorEq, List.not_mem_nil, or_false, List.mem_map] at hmem
      obtain ⟨_, -, heq⟩ := hmem
      exact (Kind.memberDecorate.inj heq).1.symm
    have hoffsets (member : Word) : (metadataNotes block' array block var).findSome?
        (Kind.memberWordsOn? block' member .offset) =
        (offsetNotes block' metadataOffsets.zipIdx).findSome?
          (Kind.memberWordsOn? block' member .offset) := by
      rw [metadataNotes, List.findSome?_append]
      exact Option.or_none
    refine hedits.inOrder hm.laidOut (fun member words hmem => ?_) hoffsets (by decide)
      (by decide) hrecord.isSome
    have hstored := (hm.laidOut.placed block' member words hmem).stored
    rw [hfresh] at hstored
    cases hstored

end Module

/-! ## Entry points -/

namespace Module

theorem tidy_rules : DeclarationRules Tidy fun _ => True where
  code hm hmm _ := hm.grow hmm
  intern hd _ hm hrun := hm.intern hd hrun
  builtInVar builtIn hm := hm.builtInVar builtIn
  addBuffer _ hm hrun := hm.addBuffer hrun
  declaration _ := trivial
  value _ := trivial

end Module

theorem AddsEntries.tidy {ks : List Kernel} {m m' : Module} (hadds : AddsEntries ks m m')
    (hm : m.Tidy) : m'.Tidy :=
  hadds.keeps hm fun _ k hm => tidy_rules.addEntry hm k fun _ _ _ _ => trivial

/-! ## Reading again -/

namespace Module

variable {m m' : Module} {var var' block block' : Handle} (hmm : Paired m m')

include hmm

theorem Paired.isMarked (ht : Twins m m' block block') (hblock : m.IsMarked block) :
    m'.IsMarked block' := by
  obtain ⟨words, hmarked⟩ := hblock
  exact ⟨words, hmarked.imp (hmm.decorate_mem ht) (hmm.decorate_mem ht)⟩

theorem Paired.isBound (ht : Twins m m' var var') (hvar : m.IsBound var) : m'.IsBound var' := by
  obtain ⟨⟨initializer, hkind⟩, block, members, hpointee, hmarked⟩ := hvar
  obtain ⟨block', members', hpointee', htwin, -⟩ := hmm.pointeeStruct? ht hpointee
  have hmap := ht.kind_eq
  rw [hkind] at hmap
  have hvar : (m'.kindOf var').map m'.idOf = .var .uniform (initializer.map m.idOf) := by
    rw [← hmap]
    cases initializer <;> rfl
  obtain ⟨initializer', hkind', -⟩ := Kind.map_eq_var.1 hvar
  exact ⟨⟨initializer', hkind'⟩, block', members', hpointee', hmm.isMarked htwin hmarked⟩

theorem Paired.inOrder (ht : Twins m m' block block') (hblock : m.InOrder block) :
    m'.InOrder block' := by
  refine ⟨ht.usable'.stored, fun members' hmembers' => ?_⟩
  have hkind := ht.kind_eq
  rw [hmembers', Kind.map_eq_typeStruct.2 ⟨members', rfl, rfl⟩] at hkind
  obtain ⟨members, hmembers, hids⟩ := Kind.map_eq_typeStruct.1 hkind
  have hlength : members.length = members'.length := by
    simpa using congrArg List.length hids
  have hoffsets : m'.offsets block' members'.length.toUInt32 =
      m.offsets block members.length.toUInt32 := by
    rw [hlength]
    refine List.filterMap_congr fun i _ => ?_
    rw [memberOffset?_eq_notes, memberOffset?_eq_notes, hmm.findSome?_notes ht]
  rw [hoffsets]
  exact hblock.increasing members hmembers

theorem Paired.laidOut (hm : m.LaidOut) : m'.LaidOut := by
  refine ⟨fun h hh => hmm.sound'.stored (mem_listed.2 (.inl ⟨.annotations, hh⟩)),
    fun var' words hmem => ?_, fun block' member words hmem => ?_⟩
  · obtain ⟨var, ht, hnote⟩ := hmm.exists_decorate hmem
    exact hmm.isBound ht (hm.bound var words hnote)
  · obtain ⟨block, ht, hnote⟩ := hmm.exists_memberDecorate hmem
    exact hmm.inOrder ht (hm.placed block member words hnote)

end Module

/-! ## What is handed over -/

namespace Module

variable {m m' : Module}

/-- Whether no size of a work group is zero, nothing is bound or has offsets yet, and the
global block, if there is one, is a global variable in function storage or uniform storage. -/
structure Unbound (m : Module) : Prop where
  groups : m.NonEmptyGroups
  bound : ∀ var words, .decorate var .binding words ∉ m.notes
  placed : ∀ block member words, .memberDecorate block member .offset words ∉ m.notes
  globalBlock : ∀ var ∈ m.findNamed? globalBlockName, var ∈ m.globals ∧ ∃ storage initializer,
    m.kindOf var = .var storage initializer ∧ (storage = .function ∨ storage = .uniform)

theorem Readied.tidy (hmm : Readied m m') (hm : m.Unbound) (hm' : m'.Sound) : m'.Tidy where
  interns := hm'.interns
  laidOut := {
    stored _ hh := hm'.stored (mem_listed.2 (.inl ⟨.annotations, hh⟩))
    bound var words hmem := absurd ((hmm.notes _).1 hmem) (hm.bound var words)
    placed block member words hmem :=
      absurd ((hmm.notes _).1 hmem) (hm.placed block member words) }

theorem Readied.globalBlock (hmm : Readied m m') (hm : m.Unbound) :
    ∀ var ∈ m'.findNamed? globalBlockName, ∃ initializer,
      m'.kindOf var = .var .uniform initializer := by
  intro var hvar
  rw [hmm.named] at hvar
  obtain ⟨hglobal, storage, initializer, hkind, hstorage⟩ := hm.globalBlock var hvar
  refine ⟨initializer, ?_⟩
  have hkind : (m.inst var).kind = .var storage initializer := hkind
  have hkept : (m.inst var).kind.storage? = some storage := by
    rw [hkind]
    rfl
  rw [kindOf, hmm.insts var hglobal, Inst.uniform, hkept]
  obtain rfl | rfl := hstorage
  · rw [if_pos rfl, hkind]
    rfl
  · rw [if_neg (by decide), hkind]

end Module

namespace Job

variable {job : Job} {m p m' : Module}

theorem Prepares.laidOut (hp : job.Prepares m p) (hload : Module.load job.words = .ok m)
    (hm : m.Unbound) (hhost : job.host.InOrder) : p.LaidOut := by
  obtain ⟨outcome, m₂, m₃, m₄, hreadied, hsound₂, hdecorate, hadds, rfl⟩ :=
    hp.exists_readied (sound_of_load hload)
  have hm₃ : m₃.Tidy := by
    refine (hreadied.tidy hm hsound₂).decorateGlobalBlock
      hhost hdecorate (hreadied.globalBlock hm)
      (fun block member words hmem => hm.placed block member words ((hreadied.notes _).1 hmem))
      ?_
    intro g members hg
    have hlt := length_members_lt hload (hreadied.structs g members hg)
    exact hlt.le.trans (by decide)
  exact (hadds.tidy hm₃).laidOut.consolidate

/-- New entry points are for groups of one member, and everything else keeps its size. -/
theorem Prepares.nonEmptyGroups (hp : job.Prepares m p) (hm : m.Sound)
    (hgroups : m.NonEmptyGroups) : p.NonEmptyGroups := by
  obtain ⟨outcome, m₂, m₃, m₄, hreadied, hsound₂, hdecorate, hadds, rfl⟩ := hp.exists_readied hm
  have hedited := hsound₂.decorateGlobalBlock hdecorate
  have hwraps := hadds.wraps hedited.sound
  have hcontinues := hedited.continues.trans hwraps.continues
  constructor
  · intro e he size hsize
    obtain ⟨es, hentries, -, hes⟩ := hwraps.entries
    have he : e ∈ m₄.entryPoints := he
    rw [hentries, hedited.code.entryPoints, hreadied.code.entryPoints, List.mem_append] at he
    obtain he | he := he
    · exact hgroups.entryPoints e he size hsize
    · have hmem := List.mem_map_of_mem (f := fun e => (e.model, e.name, e.localSize)) he
      rw [hes, List.mem_map] at hmem
      obtain ⟨k, -, hk⟩ := hmem
      have hsome : some ⟨1, 1, 1⟩ = some size := (congrArg (fun x => x.2.2) hk).trans hsize
      obtain rfl := Option.some.inj hsome
      decide
  · intro h hh function size hkind
    have hh : h ∈ Section.executionModes.handles m₄ := hh
    rw [hcontinues.sections .executionModes (by decide) (by decide)] at hh
    have hkind : m₄.kindOf h = .executionMode function .localSize size.toList := hkind
    rw [hcontinues.kindOf_eq
      (hsound₂.stored (mem_listed.2 (.inl ⟨.executionModes, hh⟩)))] at hkind
    have hmem : m₂.inst h ∈ m₂.executionModes.map m₂.inst := List.mem_map_of_mem hh
    rw [hreadied.executionModes, List.mem_map] at hmem
    obtain ⟨g, hg, heq⟩ := hmem
    exact hgroups.executionModes g hg function size ((congrArg Inst.kind heq).trans hkind)

/-- Validation finds nothing in what is handed over, whatever the kernels, if the module that
is read has neither bindings nor offsets nor empty work groups: neither before built-in
functions are replaced nor, without a replacement, before accessors are. -/
theorem validate_handedOver (hload : Module.load job.words = .ok m) (hm : m.Unbound)
    (hhost : job.host.InOrder) :
    (∀ t p, (job.lower t).2.toBuiltIns = some p → p.validate = []) ∧
      ∀ n metadata, (job.lower .passThrough).2.toAccessors = some (n, metadata) →
      n.validate = [] := by
  have hsound := sound_of_load hload
  constructor
  · intro t p hp
    obtain ⟨_, hload', hprepares⟩ := prepares_of_toBuiltIns hp
    obtain rfl := Except.ok.inj (hload.symm.trans hload')
    exact (hprepares.laidOut hload hm hhost).validate_eq_nil
      (hprepares.nonEmptyGroups hsound hm.groups).entryPoints
  · intro n metadata hn
    obtain ⟨_, p, words, m', hload', hprepares, hencode, hreload, rfl, -⟩ :=
      completes_of_toAccessors hn
    obtain rfl := Except.ok.inj (hload.symm.trans hload')
    have hgroups := hprepares.nonEmptyGroups hsound hm.groups
    have hreloads := (hprepares.sound hsound).reloads (mapError_eq_ok.1 hencode) hreload
    have htidy : m'.Tidy :=
      ⟨hreloads.paired.sound'.interns,
        hreloads.paired.laidOut (hprepares.laidOut hload hm hhost)⟩
    have hlaid := htidy.declareMetadata.laidOut
    have hentries := hreloads.paired.sound'.declareMetadata.code.entryPoints
    revert hlaid hentries
    generalize (Module.declareMetadata m').2 = n
    intro hlaid hentries
    refine hlaid.consolidate.validate_eq_nil fun e he size hsize => ?_
    have he : e ∈ n.entryPoints := he
    rw [hentries] at he
    obtain ⟨e₀, he₀, hsize₀⟩ | ⟨h, hh, function, hkind⟩ := hreloads.sizes e he size hsize
    · exact hgroups.entryPoints e₀ he₀ size hsize₀
    · exact hgroups.executionModes h hh function size hkind

def blockKernel : Job where
  words := [Stream.magic, 0x10000, 0, 9, 0, 0x50005, 4, 0x50475f5f, 0x6f6c4255, 0x6b63,
    0x30005, 6, 0x66, 0x40015, 1, 32, 0, 0x4001e, 2, 1, 1, 0x40020, 3, 7, 2, 0x4003b, 3, 4, 7,
    0x40021, 5, 1, 1, 0x50036, 1, 6, 0, 5, 0x30037, 1, 7, 0x200f8, 8, 0x200fe, 7, 0x10038]
  kernels := [⟨"f", (Signature.kernel.union .input).union .output, 1⟩]
  host := ⟨some (.struct [0, 4]), some []⟩
  validates := true

/-- The block, a buffer for the result, one for the input and the metadata are bound. -/
theorem validate_handedOver_blockKernel : ∃ m, Module.load blockKernel.words = .ok m ∧
    m.Unbound ∧ blockKernel.host.InOrder ∧
    (∃ p, (blockKernel.lower .passThrough).2.toBuiltIns = some p ∧ p.validate = []) ∧
    ∃ n metadata, (blockKernel.lower .passThrough).2.toAccessors = some (n, metadata) ∧
      n.validate = [] := by
  have hread : (Module.load blockKernel.words).toOption.map (fun m => (m.entryPoints.isEmpty,
      m.executionModes.isEmpty, m.annotations.isEmpty,
      (m.findNamed? globalBlockName).map fun var =>
        (decide (var ∈ m.globals), decide (m.kindOf var = .var .function none)))) =
      some (true, true, true, some (true, true)) := by
    decide +kernel
  have hhanded : (blockKernel.lower .passThrough).2.toBuiltIns.isSome = true ∧
      (blockKernel.lower .passThrough).2.toAccessors.isSome = true := by
    decide +kernel
  have hhost : blockKernel.host.InOrder := ⟨.inr ⟨[0, 4], rfl, by decide⟩, .inr rfl⟩
  cases hload : Module.load blockKernel.words with
  | error e =>
      rw [hload] at hread
      cases hread
  | ok m =>
      rw [hload] at hread
      obtain ⟨hentries, hmodes, hannotations, hnamed⟩ := by
        simpa only [Except.toOption, Option.map_some, Option.some.injEq,
          Prod.mk.injEq] using hread
      rw [List.isEmpty_iff] at hentries hmodes hannotations
      have hnotes : m.notes = [] := by rw [Module.notes, hannotations, List.map_nil]
      have hm : m.Unbound := by
        refine ⟨⟨by simp [hentries], by simp [hmodes]⟩, by simp [hnotes], by simp [hnotes],
          fun var hvar => ?_⟩
        rw [Option.mem_def] at hvar
        simp only [hvar, Option.map_some, Option.some.injEq, Prod.mk.injEq,
          decide_eq_true_eq] at hnamed
        exact ⟨hnamed.1, .function, none, hnamed.2, .inl rfl⟩
      obtain ⟨hbuiltIns, haccessors⟩ := validate_handedOver hload hm hhost
      obtain ⟨p, hp⟩ := Option.isSome_iff_exists.1 hhanded.1
      obtain ⟨⟨n, metadata⟩, hn⟩ := Option.isSome_iff_exists.1 hhanded.2
      exact ⟨m, rfl, hm, hhost, ⟨p, hp, hbuiltIns _ p hp⟩, n, metadata, hn,
        haccessors n metadata hn⟩

end Job

end KernelGrid
