import KernelGrid.Proofs.Kernel.Bindings
import KernelGrid.Proofs.Kernel.HandleSafety
import KernelGrid.Proofs.Kernel.Spacing

/-!
# Layouts of lowered modules

A lowering lays out its buffers and the global block.  In the modules that are handed over
nothing is laid out twice, as long as what it lays out is not laid out differently before.
-/

namespace KernelGrid

open KernelGrid.Module

variable {job : Job}

/-! ## What fits a lowering -/

def Job.Buffers (job : Job) (m : Module) (element : Handle) : Prop :=
  ∃ k ∈ job.kernels, ∃ c, k.callee? m = .ok (some c) ∧ element ∈ c.bufferTypes

/-- Whether no offset but the one that a host gives it stands at a member of the global block,
and the array of a buffer is not given another offset than zero. -/
def Host.Fits (host : Host) (m : Module) (elements : Handle → Prop) : Prop :=
  ∀ offsets, host.layout = some (.struct offsets) → ∀ var ∈ m.findNamed? globalBlockName,
    ∀ block members, m.pointeeStruct? var = some (block, members) →
      (∀ (i : Nat) offset, offsets[i]? = some offset →
        ∀ words ∈ m.memberDecorations block i.toUInt32 .offset, words = [offset]) ∧
      ∀ array element, members = [array] → m.kindOf array = .typeRuntimeArray element →
        elements element → ∀ offset ∈ offsets.head?, offset = 0

/-- Whether a module lays out nothing twice and what a lowering lays out, if at all, as the
lowering does: arrays of elements of buffers, structs of such an array alone, and the global
block. -/
structure Job.Fits (job : Job) (m : Module) : Prop where
  once : m.LaidOutOnce
  strides : ∀ array element, m.kindOf array = .typeRuntimeArray element → job.Buffers m element →
    ∀ s, m.byteSize element = .ok s → ∀ words ∈ m.decorations array .arrayStride, words = [s]
  offsets : ∀ block array element, m.kindOf block = .typeStruct [array] →
    m.kindOf array = .typeRuntimeArray element → job.Buffers m element →
    ∀ words ∈ m.memberDecorations block 0 .offset, words = [0]
  globalBlock : job.host.Fits m (job.Buffers m)

def Host.Places (host : Host) (m : Module) : Prop :=
  ∀ offsets, host.layout = some (.struct offsets) → ∀ var ∈ m.findNamed? globalBlockName,
    ∃ block members, m.pointeeStruct? var = some (block, members) ∧
      offsets.length ≤ members.length ∧ ∀ (i : Nat) offset, offsets[i]? = some offset →
        .memberDecorate block i.toUInt32 .offset [offset] ∈ m.notes

/-- How the modules that are handed over are laid out, if the module that was read has so many
globals: nothing twice, the global block as the host does, and the elements of new buffers by
their size. -/
structure Job.LaysOut (job : Job) (base : Nat) (m : Module) : Prop where
  once : m.LaidOutOnce
  globalBlock : ∀ offsets, job.host.layout = some (.struct offsets) →
    ∀ var ∈ m.findNamed? globalBlockName, ∃ block members,
      m.pointeeStruct? var = some (block, members) ∧ offsets.length ≤ members.length ∧
      ∀ (i : Nat) offset, offsets[i]? = some offset →
        ∀ words, words ∈ m.memberDecorations block i.toUInt32 .offset ↔ words = [offset]
  buffers : ∀ var ∈ m.globals.drop base, (m.kindOf var).isUniformVar → ∃ block array element s,
    m.pointeeStruct? var = some (block, [array]) ∧ m.kindOf array = .typeRuntimeArray element ∧
      m.byteSize element = .ok s ∧ ∀ words, words ∈ m.decorations array .arrayStride ↔
      words = [s]

structure Job.Places (job : Job) (base : Nat) (m : Module) : Prop where
  base_le : base ≤ m.globals.length
  once : m.LaidOutOnce
  globalBlock : job.host.Places m
  buffers : ∀ var ∈ m.globals.drop base, (m.kindOf var).isUniformVar → m.IsStrided var

/-- Where nothing is laid out twice, nothing is laid out differently. -/
theorem Job.Places.laysOut {base : Nat} {m : Module} (hm : job.Places base m)
    (hcontained : m.Contained) : job.LaysOut base m := by
  refine ⟨hm.once, fun offsets hlayout var hvar => ?_, fun var hvar huniform => ?_⟩
  · obtain ⟨block, members, hpointee, hle, hplaced⟩ := hm.globalBlock offsets hlayout var hvar
    refine ⟨block, members, hpointee, hle, fun i offset hi words => ⟨fun hwords => ?_, ?_⟩⟩
    · exact hm.once.offsets block _ words hwords _
        (mem_memberDecorations.2 (hplaced i offset hi))
    · rintro rfl
      exact mem_memberDecorations.2 (hplaced i offset hi)
  · obtain ⟨block, array, element, s, hpointee, harray, hsize, hstride⟩ :=
      hm.buffers var hvar huniform
    refine ⟨block, array, element, s, hpointee, harray, (hasSize_iff hcontained).1 hsize,
      fun words => ⟨fun hwords => ?_, ?_⟩⟩
    · exact hm.once.strides array words hwords _ (mem_decorations.2 hstride)
    · rintro rfl
      exact mem_decorations.2 hstride

theorem Host.Places.continues {host : Host} {m m' : Module} (hm : host.Places m)
    (hsound : m.Sound) (hmm : m.Continues m') : host.Places m' := by
  intro offsets hlayout var hvar
  rw [findNamed?,
    hmm.named_eq fun h hh => hsound.stored (mem_listed.2 (.inl ⟨.debug, hh⟩))] at hvar
  obtain ⟨block, members, hpointee, hle, hplaced⟩ := hm offsets hlayout var hvar
  exact ⟨block, members, pointeeStruct?_mono hmm.insts hpointee, hle,
    fun i offset hi => hmm.notes_subset hsound (hplaced i offset hi)⟩

namespace Module

variable {m m' m₀ : Module} {elements : Handle → Prop} {t var block h : Handle} {s : Word}

/-! ## What was read -/

theorem Readied.hasSize (hmm : Readied m m') (hs : m'.HasSize t s) : m.HasSize t s := by
  refine hs.of_alike (R := Eq) (f := id) (g := id) (fun t _ ht hmakeup => ?_)
    (fun u _ hu n hn => ?_) rfl
  · subst ht
    have hkind : (m'.kindOf t).isDeclaration := by
      rw [Kind.isDeclaration, Kind.isType_of_makeup hmakeup]
      rfl
    refine ⟨?_, fun _ _ _ _ => id⟩
    obtain heq | ⟨-, heq⟩ := hmm.kinds t hkind
    · rw [heq]
    · rw [heq, Kind.makeup_withStorage]
  · subst hu
    refine constantValue?_of_kindOf_eq (fun hne => ?_) hn
    have hconstant : (m'.kindOf u).isConstant := by
      revert hne
      unfold constantValue?
      cases m'.kindOf u <;> simp [Kind.isConstant]
    refine (hmm.kind_eq ?_ ?_).symm
    · rw [Kind.isDeclaration, hconstant, Bool.or_true]
      rfl
    · revert hconstant
      cases m'.kindOf u <;> simp [Kind.isConstant, Kind.storage?]

theorem Readied.buffers_iff (hmm : Readied m m') : job.Buffers m' t ↔ job.Buffers m t := by
  have hcallee (k : Kernel) : k.callee? m' = k.callee? m :=
    Kernel.callee?_congr (hmm.functions k.name) hmm.bodies
  simp only [Job.Buffers, hcallee]

theorem Readied.pointeeStruct? (hmm : Readied m m') {members : List Handle}
    (hpointee : m'.pointeeStruct? var = some (block, members)) :
    m.pointeeStruct? var = some (block, members) := by
  obtain ⟨pointer, storage, htype, hpointer, hblock⟩ := pointeeStruct?_eq_some.1 hpointee
  rw [hmm.types] at htype
  have hblock := hmm.structs block members hblock
  obtain heq | ⟨-, heq⟩ := hmm.kinds pointer (by rw [hpointer]; rfl)
  · exact pointeeStruct?_eq_some.2 ⟨pointer, storage, htype, heq.symm.trans hpointer, hblock⟩
  · obtain ⟨storage', hpointer'⟩ : ∃ storage',
        m.kindOf pointer = .typePointer storage' block := by
      rw [hpointer] at heq
      revert heq
      cases m.kindOf pointer <;> simp [Kind.withStorage, eq_comm]
    exact pointeeStruct?_eq_some.2 ⟨pointer, storage', htype, hpointer', hblock⟩

theorem Sound.spaced (hm : m.Sound) (honce : m.LaidOutOnce)
    (hstrides : ∀ array element, m.kindOf array = .typeRuntimeArray element → elements element →
      ∀ s, m.HasSize element s → ∀ words, .decorate array .arrayStride words ∈ m.notes →
        words = [s])
    (hoffsets : ∀ block array element, m.kindOf block = .typeStruct [array] →
      m.kindOf array = .typeRuntimeArray element → elements element →
      ∀ words, .memberDecorate block 0 .offset words ∈ m.notes → words = [0]) :
    m.Spaced m elements := by
  have htarget {k : Kind Handle} (hk : k ∈ m.notes) {r : Handle} (hr : r ∈ k.references) :
      (m.insts.get? r).isSome := by
    obtain ⟨h, -, rfl⟩ := List.mem_map.1 hk
    exact (hm.usable_of_kindOf hr).stored
  refine ⟨hm.interns, fun h hh => hm.stored (mem_listed.2 (.inl ⟨.annotations, hh⟩)),
    fun _ _ => id, List.prefix_rfl, honce,
    fun array words hmem => ⟨?_, fun element hkind => ⟨?_, fun helement s hs => ?_⟩⟩,
    fun block member words hmem => ⟨?_, fun array hkind => ⟨?_, ?_⟩⟩, by simp⟩
  · exact htarget hmem (by simp [Kind.references, Kind.operands, List.filterMap_cons])
  · exact (hm.usable_of_kindOf (h := array)
      (by simp [hkind, Kind.references, Kind.operands])).stored
  · exact hstrides array element hkind helement s hs words hmem
  · exact htarget hmem (by simp [Kind.references, Kind.operands, List.filterMap_cons])
  · exact (hm.usable_of_kindOf (h := block)
      (by simp [hkind, Kind.references, Kind.operands])).stored
  · rintro element hkind' helement rfl
    exact hoffsets block array element hkind hkind' helement words hmem

theorem Readied.spaced (hmm : Readied m m') (hm : m.Contained) (hfits : job.Fits m)
    (hm' : m'.Sound) : m'.Spaced m' (job.Buffers m') := by
  have harray {array element : Handle} (hkind : m'.kindOf array = .typeRuntimeArray element) :
      m.kindOf array = .typeRuntimeArray element := by
    rw [← hmm.kind_eq (by rw [hkind]; rfl) (by rw [hkind]; rfl), hkind]
  refine hm'.spaced ⟨?_, ?_⟩ (fun array element hkind helement s hs words hmem => ?_)
    fun block array element hkind hkind' helement words hmem => ?_
  · intro target a ha b hb
    rw [mem_decorations, hmm.notes, ← mem_decorations] at ha hb
    exact hfits.once.strides target a ha b hb
  · intro block member a ha b hb
    rw [mem_memberDecorations, hmm.notes, ← mem_memberDecorations] at ha hb
    exact hfits.once.offsets block member a ha b hb
  · exact hfits.strides array element (harray hkind) (hmm.buffers_iff.1 helement) s
      ((hasSize_iff hm).1 (hmm.hasSize hs)) words (mem_decorations.2 ((hmm.notes _).1 hmem))
  · exact hfits.offsets block array element (hmm.structs block [array] hkind) (harray hkind')
      (hmm.buffers_iff.1 helement) words (mem_memberDecorations.2 ((hmm.notes _).1 hmem))

theorem Readied.hostFits {host : Host} (hmm : Readied m m')
    (hfits : host.Fits m (job.Buffers m)) : host.Fits m' (job.Buffers m') := by
  intro offsets hlayout var hvar block members hpointee
  rw [hmm.named] at hvar
  obtain ⟨hoffsets, harray⟩ :=
    hfits offsets hlayout var hvar block members (hmm.pointeeStruct? hpointee)
  refine ⟨fun i offset hi words hwords => ?_, fun array element hmembers hkind helement => ?_⟩
  · rw [mem_memberDecorations, hmm.notes] at hwords
    exact hoffsets i offset hi words (mem_memberDecorations.2 hwords)
  · refine harray array element hmembers ?_ (hmm.buffers_iff.1 helement)
    rw [← hmm.kind_eq (by rw [hkind]; rfl) (by rw [hkind]; rfl), hkind]

/-! ## The global block -/

theorem BlockNotes.not_stride {host : Host} {members : List Handle} {notes : List (Kind Handle)}
    (hnotes : BlockNotes m host var block members notes) (array : Handle) (words : List Word) :
    .decorate array .arrayStride words ∉ notes := by
  cases hnotes <;> simp [slotNotes, bindingNotes, offsetNotes, stride_ne]

theorem BlockNotes.offset_mem {host : Host} {members : List Handle} {notes : List (Kind Handle)}
    (hnotes : BlockNotes m host var block members notes) {g : Handle} {member : Word}
    {words : List Word} (hmem : .memberDecorate g member .offset words ∈ notes) : ∃ offsets,
      host.layout = some (.struct offsets) ∧ offsets.length ≤ members.length ∧
        .memberDecorate g member .offset words ∈ offsetNotes block offsets.zipIdx := by
  cases hnotes with
  | unknown => simp [slotNotes] at hmem
  | @known offsets vars hlayout hle =>
      refine ⟨offsets, hlayout, hle, ?_⟩
      simpa [slotNotes, bindingNotes] using hmem

theorem BlockNotes.places {host : Host} {members : List Handle} {notes : List (Kind Handle)}
    (hnotes : BlockNotes m host var block members notes) {offsets : List Word}
    (hlayout : host.layout = some (.struct offsets)) : offsets.length ≤ members.length ∧
      ∀ k ∈ offsetNotes block offsets.zipIdx, k ∈ notes := by
  cases hnotes with
  | unknown hnone =>
      rw [hlayout] at hnone
      cases hnone
  | @known offsets' vars hlayout' hle =>
      obtain rfl : offsets = offsets' := by simpa [hlayout] using hlayout'
      exact ⟨hle, fun k hk => by simp [hk]⟩

theorem Sound.decorateGlobalBlock_places {host : Host} {outcome : BlockOutcome}
    (hsound : m.Sound) (hrun : Runs (Module.decorateGlobalBlock host) m outcome m') :
    host.Places m' := by
  have hnamed := (hsound.decorateGlobalBlock hrun).continues.findNamed?_eq fun h hh =>
    hsound.stored (mem_listed.2 (.inl ⟨.debug, hh⟩))
  rw [Host.Places, hnamed]
  obtain ⟨hnone, rfl⟩ | ⟨var, block, members, notes, hfind, hpointee, hnotes, hmm⟩ :=
    decorateGlobalBlock_annotates hrun
  · exact fun _ _ var hvar => by simp [hnone] at hvar
  intro offsets hlayout var' hvar'
  obtain rfl : var = var' := Option.some.inj (hfind.symm.trans hvar')
  obtain ⟨hle, hmem⟩ := hnotes.places hlayout
  refine ⟨block, members, pointeeStruct?_mono hmm.insts hpointee, hle, fun i offset hi => ?_⟩
  rw [hmm.notes_eq fun h hh => hsound.stored (mem_listed.2 (.inl ⟨.annotations, hh⟩))]
  exact List.mem_append_right _ (hmem _ (mem_offsetNotes.2 ⟨i, offset, hi, rfl⟩))

theorem Spaced.decorateGlobalBlock {host : Host} {outcome : BlockOutcome}
    (hm : m.Spaced m₀ elements) (hsound : m.Sound) (hfits : host.Fits m elements)
    (hlength : ∀ g members, m.kindOf g = .typeStruct members → members.length ≤ 2 ^ 32)
    (hrun : Runs (decorateGlobalBlock host) m outcome m') : m'.Spaced m₀ elements := by
  obtain ⟨-, rfl⟩ | ⟨var, block, members, notes, hfind, hpointee, hnotes, hmm⟩ :=
    decorateGlobalBlock_annotates hrun
  · exact hm
  obtain ⟨_, _, -, -, hblock⟩ := pointeeStruct?_eq_some.1 hpointee
  have hstored : (m.insts.get? block).isSome := isSome_of_kindOf (by simp [hblock])
  refine hm.attach hmm.toExtends
    (fun array words hmem => absurd hmem (hnotes.not_stride array words))
    (fun g member words hmem => ?_) ⟨[], by rw [hmm.globals_eq, List.append_nil], by simp⟩
  obtain ⟨offsets, hlayout, hle, hmem'⟩ := hnotes.offset_mem hmem
  obtain ⟨i, offset, hi, heq⟩ := mem_offsetNotes.1 hmem'
  obtain ⟨rfl, rfl, -, rfl⟩ := Kind.memberDecorate.inj heq
  obtain ⟨hoffsets, harray⟩ := hfits offsets hlayout var hfind g members hpointee
  refine ⟨⟨hmm.isSome hstored, fun array hkind => ?_⟩, fun words' hwords' => ?_⟩
  · rw [hmm.kindOf_eq hstored, hblock] at hkind
    obtain rfl := Kind.typeStruct.inj hkind
    have hmember : (m.insts.get? array).isSome :=
      (hsound.usable_of_kindOf (h := g)
        (by simp [hblock, Kind.references, Kind.operands])).stored
    refine ⟨hmm.isSome hmember, fun element hkind' helement _ => ?_⟩
    rw [hmm.kindOf_eq hmember] at hkind'
    have hzero := harray array element rfl hkind' helement
    obtain rfl : i = 0 := by
      have hlt := (List.getElem?_eq_some_iff.1 hi).1
      rw [List.length_singleton] at hle
      omega
    rw [hzero offset (by rw [List.head?_eq_getElem?]; exact hi)]
  · obtain hwords' | hwords' := List.mem_append.1 hwords'
    · exact hoffsets i offset hi words' (mem_memberDecorations.2 hwords')
    · obtain ⟨offsets', hlayout', -, hwords'⟩ := hnotes.offset_mem hwords'
      obtain rfl : offsets = offsets' := by simpa [hlayout] using hlayout'
      exact eq_of_mem_offsetNotes (hle.trans (hlength g members hblock)) hi hwords'

end Module

/-! ## Entry points -/

theorem Job.Buffers.owns {m : Module} {element : Handle} (hm : m.Contained)
    (helement : job.Buffers m element) : m.Owns element := by
  obtain ⟨k, -, c, hcallee, hmem⟩ := helement
  obtain ⟨hresult, hinputs⟩ := hm.owns_of_callee? hcallee
  exact Callee.forall_mem_bufferTypes hresult hinputs element hmem

theorem AddsEntries.spaced {ks : List Kernel} {m₀ m m' : Module} {elements : Handle → Prop}
    (hadds : AddsEntries ks m m') (hm₀ : m₀.Contained)
    (howns : ∀ element, elements element → m₀.Owns element)
    (hbuffers : ∀ k ∈ ks, ∀ c, k.callee? m₀ = .ok (some c) → ∀ t ∈ c.bufferTypes, elements t)
    (hsound : m.Sound) (hmm : m₀.Continues m)
    (hm : m.Spaced m₀ elements) : m'.Spaced m₀ elements := by
  induction hadds with
  | nil => exact hm
  | @cons k ks m m₁ m₂ outcome hrun _ ih =>
      rw [List.forall_mem_cons] at hbuffers
      have hm₁ : addEntry k m = (.ok outcome, m₁) := hrun
      have hsound₁ := hsound.addEntry k
      have hspaced := (spaced_rules hm₀ howns).addEntry hm k fun c hcallee =>
        hbuffers.1 c ((Kernel.callee?_eq hm₀ hmm k).symm.trans hcallee)
      rw [hm₁] at hsound₁ hspaced
      exact ih hbuffers.2 hsound₁ (hmm.trans (hsound.wraps_addEntry hrun).continues) hspaced

/-! ## What is handed over -/

namespace Module

variable {m m' : Module} {host : Host} {base : Nat} {var var' : Handle}

theorem LaidOutOnce.consolidate (hm : m.LaidOutOnce) : m.consolidate.LaidOutOnce := by
  constructor
  · intro target a ha b hb
    rw [mem_decorations, mem_notes_consolidate, ← mem_decorations] at ha hb
    exact hm.strides target a ha b hb
  · intro block member a ha b hb
    rw [mem_memberDecorations, mem_notes_consolidate, ← mem_memberDecorations] at ha hb
    exact hm.offsets block member a ha b hb

theorem consolidate_hostPlaces (hm : host.Places m) : host.Places m.consolidate := by
  intro offsets hlayout var hvar
  obtain ⟨block, members, hpointee, hle, hplaced⟩ := hm offsets hlayout var hvar
  exact ⟨block, members, hpointee, hle,
    fun i offset hi => mem_notes_consolidate.2 (hplaced i offset hi)⟩

theorem IsStrided.consolidate (hvar : m.IsStrided var) : m.consolidate.IsStrided var := by
  obtain ⟨block, array, element, s, hpointee, harray, hsize, hstride⟩ := hvar
  exact ⟨block, array, element, s, hpointee, harray, hsize.mono fun _ _ => id,
    mem_notes_consolidate.2 hstride⟩

theorem consolidate_places (hm : job.Places base m) : job.Places base m.consolidate := by
  exact ⟨hm.base_le, hm.once.consolidate, consolidate_hostPlaces hm.globalBlock,
    fun var hvar huniform => (hm.buffers var hvar huniform).consolidate⟩

section

variable (hmm : Paired m m')

include hmm

theorem Paired.laidOutOnce (hm : m.LaidOutOnce) : m'.LaidOutOnce := by
  constructor
  · intro target' a ha b hb
    rw [mem_decorations] at ha hb
    obtain ⟨target, ht, ha⟩ := hmm.exists_decorate ha
    exact hm.strides target a (mem_decorations.2 ha) b
      (mem_decorations.2 (hmm.symm.decorate_mem ht.symm hb))
  · intro block' member a ha b hb
    rw [mem_memberDecorations] at ha hb
    obtain ⟨block, ht, ha⟩ := hmm.exists_memberDecorate ha
    exact hm.offsets block member a (mem_memberDecorations.2 ha) b
      (mem_memberDecorations.2 (hmm.symm.memberDecorate_mem ht.symm hb))

theorem Paired.isStrided (ht : Twins m m' var var') (hvar : m.IsStrided var) :
    m'.IsStrided var' := by
  obtain ⟨block, array, element, s, hpointee, harray, hsize, hstride⟩ := hvar
  obtain ⟨block', members', hpointee', -, hmembers⟩ := hmm.pointeeStruct? ht hpointee
  obtain ⟨array', rest, hta, hrest, rfl⟩ := List.forall₂_cons_left_iff.1 hmembers
  obtain rfl := List.forall₂_nil_left_iff.1 hrest
  have hkind := hta.kind_eq
  rw [harray] at hkind
  obtain ⟨element', harray', hid⟩ := Kind.map_eq_typeRuntimeArray.1 hkind.symm
  have hte : Twins m m' element element' :=
    hmm.twins
      (hmm.sound.usable_of_kindOf (h := array)
        (by simp [harray, Kind.references, Kind.operands]))
      (hmm.sound'.usable_of_kindOf (h := array')
        (by simp [harray', Kind.references, Kind.operands])) hid.symm
  exact ⟨block', array', element', s, hpointee', harray', hmm.hasSize hte hsize,
    hmm.decorate_mem hta hstride⟩

theorem Paired.hostPlaces (hm : host.Places m) : host.Places m' := by
  intro offsets hlayout var' hvar'
  obtain ⟨var, hvar, ht⟩ := hmm.findNamed? hvar'
  obtain ⟨block, members, hpointee, hle, hplaced⟩ := hm offsets hlayout var hvar
  obtain ⟨block', members', hpointee', htb, hmembers⟩ := hmm.pointeeStruct? ht hpointee
  refine ⟨block', members', hpointee', hmembers.length_eq ▸ hle, fun i offset hi => ?_⟩
  exact hmm.memberDecorate_mem htb (hplaced i offset hi)

theorem Paired.length_globals : m.globals.length = m'.globals.length := by
  have hglobals : m.globals.map m.wire = m'.globals.map m'.wire :=
    hmm.agree.sections .globals (by decide)
  simpa using congrArg List.length hglobals

theorem Paired.exists_uniformVar (hvar' : var' ∈ m'.globals.drop base)
    (huniform : (m'.kindOf var').isUniformVar) :
    ∃ var ∈ m.globals.drop base, (m.kindOf var).isUniformVar ∧ Twins m m' var var' := by
  have hglobals : m.globals.map m.wire = m'.globals.map m'.wire :=
    hmm.agree.sections .globals (by decide)
  have hlists : (m.globals.drop base).map m.wire = (m'.globals.drop base).map m'.wire := by
    rw [List.map_drop, List.map_drop, hglobals]
  have hwire : m'.wire var' ∈ (m'.globals.drop base).map m'.wire := List.mem_map_of_mem hvar'
  rw [← hlists] at hwire
  obtain ⟨var, hvar, heq⟩ := List.mem_map.1 hwire
  have hlisted' : var' ∈ m'.listed := mem_listed.2 (.inl ⟨.globals, List.mem_of_mem_drop hvar'⟩)
  have hid := (hmm.sound'.writable var' hlisted').isSome_resultId .var
    (Kind.opcode_of_isVar (Kind.isVar_of_isUniformVar huniform)) (by decide)
  have husable' : m'.Usable var' := ⟨hid, fun _ => hlisted'⟩
  have hlisted := mem_listed.2 (.inl ⟨.globals, List.mem_of_mem_drop hvar⟩)
  have ht : Twins m m' var var' :=
    ⟨Paired.usable_of_wire_eq husable' hlisted heq, husable', heq⟩
  refine ⟨var, hvar, ?_, ht⟩
  rwa [← Kind.isUniformVar_map m.idOf, ht.kind_eq, Kind.isUniformVar_map]

theorem Paired.places (hm : job.Places base m) : job.Places base m' := by
  refine ⟨hmm.length_globals ▸ hm.base_le, hmm.laidOutOnce hm.once,
    hmm.hostPlaces hm.globalBlock, fun var' hvar' huniform' => ?_⟩
  obtain ⟨var, hvar, huniform, ht⟩ := hmm.exists_uniformVar hvar' huniform'
  exact hmm.isStrided ht (hm.buffers var hvar huniform)

end

theorem Sound.declareMetadata_places (hm : m.Sound) (hplaces : job.Places base m) :
    job.Places base (Module.declareMetadata m).2 := by
  have hspaced : m.Spaced m fun _ => False := hm.spaced hplaces.once (by simp) (by simp)
  have hdeclared := hspaced.declareMetadata
  have hcontinues := hm.declareMetadata.continues
  refine ⟨hplaces.base_le.trans hcontinues.globals.length_le, hdeclared.once,
    hplaces.globalBlock.continues hm hcontinues, fun var hvar huniform => ?_⟩
  obtain ⟨hs, hglobals⟩ := hcontinues.globals
  have hnew := hdeclared.declared
  rw [← hglobals, List.drop_append_of_le_length hplaces.base_le, List.mem_append] at hvar
  rw [← hglobals, List.drop_left] at hnew
  obtain hvar | hvar := hvar
  · have hstored := hm.stored (mem_listed.2 (.inl ⟨.globals, List.mem_of_mem_drop hvar⟩))
    rw [hcontinues.kindOf_eq hstored] at huniform
    exact (hplaces.buffers var hvar huniform).mono hcontinues.insts (hcontinues.notes_subset hm)
  · exact (hnew var hvar).2 huniform

end Module

namespace Job

variable {m p : Module}

/-- The global block has been given the offsets of the host when the module is handed over
first. -/
theorem Prepares.hostPlaces (hp : job.Prepares m p) (hm : m.Sound) : job.host.Places p := by
  obtain ⟨outcome, m₂, m₃, m₄, -, hsound₂, hdecorate, hadds, rfl⟩ := hp.exists_readied hm
  have hsound₃ := (hsound₂.decorateGlobalBlock hdecorate).sound
  exact consolidate_hostPlaces
    ((hsound₂.decorateGlobalBlock_places hdecorate).continues hsound₃
      (hadds.wraps hsound₃).continues)

theorem Prepares.places (hp : job.Prepares m p) (hload : Module.load job.words = .ok m)
    (hfits : job.Fits m) : job.Places m.globals.length p := by
  have hhost := hp.hostPlaces (sound_of_load hload)
  obtain ⟨outcome, m₃, m₄, hdecorate, hadds, rfl⟩ := hp.stages
  have hsound := sound_of_load hload
  have hsound₂ := hsound.normalize.sound.addComputePreamble
  have hcontained₂ := (((Passes.load hload).step .normalize).step .preamble).contained
  have hreadied := hsound.readied
  revert hdecorate hsound₂ hcontained₂ hreadied
  generalize (Module.addComputePreamble m.normalize.2).2 = m₂
  intro hdecorate hsound₂ hcontained₂ hreadied
  have hedited := hsound₂.decorateGlobalBlock hdecorate
  have hspaced₃ :=
    (hreadied.spaced (contained_of_load hload) hfits hsound₂).decorateGlobalBlock hsound₂
      (hreadied.hostFits hfits.globalBlock)
      (fun g members hg =>
        (length_members_lt hload (hreadied.structs g members hg)).le.trans (by decide)) hdecorate
  have hspaced₄ := hadds.spaced hcontained₂ (fun _ helement => helement.owns hcontained₂)
    (fun k hk c hcallee t ht => ⟨k, hk, c, hcallee, ht⟩) hedited.sound hedited.continues hspaced₃
  refine ⟨hreadied.globals ▸ hspaced₄.globals.length_le, hspaced₄.once.consolidate, hhost,
    fun var hvar huniform => ?_⟩
  rw [← hreadied.globals] at hvar
  exact ((hspaced₄.declared var hvar).2 huniform).consolidate

/-- What is handed over is laid out once: the global block as the host lays it out, and all
buffers by the size of their elements, if nothing was laid out differently before. -/
theorem laysOut_handedOver (hload : Module.load job.words = .ok m) (hfits : job.Fits m) :
    (∀ t p, (job.lower t).2.toBuiltIns = some p → job.LaysOut m.globals.length p) ∧
      ∀ n metadata, (job.lower .passThrough).2.toAccessors = some (n, metadata) →
        job.LaysOut m.globals.length n := by
  constructor
  · intro t p hp
    obtain ⟨_, hload', hprepares⟩ := prepares_of_toBuiltIns hp
    obtain rfl := Except.ok.inj (hload.symm.trans hload')
    exact (hprepares.places hload hfits).laysOut (hprepares.passes hload).contained
  · intro n metadata hn
    obtain ⟨_, p, words, m', hload', hprepares, hencode, hreload, rfl, -⟩ :=
      completes_of_toAccessors hn
    obtain rfl := Except.ok.inj (hload.symm.trans hload')
    have hencode := mapError_eq_ok.1 hencode
    have hpaired := ((hprepares.sound (sound_of_load hload)).reloads hencode hreload).paired
    have hpasses :=
      (((hprepares.passes hload).reload hencode hreload).step .metadata).step .consolidate
    refine (consolidate_places ?_).laysOut hpasses.contained
    exact hpaired.sound'.declareMetadata_places (hpaired.places (hprepares.places hload hfits))

/-- A kernel from word to word, with an array of words without space between them and a global
block of two words, the first of which has its place. -/
def stridedKernel : Job where
  words := [Stream.magic, 0x10000, 0, 10, 0, 0x50005, 4, 0x50475f5f, 0x6f6c4255, 0x6b63,
    0x30005, 6, 0x66, 0x40047, 9, 6, 4, 0x50048, 2, 0, 35, 0, 0x40015, 1, 32, 0, 0x3001d, 9, 1,
    0x4001e, 2, 1, 1, 0x40020, 3, 7, 2, 0x4003b, 3, 4, 7, 0x40021, 5, 1, 1, 0x50036, 1, 6, 0, 5,
    0x30037, 1, 7, 0x200f8, 8, 0x200fe, 7, 0x10038]
  kernels := [⟨"f", (Signature.kernel.union .input).union .output, 1⟩]
  host := ⟨some (.struct [0, 4]), some []⟩
  validates := true

/-- The buffers share the array that was there, and the global block gets its second offset. -/
theorem laysOut_handedOver_stridedKernel : ∃ m, Module.load stridedKernel.words = .ok m ∧
    stridedKernel.Fits m ∧
    (∃ p, (stridedKernel.lower .passThrough).2.toBuiltIns = some p ∧
      stridedKernel.LaysOut m.globals.length p) ∧
    ∃ n metadata, (stridedKernel.lower .passThrough).2.toAccessors = some (n, metadata) ∧
      stridedKernel.LaysOut m.globals.length n := by
  have hread : (Module.load stridedKernel.words).toOption.map
      (fun m => (m.notes, m.kindOf ⟨4⟩, m.kindOf ⟨6⟩)) =
        some ([.decorate ⟨4⟩ .arrayStride [4], .memberDecorate ⟨6⟩ 0 .offset [0]],
          .typeRuntimeArray ⟨8⟩, .typeStruct [⟨8⟩, ⟨8⟩]) := by
    decide +kernel
  have hread' : (Module.load stridedKernel.words).toOption.map
      (fun m => ((m.byteSize ⟨8⟩).toOption, m.findNamed? globalBlockName,
        m.pointeeStruct? ⟨0⟩)) = some (some 4, some ⟨0⟩, some (⟨6⟩, [⟨8⟩, ⟨8⟩])) := by
    decide +kernel
  have hhanded : (stridedKernel.lower .passThrough).2.toBuiltIns.isSome = true ∧
      (stridedKernel.lower .passThrough).2.toAccessors.isSome = true := by
    decide +kernel
  cases hload : Module.load stridedKernel.words with
  | error e =>
      rw [hload] at hread
      cases hread
  | ok m =>
      rw [hload] at hread hread'
      obtain ⟨hnotes, harray, hblock⟩ := by
        simpa only [Except.toOption, Option.map_some, Option.some.injEq,
          Prod.mk.injEq] using hread
      obtain ⟨hsize, hnamed, hpointee⟩ := by
        simpa only [Except.toOption, Option.map_some, Option.some.injEq,
          Prod.mk.injEq] using hread'
      have hstride {array : Handle} {words : List Word}
          (hmem : words ∈ m.decorations array .arrayStride) : array = ⟨4⟩ ∧ words = [4] := by
        simpa [mem_decorations, hnotes] using hmem
      have hoffset {block : Handle} {member : Word} {words : List Word}
          (hmem : words ∈ m.memberDecorations block member .offset) :
          block = ⟨6⟩ ∧ member = 0 ∧ words = [0] := by
        simpa [mem_memberDecorations, hnotes] using hmem
      have hfits : stridedKernel.Fits m := by
        refine ⟨⟨fun target a ha b hb => ?_, fun block member a ha b hb => ?_⟩,
          fun array element hkind _ s hs words hmem => ?_,
          fun block array element hkind _ _ words hmem => ?_,
          fun offsets hlayout var hvar block members hvar' =>
          ⟨fun i offset hi words hmem => ?_, ?_⟩⟩
        · rw [(hstride ha).2, (hstride hb).2]
        · rw [(hoffset ha).2.2, (hoffset hb).2.2]
        · obtain ⟨rfl, rfl⟩ := hstride hmem
          obtain rfl := Kind.typeRuntimeArray.inj (harray.symm.trans hkind)
          rw [hs] at hsize
          rw [Option.some.inj hsize]
        · obtain ⟨rfl, -⟩ := hoffset hmem
          cases Kind.typeStruct.inj (hblock.symm.trans hkind)
        · obtain rfl : [0, 4] = offsets := by simpa [stridedKernel] using hlayout
          obtain ⟨-, hi', rfl⟩ := hoffset hmem
          have hlt : i < 2 := (List.getElem?_eq_some_iff.1 hi).1
          obtain rfl : i = 0 := (toUInt32_inj (by omega) (by decide)).1 hi'
          rw [Option.some.inj hi]
        · obtain rfl := Option.some.inj (hnamed.symm.trans hvar)
          obtain ⟨-, rfl⟩ := Prod.mk.inj (Option.some.inj (hpointee.symm.trans hvar'))
          simp
      obtain ⟨hbuiltIns, haccessors⟩ := laysOut_handedOver hload hfits
      obtain ⟨p, hp⟩ := Option.isSome_iff_exists.1 hhanded.1
      obtain ⟨⟨n, metadata⟩, hn⟩ := Option.isSome_iff_exists.1 hhanded.2
      exact ⟨m, rfl, hfits, ⟨p, hp, hbuiltIns _ p hp⟩, n, metadata, hn, haccessors n metadata hn⟩

def sparseKernel : Job where
  words :=
    [Stream.magic, 0x10000, 0, 7, 0, 0x30005, 4, 0x66, 0x40047, 5, 6, 16, 0x40015, 1, 32, 0,
    0x40021, 2, 1, 1, 0x3001d, 5, 1, 0x50036, 1, 4, 0, 2, 0x30037, 1, 3, 0x200f8, 6, 0x200fe, 3,
    0x10038]
  kernels := [⟨"f", (Signature.kernel.union .input).union .output, 1⟩]
  host := .bare
  validates := true

/-- A buffer takes an array that is there, even if its elements are not spaced by their size. -/
theorem not_laidOutOnce_sparseKernel :
    ¬∀ (job : Job) (m : Module), Module.load job.words = .ok m →
    m.LaidOutOnce → ∀ t p, (job.lower t).2.toBuiltIns = some p → p.LaidOutOnce := by
  intro hall
  have hread : (Module.load sparseKernel.words).toOption.map Module.notes =
      some [.decorate ⟨2⟩ .arrayStride [16]] := by
    decide +kernel
  have hhanded : (sparseKernel.lower .passThrough).2.toBuiltIns.map
      (Module.decorations · ⟨2⟩ .arrayStride) = some [[16], [4]] := by
    decide +kernel
  cases hload : Module.load sparseKernel.words with
  | error e =>
      rw [hload] at hread
      cases hread
  | ok m =>
      rw [hload] at hread
      have hnotes : m.notes = [.decorate ⟨2⟩ .arrayStride [16]] := Option.some.inj hread
      have honce : m.LaidOutOnce := by
        constructor
        · intro target a ha b hb
          simp only [mem_decorations, hnotes, List.mem_singleton, Kind.decorate.injEq] at ha hb
          rw [ha.2.2, hb.2.2]
        · intro block member a ha
          simp [mem_memberDecorations, hnotes] at ha
      obtain ⟨p, hp, hstrides⟩ := Option.map_eq_some_iff.1 hhanded
      have hp := hall sparseKernel m hload honce .passThrough p hp
      exact absurd (hp.strides ⟨2⟩ [16] (by simp [hstrides]) [4] (by simp [hstrides]))
        (by decide)

end Job

end KernelGrid
