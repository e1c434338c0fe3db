import KernelGrid.Proofs.Kernel.Metadata
import KernelGrid.Proofs.Kernel.ModuleRules
import KernelGrid.Proofs.Module.TypeSizes
import KernelGrid.Proofs.Module.Validity

/-!
# Strides and offsets

Arrays have strides and members of structs have offsets.  A buffer is made of an array and a
struct that may be there already, with strides and offsets of their own: what is attached to
them for the buffer says the same only where the elements are spaced by their size.
-/

namespace KernelGrid

namespace Module

variable {m m' m₀ : Module} {elements : Handle → Prop} {notes : List (Kind Handle)}
  {var element array block h : Handle} {binding member s : Word} {words : List Word}

structure LaidOutOnce (m : Module) : Prop where
  strides : ∀ target, ∀ a ∈ m.decorations target .arrayStride,
    ∀ b ∈ m.decorations target .arrayStride, a = b
  offsets : ∀ block member, ∀ a ∈ m.memberDecorations block member .offset,
    ∀ b ∈ m.memberDecorations block member .offset, a = b

theorem stride_ne : Decoration.arrayStride ≠ .descriptorSet ∧ Decoration.arrayStride ≠ .builtIn ∧
    Decoration.arrayStride ≠ .binding ∧ Decoration.arrayStride ≠ .bufferBlock := by
  decide

/-! ## What fits a buffer -/

structure StrideFits (m m₀ : Module) (elements : Handle → Prop) (array : Handle)
    (words : List Word) : Prop where
  stored : (m.insts.get? array).isSome
  fits : ∀ element, m.kindOf array = .typeRuntimeArray element → (m.insts.get? element).isSome ∧
    (elements element → ∀ s, m₀.HasSize element s → words = [s])

/-- Whether an array of elements for buffers has no offset but zero. -/
structure OffsetFits (m : Module) (elements : Handle → Prop) (block : Handle) (member : Word)
    (words : List Word) : Prop where
  stored : (m.insts.get? block).isSome
  fits : ∀ array, m.kindOf block = .typeStruct [array] → (m.insts.get? array).isSome ∧
    ∀ element, m.kindOf array = .typeRuntimeArray element → elements element → member = 0 →
      words = [0]

def IsStrided (m : Module) (var : Handle) : Prop := ∃ block array element s,
  m.pointeeStruct? var = some (block, [array]) ∧ m.kindOf array = .typeRuntimeArray element ∧
    m.HasSize element s ∧ .decorate array .arrayStride [s] ∈ m.notes

theorem StrideFits.extends (hfits : m.StrideFits m₀ elements array words)
    (hmm : m.Extends notes m') : m'.StrideFits m₀ elements array words := by
  refine ⟨hmm.isSome hfits.stored, fun element harray => ?_⟩
  rw [hmm.kindOf_eq hfits.stored] at harray
  exact (hfits.fits element harray).imp_left hmm.isSome

theorem OffsetFits.extends (hfits : m.OffsetFits elements block member words)
    (hmm : m.Extends notes m') : m'.OffsetFits elements block member words := by
  refine ⟨hmm.isSome hfits.stored, fun array hblock => ?_⟩
  rw [hmm.kindOf_eq hfits.stored] at hblock
  obtain ⟨hstored, hzero⟩ := hfits.fits array hblock
  exact ⟨hmm.isSome hstored,
    fun element harray => hzero element (hmm.kindOf_eq hstored ▸ harray)⟩

theorem IsStrided.mono (hvar : m.IsStrided var)
    (hinsts : ∀ h i, m.insts.get? h = some i → m'.insts.get? h = some i)
    (hnotes : m.notes ⊆ m'.notes) :
    m'.IsStrided var := by
  obtain ⟨block, array, element, s, hpointee, harray, hsize, hstride⟩ := hvar
  refine ⟨block, array, element, s, pointeeStruct?_mono hinsts hpointee, ?_, hsize.mono hinsts,
    hnotes hstride⟩
  obtain ⟨i, hi⟩ :=
    Option.isSome_iff_exists.1 (isSome_of_kindOf (m := m) (h := array) (by simp [harray]))
  rw [kindOf, inst_of_get? hi] at harray
  rw [kindOf, inst_of_get? (hinsts array i hi), harray]

theorem hasSize_record {record word : Handle}
    (hrecord : m.kindOf record = .typeStruct (metadataOffsets.map fun _ => word))
    (hword : m.kindOf word = .typeInt 32 false) : m.HasSize record 16 := by
  have hsize : m.byteSizeWithin 1 word = .ok 4 := by
    rw [byteSizeWithin_succ, byteSizeFrom_eq_ok, hword]
    rfl
  refine ⟨2, ?_⟩
  rw [byteSizeWithin_succ, byteSizeFrom_eq_ok, hrecord]
  exact ⟨[4, 4, 4, 4], .cons hsize (.cons hsize (.cons hsize (.cons hsize .nil))), rfl⟩

/-! ## Offsets of members -/

theorem mem_offsetNotes {offsets : List Word} {k : Kind Handle} :
    k ∈ offsetNotes block offsets.zipIdx ↔ ∃ (i : Nat) (offset : Word),
      offsets[i]? = some offset ∧ k = .memberDecorate block i.toUInt32 .offset [offset] := by
  simp only [offsetNotes, List.mem_map, Prod.exists, List.mem_zipIdx_iff_getElem?,
    eq_comm (a := k)]
  exact exists_comm

/-- Members that are few enough have numbers of their own. -/
theorem eq_of_mem_offsetNotes {offsets : List Word} (hlength : offsets.length ≤ 2 ^ 32) {i : Nat}
    {offset : Word} (hi : offsets[i]? = some offset)
    (hmem : .memberDecorate block i.toUInt32 .offset words ∈ offsetNotes block offsets.zipIdx) :
    words = [offset] := by
  obtain ⟨j, offset', hj, heq⟩ := mem_offsetNotes.1 hmem
  obtain ⟨-, hwrap, -, rfl⟩ := Kind.memberDecorate.inj heq
  have hlt := (List.getElem?_eq_some_iff.1 hi).1
  have hlt' := (List.getElem?_eq_some_iff.1 hj).1
  obtain rfl := (toUInt32_inj (by omega) (by omega)).1 hwrap
  rw [Option.some.inj (hi.symm.trans hj)]

/-! ## Edits -/

/-- A module that continues another one: nothing is laid out twice, what is attached fits
buffers of these elements, and the variables in uniform storage that are new are of arrays with
strides. -/
structure Spaced (m m₀ : Module) (elements : Handle → Prop) : Prop where
  interns : m.Interns
  stored : ∀ h ∈ m.annotations, (m.insts.get? h).isSome
  insts : ∀ h i, m₀.insts.get? h = some i → m.insts.get? h = some i
  globals : m₀.globals <+: m.globals
  once : m.LaidOutOnce
  strides : ∀ array words, .decorate array .arrayStride words ∈ m.notes →
    m.StrideFits m₀ elements array words
  offsets : ∀ block member words, .memberDecorate block member .offset words ∈ m.notes →
    m.OffsetFits elements block member words
  declared : ∀ var ∈ m.globals.drop m₀.globals.length, (m.insts.get? var).isSome ∧
    ((m.kindOf var).isUniformVar → m.IsStrided var)

namespace Spaced

variable (hm : m.Spaced m₀ elements)

include hm

theorem notes_eq (hmm : m.Extends notes m') : m'.notes = m.notes ++ notes :=
  hmm.notes_eq hm.stored

/-- What is attached besides must fit, and say what is said already. -/
theorem attach (hmm : m.Extends notes m')
    (hstrides : ∀ array words, .decorate array .arrayStride words ∈ notes →
      m'.StrideFits m₀ elements array words ∧
        ∀ words', .decorate array .arrayStride words' ∈ m.notes ++ notes → words' = words)
    (hoffsets : ∀ block member words, .memberDecorate block member .offset words ∈ notes →
      m'.OffsetFits elements block member words ∧
        ∀ words', .memberDecorate block member .offset words' ∈ m.notes ++ notes →
        words' = words)
    (hdeclared : ∃ hs, m'.globals = m.globals ++ hs ∧ ∀ var ∈ hs, (m'.insts.get? var).isSome ∧
      ((m'.kindOf var).isUniformVar → m'.IsStrided var)) : m'.Spaced m₀ elements := by
  have hnotes := hm.notes_eq hmm
  have hsub : m.notes ⊆ m'.notes := hnotes ▸ List.subset_append_left _ _
  obtain ⟨hs, hglobals, hdeclared⟩ := hdeclared
  refine ⟨hmm.interns hm.interns, hmm.stored_annotations hm.stored,
    fun h i hi => hmm.insts h i (hm.insts h i hi), hm.globals.trans hmm.globals, ⟨?_, ?_⟩,
    ?_, ?_, ?_⟩
  · intro target a ha b hb
    rw [mem_decorations, hnotes] at ha hb
    obtain ha' | ha' := List.mem_append.1 ha
    · obtain hb' | hb' := List.mem_append.1 hb
      · exact hm.once.strides target a (mem_decorations.2 ha') b (mem_decorations.2 hb')
      · exact (hstrides target b hb').2 a ha
    · exact ((hstrides target a ha').2 b hb).symm
  · intro block member a ha b hb
    rw [mem_memberDecorations, hnotes] at ha hb
    obtain ha' | ha' := List.mem_append.1 ha
    · obtain hb' | hb' := List.mem_append.1 hb
      · exact hm.once.offsets block member a (mem_memberDecorations.2 ha') b
          (mem_memberDecorations.2 hb')
      · exact (hoffsets block member b hb').2 a ha
    · exact ((hoffsets block member a ha').2 b hb).symm
  · intro array words hmem
    rw [hnotes, List.mem_append] at hmem
    exact hmem.elim (fun h => (hm.strides array words h).extends hmm)
      fun h => (hstrides array words h).1
  · intro block member words hmem
    rw [hnotes, List.mem_append] at hmem
    exact hmem.elim (fun h => (hm.offsets block member words h).extends hmm)
      fun h => (hoffsets block member words h).1
  · rw [hglobals, List.drop_append_of_le_length hm.globals.length_le]
    refine List.forall_mem_append.2 ⟨fun var hvar => ?_, fun var hvar => ?_⟩
    · obtain ⟨hstored, hstrided⟩ := hm.declared var hvar
      refine ⟨hmm.isSome hstored, fun huniform => ?_⟩
      rw [hmm.kindOf_eq hstored] at huniform
      exact (hstrided huniform).mono hmm.insts hsub
    · exact hdeclared var hvar

theorem grow (hmm : m.Declares notes [] m')
    (hstrides : ∀ array words, .decorate array .arrayStride words ∉ notes)
    (hoffsets : ∀ block member words, .memberDecorate block member .offset words ∉ notes) :
    m'.Spaced m₀ elements :=
  hm.attach hmm.toExtends (fun array words h => absurd h (hstrides array words))
    (fun block member words h => absurd h (hoffsets block member words))
    (hmm.declared.imp fun _ hh => hh.imp_right fun hh var hvar => (hh var hvar).imp_right
      fun hin huniform => absurd (hin huniform) List.not_mem_nil)

theorem intern {d : Description} (hd : d.Proper) (hkind : d.kind.isUniformVar = false)
    (hrun : Module.intern d m = (h, m')) : m'.Spaced m₀ elements :=
  hm.grow (intern_declares hd hkind hm.interns hrun).1 (by simp) (by simp)

theorem builtInVar (builtIn : Word) : (builtInVar builtIn m).2.Spaced m₀ elements := by
  rcases hrun : Module.builtInVar builtIn m with ⟨var, m'⟩
  obtain ⟨notes, -, hdeclares, -, -, hnotes⟩ := builtInVar_adds hm.interns hrun
  obtain rfl | ⟨-, rfl⟩ := hnotes
  · exact hm.grow hdeclares (by simp) (by simp)
  · exact hm.grow hdeclares (by simp [stride_ne]) (by simp)

/-- A buffer for such elements says of the array and the struct what is said of them already. -/
theorem addBuffer (hm₀ : m₀.Contained) (helement : elements element) (howns : m₀.Owns element)
    (hrun : Runs (addBuffer element binding) m var m') : m'.Spaced m₀ elements := by
  obtain ⟨array, block, stride, hsize, hdeclares, hvar, hblock, harray, -⟩ :=
    addBuffer_declares hm.interns hrun
  have hnotes := hm.notes_eq hdeclares.toExtends
  have hsize₀ : m₀.HasSize element stride := by
    refine (HasSize.of_byteSize hsize).before hm₀ howns fun h hh => ?_
    obtain ⟨i, hi⟩ := Option.isSome_iff_exists.1 (owns_iff.1 hh)
    rw [inst_of_get? hi, inst_of_get? (hm.insts h i hi)]
  have hstride : m'.StrideFits m₀ elements array [stride] := by
    refine ⟨harray.isSome, fun element' hkind => ?_⟩
    obtain rfl : element = element' :=
      Kind.typeRuntimeArray.inj (harray.kindOf_eq.symm.trans hkind)
    refine ⟨?_, fun _ s hs => by rw [hsize₀.unique hs]⟩
    obtain ⟨i, hi⟩ := Option.isSome_iff_exists.1 (owns_iff.1 howns)
    rw [hdeclares.insts _ i (hm.insts _ i hi)]
    rfl
  have hoffset : m'.OffsetFits elements block 0 [0] := by
    refine ⟨hblock.isSome, fun array' hkind => ⟨?_, fun _ _ _ _ => rfl⟩⟩
    obtain ⟨rfl, -⟩ := List.cons.inj (Kind.typeStruct.inj (hblock.kindOf_eq.symm.trans hkind))
    exact harray.isSome
  refine hm.attach hdeclares.toExtends (fun array' words hmem => ?_)
    (fun block' member words hmem => ?_) ?_
  · obtain ⟨rfl, rfl⟩ : array' = array ∧ words = [stride] := by
      simpa [bufferNotes, slotNotes, stride_ne] using hmem
    refine ⟨hstride, fun words' hwords => ?_⟩
    obtain hwords | hwords := List.mem_append.1 hwords
    · exact (((hm.strides array' words' hwords).extends hdeclares.toExtends).fits element
        harray.kindOf_eq).2 helement stride hsize₀
    · simpa [bufferNotes, slotNotes, stride_ne] using hwords
  · obtain ⟨rfl, rfl, rfl⟩ : block' = block ∧ member = 0 ∧ words = [0] := by
      simpa [bufferNotes, slotNotes] using hmem
    refine ⟨hoffset, fun words' hwords => ?_⟩
    obtain hwords | hwords := List.mem_append.1 hwords
    · exact (((hm.offsets block' 0 words' hwords).extends hdeclares.toExtends).fits array
        hblock.kindOf_eq).2 element harray.kindOf_eq helement rfl
    · simpa [bufferNotes, slotNotes] using hwords
  · obtain ⟨hs, hglobals, hdeclared⟩ := hdeclares.declared
    refine ⟨hs, hglobals, fun v hv => (hdeclared v hv).imp_right fun hin huniform => ?_⟩
    obtain rfl := List.mem_singleton.1 (hin huniform)
    refine ⟨block, array, element, stride, hvar.pointeeStruct?_eq hblock, harray.kindOf_eq,
      (hsize₀.mono hm.insts).mono hdeclares.insts, ?_⟩
    rw [hnotes]
    simp [bufferNotes]

theorem declareMetadata : (declareMetadata m).2.Spaced m₀ elements := by
  rcases hrun : Module.declareMetadata m with ⟨var, m'⟩
  obtain ⟨word, record, array, block, hdeclares, hvar, hblock, harray, hrecord, hword,
    hfresh, -⟩ := declareMetadata_declares hm.interns hrun
  have hnew {P : Prop} (hstored : (m.insts.get? record).isSome) : P := by
    rw [hfresh] at hstored
    cases hstored
  refine hm.attach hdeclares.toExtends (fun array' words hmem => ?_)
    (fun block' member words hmem => ?_) ?_
  · obtain ⟨rfl, rfl⟩ : array' = array ∧ words = [16] := by
      simpa [metadataNotes, offsetNotes, slotNotes, stride_ne] using hmem
    refine ⟨⟨harray.isSome, fun element hkind => ?_⟩, fun words' hwords => ?_⟩
    · obtain rfl := Kind.typeRuntimeArray.inj (harray.kindOf_eq.symm.trans hkind)
      refine ⟨hrecord.isSome, fun _ s hs => hnew ?_⟩
      obtain ⟨i, hi⟩ := Option.isSome_iff_exists.1 (isSome_of_kindOf fun hplaceholder => by
        have htype := hs.isType
        rw [hplaceholder] at htype
        cases htype)
      rw [hm.insts record i hi]
      rfl
    · obtain hwords | hwords := List.mem_append.1 hwords
      · have hfits := hm.strides array' words' hwords
        refine hnew (hfits.fits record ?_).1
        rw [← hdeclares.kindOf_eq hfits.stored, harray.kindOf_eq]
      · simpa [metadataNotes, offsetNotes, slotNotes, stride_ne] using hwords
  · have hoffset {words' : List Word}
        (hmem : .memberDecorate block' member .offset words' ∈
          metadataNotes record array block var) :
        .memberDecorate block' member .offset words' ∈
          offsetNotes record metadataOffsets.zipIdx := by
      simpa [metadataNotes, slotNotes] using hmem
    obtain ⟨i, offset, hi, heq⟩ := mem_offsetNotes.1 (hoffset hmem)
    obtain ⟨rfl, rfl, -, rfl⟩ := Kind.memberDecorate.inj heq
    refine ⟨⟨hrecord.isSome, fun array' hkind => ?_⟩, fun words' hwords => ?_⟩
    · cases Kind.typeStruct.inj (hrecord.kindOf_eq.symm.trans hkind)
    · obtain hwords | hwords := List.mem_append.1 hwords
      · exact hnew (hm.offsets _ _ words' hwords).stored
      · exact eq_of_mem_offsetNotes (by decide) hi (hoffset hwords)
  · obtain ⟨hs, hglobals, hdeclared⟩ := hdeclares.declared
    refine ⟨hs, hglobals, fun v hv => (hdeclared v hv).imp_right fun hin huniform => ?_⟩
    obtain rfl := List.mem_singleton.1 (hin huniform)
    refine ⟨block, array, record, 16, hvar.pointeeStruct?_eq hblock, harray.kindOf_eq,
      hasSize_record hrecord.kindOf_eq hword.kindOf_eq, ?_⟩
    rw [hm.notes_eq hdeclares.toExtends]
    simp [metadataNotes]

end Spaced

/-! ## Entry points -/

def Use.Among (elements : Handle → Prop) : Use → Prop
  | .element h => elements h
  | .declaration _ | .value _ => True

theorem spaced_rules (hm₀ : m₀.Contained)
    (howns : ∀ element, elements element → m₀.Owns element) :
    DeclarationRules (fun m => m.Spaced m₀ elements) (Use.Among elements) where
  code hm hmm hglobals :=
    hm.attach hmm (by simp) (by simp) ⟨[], by rw [hglobals, List.append_nil], by simp⟩
  intern hd hkind hm hrun := hm.intern hd hkind hrun
  builtInVar builtIn hm := hm.builtInVar builtIn
  addBuffer helement hm hrun := hm.addBuffer hm₀ helement (howns _ helement) hrun
  declaration _ := trivial
  value _ := trivial

end Module

end KernelGrid
