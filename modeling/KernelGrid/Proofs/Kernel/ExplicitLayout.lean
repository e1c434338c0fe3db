import KernelGrid.Proofs.Kernel.Layout
import KernelGrid.Proofs.Kernel.Slots

/-!
# Explicit layout

What a lowering declares is laid out explicitly, and so is the global block if the host knows
all of it. What goes by any other name is laid out as far as it was before.
-/

namespace KernelGrid

namespace Module

variable {m m' m'' m₀ : Module} {notes : List (Kind Handle)} {var var' block element h : Handle}
  {members members' : List Handle} {binding : Word}

def PlacesMembers (m : Module) (block : Handle) (members : List Handle) : Prop :=
  ∀ i < members.length, ∃ words, words ∈ m.memberDecorations block i.toUInt32 .offset

def StridesArrays (m : Module) (members : List Handle) : Prop :=
  ∀ array ∈ members, ∀ element, m.kindOf array = .typeRuntimeArray element →
    ∃ words, words ∈ m.decorations array .arrayStride

/-! ## New variables -/

/-- Whether a variable is one of a block with nothing but an array, and both are laid out. -/
def IsLaidBuffer (m : Module) (var : Handle) : Prop := ∃ block array element stride,
  m.pointeeStruct? var = some (block, [array]) ∧ m.kindOf array = .typeRuntimeArray element ∧
    .memberDecorate block 0 .offset [0] ∈ m.notes ∧
    .decorate array .arrayStride [stride] ∈ m.notes

theorem IsLaidBuffer.mono (hvar : m.IsLaidBuffer var)
    (hinsts : ∀ h i, m.insts.get? h = some i → m'.insts.get? h = some i)
    (hnotes : m.notes ⊆ m'.notes) :
    m'.IsLaidBuffer var := by
  obtain ⟨block, array, element, stride, hpointee, harray, hoffset, hstride⟩ := hvar
  refine ⟨block, array, element, stride, pointeeStruct?_mono hinsts hpointee, ?_, hnotes hoffset,
    hnotes hstride⟩
  obtain ⟨i, hi⟩ :=
    Option.isSome_iff_exists.1 (isSome_of_kindOf (m := m) (h := array) (by simp [harray]))
  rw [kindOf, inst_of_get? hi] at harray
  rw [kindOf, inst_of_get? (hinsts array i hi), harray]

theorem IsLaidBuffer.explicit (hvar : m.IsLaidBuffer var) : ∃ block members,
    m.pointeeStruct? var = some (block, members) ∧ m.PlacesMembers block members ∧
      m.StridesArrays members := by
  obtain ⟨block, array, element, stride, hpointee, -, hoffset, hstride⟩ := hvar
  refine ⟨block, [array], hpointee, fun i hi => ?_, fun array' harray' _ _ => ?_⟩
  · obtain rfl : i = 0 := Nat.lt_one_iff.1 hi
    exact ⟨[0], mem_memberDecorations.2 hoffset⟩
  · obtain rfl := List.mem_singleton.1 harray'
    exact ⟨[stride], mem_decorations.2 hstride⟩

theorem IsLaidBuffer.consolidate (hvar : m.IsLaidBuffer var) :
    m.consolidate.IsLaidBuffer var := by
  obtain ⟨block, array, element, stride, hpointee, harray, hoffset, hstride⟩ := hvar
  exact ⟨block, array, element, stride, hpointee, harray, mem_notes_consolidate.2 hoffset,
    mem_notes_consolidate.2 hstride⟩

/-- A module that continues another one, where the new variables in uniform storage are buffers
that are laid out. -/
structure LaysOutNew (m m₀ : Module) : Prop where
  interns : m.Interns
  stored : ∀ h ∈ m.annotations, (m.insts.get? h).isSome
  globals : m₀.globals <+: m.globals
  declared : ∀ var ∈ m.globals.drop m₀.globals.length, (m.insts.get? var).isSome ∧
    ((m.kindOf var).isUniformVar → m.IsLaidBuffer var)

theorem Sound.laysOutNew (hm : m.Sound) : m.LaysOutNew m :=
  ⟨hm.interns, fun _ hh => hm.stored (mem_listed.2 (.inl ⟨.annotations, hh⟩)),
    List.prefix_rfl, by simp⟩

theorem LaysOutNew.grow {vars : List Handle} (hm : m.LaysOutNew m₀)
    (hmm : m.Declares notes vars m') (hvars : ∀ var ∈ vars, m'.IsLaidBuffer var) :
    m'.LaysOutNew m₀ := by
  obtain ⟨hs, hglobals, hdeclared⟩ := hmm.declared
  refine ⟨hmm.interns hm.interns, hmm.toExtends.stored_annotations hm.stored,
    hm.globals.trans (hglobals ▸ List.prefix_append _ _), ?_⟩
  rw [hglobals, List.drop_append_of_le_length hm.globals.length_le]
  refine List.forall_mem_append.2 ⟨fun var hvar => ?_, fun var hvar => ?_⟩
  · obtain ⟨hstored, hlaid⟩ := hm.declared var hvar
    refine ⟨hmm.isSome hstored, fun huniform => ?_⟩
    rw [hmm.kindOf_eq hstored] at huniform
    refine (hlaid huniform).mono hmm.insts ?_
    rw [hmm.toExtends.notes_eq hm.stored]
    exact List.subset_append_left _ _
  · exact (hdeclared var hvar).imp_right fun hin huniform => hvars var (hin huniform)

theorem laysOutNew_rules : DeclarationRules (fun m => m.LaysOutNew m₀) fun _ => True where
  code hm hmm hglobals := by
    refine ⟨hmm.interns hm.interns, hmm.stored_annotations hm.stored, hglobals ▸ hm.globals, ?_⟩
    rw [hglobals]
    intro var hvar
    obtain ⟨hstored, hlaid⟩ := hm.declared var hvar
    refine ⟨hmm.isSome hstored, fun huniform => ?_⟩
    rw [hmm.kindOf_eq hstored] at huniform
    refine (hlaid huniform).mono hmm.insts ?_
    rw [hmm.notes_eq hm.stored]
    exact List.subset_append_left _ _
  intern hd hkind hm hrun := hm.grow (intern_declares hd hkind hm.interns hrun).1 (by simp)
  builtInVar builtIn hm := by
    rename_i m
    rcases hrun : Module.builtInVar builtIn m with ⟨var, m'⟩
    obtain ⟨notes, -, hdeclares, -⟩ := builtInVar_adds hm.interns hrun
    exact hm.grow hdeclares (by simp)
  addBuffer _ hm hrun := by
    obtain ⟨array, block, stride, -, hdeclares, hvar, hblock, harray, -⟩ :=
      addBuffer_declares hm.interns hrun
    have hnotes := hdeclares.toExtends.notes_eq hm.stored
    refine hm.grow hdeclares (List.forall_mem_singleton.2
      ⟨block, array, _, stride, hvar.pointeeStruct?_eq hblock, harray.kindOf_eq, ?_, ?_⟩)
    all_goals simp [hnotes, bufferNotes]
  declaration _ := trivial
  value _ := trivial

theorem Paired.isLaidBuffer (hmm : Paired m m') (ht : Twins m m' var var')
    (hvar : m.IsLaidBuffer var) : m'.IsLaidBuffer var' := by
  obtain ⟨block, array, element, stride, hpointee, harray, hoffset, hstride⟩ := hvar
  obtain ⟨block', members', hpointee', htb, hmembers⟩ := hmm.pointeeStruct? ht hpointee
  obtain ⟨array', rest, hta, hrest, rfl⟩ := List.forall₂_cons_left_iff.1 hmembers
  obtain rfl := List.forall₂_nil_left_iff.1 hrest
  have hkind := hta.kind_eq
  rw [harray] at hkind
  obtain ⟨element', harray', -⟩ := Kind.map_eq_typeRuntimeArray.1 hkind.symm
  exact ⟨block', array', element', stride, hpointee', harray',
    hmm.memberDecorate_mem htb hoffset, hmm.decorate_mem hta hstride⟩

/-! ## What goes by a name -/

/-- Whether what goes by a name in a module did so in another one, and is laid out as far as it
was. -/
def KeepsLayout (m m' : Module) : Prop :=
  ∀ name var', m'.findNamed? name = some var' → ∃ var, m.findNamed? name = some var ∧
    ∀ block' members', m'.pointeeStruct? var' = some (block', members') → ∃ block members,
      m.pointeeStruct? var = some (block, members) ∧ members'.length = members.length ∧
        (m.PlacesMembers block members → m'.PlacesMembers block' members') ∧
        (m.StridesArrays members → m'.StridesArrays members')

theorem KeepsLayout.trans (h₁ : m.KeepsLayout m') (h₂ : m'.KeepsLayout m'') :
    m.KeepsLayout m'' := by
  intro name var'' hvar''
  obtain ⟨var', hvar', hlayout'⟩ := h₂ name var'' hvar''
  obtain ⟨var, hvar, hlayout⟩ := h₁ name var' hvar'
  refine ⟨var, hvar, fun block'' members'' hpointee'' => ?_⟩
  obtain ⟨block', members', hpointee', hlength', hplaced', hstrided'⟩ := hlayout' _ _ hpointee''
  obtain ⟨block, members, hpointee, hlength, hplaced, hstrided⟩ := hlayout _ _ hpointee'
  exact ⟨block, members, hpointee, hlength'.trans hlength, hplaced' ∘ hplaced,
    hstrided' ∘ hstrided⟩

/-- Where names stand for the same, only what they point to is to be looked at. -/
theorem keepsLayout_of_named (hnamed : m'.findNamed? = m.findNamed?)
    (hnotes : m.notes ⊆ m'.notes)
    (hpointee : ∀ name var block members, m.findNamed? name = some var →
      m'.pointeeStruct? var = some (block, members) →
        m.pointeeStruct? var = some (block, members) ∧
        ∀ array ∈ members, ∀ element, m'.kindOf array = .typeRuntimeArray element →
          m.kindOf array = .typeRuntimeArray element) : m.KeepsLayout m' := by
  intro name var hvar
  rw [hnamed] at hvar
  refine ⟨var, hvar, fun block members hpointee' => ?_⟩
  obtain ⟨hbefore, harrays⟩ := hpointee name var block members hvar hpointee'
  refine ⟨block, members, hbefore, rfl, fun hplaced i hi => ?_,
    fun hstrided array harray element hkind => ?_⟩
  · obtain ⟨words, hwords⟩ := hplaced i hi
    exact ⟨words, mem_memberDecorations.2 (hnotes (mem_memberDecorations.1 hwords))⟩
  · obtain ⟨words, hwords⟩ := hstrided array harray element (harrays array harray element hkind)
    exact ⟨words, mem_decorations.2 (hnotes (mem_decorations.1 hwords))⟩

theorem Readied.keepsLayout (hmm : Readied m m') : m.KeepsLayout m' :=
  keepsLayout_of_named (funext hmm.named) (fun _ hk => (hmm.notes _).2 hk)
    fun _ _ _ _ _ hpointee => ⟨hmm.pointeeStruct? hpointee, fun array _ element hkind => by
      rw [← hmm.kind_eq (by rw [hkind]; rfl) (by rw [hkind]; rfl), hkind]⟩

theorem keepsLayout_consolidate (m : Module) : m.KeepsLayout m.consolidate :=
  keepsLayout_of_named rfl (fun _ hk => mem_notes_consolidate.2 hk)
    fun _ _ _ _ _ hpointee => ⟨hpointee, fun _ _ _ => id⟩

theorem Continues.keepsLayout (hmm : m.Continues m') (hm : m.Sound) : m.KeepsLayout m' := by
  refine keepsLayout_of_named (hm.findNamed?_eq hmm) (hmm.notes_subset hm)
    fun name var block members hvar hpointee => ?_
  obtain ⟨pointer, storage, htype, hpointer, hblock⟩ := pointeeStruct?_eq_some.1 hpointee
  rw [typeOf?, hmm.inst_eq (hm.usable_of_named (List.mem_of_mem_head? hvar)).stored] at htype
  rw [hmm.kindOf_eq
    (hm.references var pointer (Inst.mem_references.2 (.inl htype))).stored] at hpointer
  have husable : m.Usable block := hm.usable_of_kindOf (h := pointer) (by
    simp [hpointer, Kind.references, Kind.operands, List.filterMap_cons])
  rw [hmm.kindOf_eq husable.stored] at hblock
  refine ⟨pointeeStruct?_eq_some.2 ⟨pointer, storage, htype, hpointer, hblock⟩,
    fun array harray element hkind => ?_⟩
  have husable : m.Usable array := hm.usable_of_kindOf (h := block) (by
    simpa [hblock, Kind.references, Kind.operands])
  rwa [hmm.kindOf_eq husable.stored] at hkind

theorem Paired.keepsLayout (hmm : Paired m m') : m.KeepsLayout m' := by
  intro name var' hvar'
  obtain ⟨var, hvar, ht⟩ := hmm.findNamed? hvar'
  refine ⟨var, hvar, fun block' members' hpointee' => ?_⟩
  obtain ⟨block, members, hpointee, htb, hmembers⟩ := hmm.symm.pointeeStruct? ht.symm hpointee'
  refine ⟨block, members, hpointee, hmembers.length_eq, fun hplaced i hi => ?_,
    fun hstrided array' harray' element' hkind' => ?_⟩
  · obtain ⟨words, hwords⟩ := hplaced i (hmembers.length_eq ▸ hi)
    exact ⟨words, mem_memberDecorations.2
      (hmm.memberDecorate_mem htb.symm (mem_memberDecorations.1 hwords))⟩
  · obtain ⟨i, hi, rfl⟩ := List.getElem_of_mem harray'
    have hlt : i < members.length := hmembers.length_eq ▸ hi
    have ht := hmembers.get hi hlt
    have hkind := ht.kind_eq
    rw [List.get_eq_getElem, hkind'] at hkind
    obtain ⟨element, hkind, -⟩ := Kind.map_eq_typeRuntimeArray.1 hkind.symm
    obtain ⟨words, hwords⟩ := hstrided members[i] (List.getElem_mem hlt) element hkind
    exact ⟨words, mem_decorations.2 (hmm.decorate_mem ht.symm (mem_decorations.1 hwords))⟩

/-! ## Stages -/

theorem LaysOutNew.decorateGlobalBlock {host : Host} {outcome : BlockOutcome}
    (hm : m.LaysOutNew m₀) (hrun : Runs (decorateGlobalBlock host) m outcome m') :
    m'.LaysOutNew m₀ := by
  obtain ⟨-, rfl⟩ | ⟨_, _, _, notes, -, -, -, hmm⟩ := decorateGlobalBlock_annotates hrun
  · exact hm
  · exact hm.grow (.of_globals_eq hmm.toEdits hmm.globals_eq) (by simp)

/-- Of the new variables in uniform storage only the metadata may not be laid out. -/
theorem Sound.declareMetadata_laysOut {base : Nat} (hm : m.Sound)
    (hbase : base ≤ m.globals.length)
    (hlaid : ∀ var ∈ m.globals.drop base, (m.kindOf var).isUniformVar → m.IsLaidBuffer var) :
    ∀ var ∈ (Module.declareMetadata m).2.globals.drop base,
      ((Module.declareMetadata m).2.kindOf var).isUniformVar →
        var ≠ (Module.declareMetadata m).1 → (Module.declareMetadata m).2.IsLaidBuffer var := by
  have hcontinues := hm.declareMetadata.continues
  have hnotes := hcontinues.notes_subset hm
  rcases hrun : Module.declareMetadata m with ⟨metadata, m'⟩
  rw [hrun] at hcontinues hnotes
  obtain ⟨_, _, _, _, hdeclares, -⟩ := declareMetadata_declares hm.interns hrun
  obtain ⟨hs, hglobals, hdeclared⟩ := hdeclares.declared
  change ∀ var ∈ m'.globals.drop base, (m'.kindOf var).isUniformVar → var ≠ metadata →
    m'.IsLaidBuffer var
  rw [hglobals, List.drop_append_of_le_length hbase]
  refine List.forall_mem_append.2 ⟨fun var hvar huniform _ => ?_,
    fun var hvar huniform hne => ?_⟩
  · have hstored := hm.stored (mem_listed.2 (.inl ⟨.globals, List.mem_of_mem_drop hvar⟩))
    rw [hcontinues.kindOf_eq hstored] at huniform
    exact (hlaid var hvar huniform).mono hcontinues.insts hnotes
  · exact absurd (List.mem_singleton.1 ((hdeclared var hvar).2 huniform)) hne

def IsLaidMetadata (m : Module) (var : Handle) : Prop := ∃ block array record members,
  m.pointeeStruct? var = some (block, [array]) ∧ m.kindOf array = .typeRuntimeArray record ∧
    m.kindOf record = .typeStruct members ∧ m.StridesArrays [array] ∧
    m.PlacesMembers record members

theorem Sound.isLaidMetadata (hm : m.Sound) :
    (Module.declareMetadata m).2.IsLaidMetadata (Module.declareMetadata m).1 := by
  rcases hrun : Module.declareMetadata m with ⟨metadata, m'⟩
  obtain ⟨word, record, array, block, hdeclares, hvar, hblock, harray, hrecord, -⟩ :=
    declareMetadata_declares hm.interns hrun
  have hnotes := hm.notes_eq hdeclares.toExtends
  refine ⟨block, array, record, _, hvar.pointeeStruct?_eq hblock, harray.kindOf_eq,
    hrecord.kindOf_eq, List.forall_mem_singleton.2 fun _ _ => ⟨[16], mem_decorations.2 ?_⟩,
    fun i hi => ?_⟩
  · simp [hnotes, metadataNotes]
  · rw [List.length_map] at hi
    refine ⟨[metadataOffsets[i]], mem_memberDecorations.2 ?_⟩
    rw [hnotes]
    refine List.mem_append_right _ (List.mem_append_left _ (mem_offsetNotes.2 ⟨i, _, ?_, rfl⟩))
    exact List.getElem?_eq_getElem hi

theorem IsLaidMetadata.consolidate (hvar : m.IsLaidMetadata var) :
    m.consolidate.IsLaidMetadata var := by
  obtain ⟨block, array, record, members, hpointee, harray, hrecord, hstrided, hplaced⟩ := hvar
  refine ⟨block, array, record, members, hpointee, harray, hrecord,
    fun array' harray' element hkind => ?_, fun i hi => ?_⟩
  · obtain ⟨words, hwords⟩ := hstrided array' harray' element hkind
    exact ⟨words, mem_decorations.2 (mem_notes_consolidate.2 (mem_decorations.1 hwords))⟩
  · obtain ⟨words, hwords⟩ := hplaced i hi
    exact ⟨words,
      mem_memberDecorations.2 (mem_notes_consolidate.2 (mem_memberDecorations.1 hwords))⟩

/-- How a module `n` that is handed over with the metadata is laid out, if `m` was read: every
member of the global block has an offset, buffers are laid out, the metadata are but for the
array in their block, and what goes by a name is laid out as far as it was. -/
structure LaysOutFrom (m n : Module) (metadata : Handle) : Prop where
  globalBlock : ∀ var ∈ n.findNamed? globalBlockName, ∃ block members,
    n.pointeeStruct? var = some (block, members) ∧ n.PlacesMembers block members
  buffers : ∀ var ∈ n.globals.drop m.globals.length,
    (n.kindOf var).isUniformVar → var ≠ metadata →
    ∃ block members, n.pointeeStruct? var = some (block, members) ∧
      n.PlacesMembers block members ∧ n.StridesArrays members
  metadata : n.IsLaidMetadata metadata
  named : m.KeepsLayout n

end Module

open KernelGrid.Module

theorem AddsEntries.laysOutNew {ks : List Kernel} {m m' m₀ : Module}
    (hadds : AddsEntries ks m m') (hm : m.LaysOutNew m₀) : m'.LaysOutNew m₀ :=
  hadds.keeps (Q := (·.LaysOutNew m₀)) hm fun _ k hm =>
    laysOutNew_rules.addEntry hm k fun _ _ _ _ => trivial

def Host.Covers (host : Host) (m : Module) : Prop :=
  ∀ var ∈ m.findNamed? globalBlockName, ∀ block members,
    m.pointeeStruct? var = some (block, members) →
      ∃ offsets, host.layout = some (.struct offsets) ∧ members.length ≤ offsets.length

namespace Job

variable {job : Job} {m n p : Module} {metadata : Handle}

theorem Prepares.keepsLayout (hp : job.Prepares m p) (hm : m.Sound) : m.KeepsLayout p := by
  obtain ⟨outcome, m₂, m₃, m₄, hreadied, hsound₂, hdecorate, hadds, rfl⟩ := hp.exists_readied hm
  have hedited := hsound₂.decorateGlobalBlock hdecorate
  have hlayout₃ := hreadied.keepsLayout.trans (hedited.continues.keepsLayout hsound₂)
  have hcontinues := (hadds.wraps hedited.sound).continues
  exact (hlayout₃.trans (hcontinues.keepsLayout hedited.sound)).trans
    (keepsLayout_consolidate m₄)

theorem Prepares.laysOut (hp : job.Prepares m p) (hm : m.Sound) :
    m.globals.length ≤ p.globals.length ∧
      ∀ var ∈ p.globals.drop m.globals.length, (p.kindOf var).isUniformVar →
      p.IsLaidBuffer var := by
  obtain ⟨outcome, m₂, m₃, m₄, hreadied, hsound₂, hdecorate, hadds, rfl⟩ := hp.exists_readied hm
  have hlaid₃ := hsound₂.laysOutNew.decorateGlobalBlock hdecorate
  have hlaid₄ := hadds.laysOutNew hlaid₃
  rw [← hreadied.globals]
  exact ⟨hlaid₄.globals.length_le, fun var hvar huniform =>
    ((hlaid₄.declared var hvar).2 huniform).consolidate⟩

theorem Prepares.exists_pointeeStruct? (hp : job.Prepares m p) (hm : m.Sound) {var : Handle}
    (hvar : m.findNamed? globalBlockName = some var) :
    ∃ block members, m.pointeeStruct? var = some (block, members) := by
  obtain ⟨outcome, m₂, m₃, m₄, hreadied, -, hdecorate, -, -⟩ := hp.exists_readied hm
  rw [← hreadied.named] at hvar
  obtain ⟨hnone, -⟩ | ⟨var', block, members, _, hfind, hpointee, -⟩ :=
    decorateGlobalBlock_annotates hdecorate
  · rw [hnone] at hvar
    cases hvar
  · obtain rfl := Option.some.inj (hfind.symm.trans hvar)
    exact ⟨block, members, hreadied.pointeeStruct? hpointee⟩

/-- Whatever a lowering without transformations binds is laid out explicitly when it is handed
over for its accessors, if the host knows all of the global block: what the lowering does not
declare is as far as it was. -/
theorem laysOutFrom_handedOver (hload : Module.load job.words = .ok m)
    (hcovers : job.host.Covers m)
    (hn : (job.lower .passThrough).2.toAccessors = some (n, metadata)) :
    m.LaysOutFrom n metadata := by
  obtain ⟨_, p, words, m', hload', hp, hencode, hreload, hcompletes, hmetadata⟩ :=
    completes_of_toAccessors hn
  obtain rfl := Except.ok.inj (hload.symm.trans hload')
  have hm := sound_of_load hload
  have hpaired := ((hp.sound hm).reloads (mapError_eq_ok.1 hencode) hreload).paired
  have hm' := hpaired.sound'
  have hcontinues := hm'.declareMetadata.continues
  obtain ⟨hbase, hlaid⟩ := hp.laysOut hm
  have hlaid' := hm'.declareMetadata_laysOut (hpaired.length_globals ▸ hbase)
    fun var' hvar' huniform' => by
      obtain ⟨var, hvar, huniform, ht⟩ := hpaired.exists_uniformVar hvar' huniform'
      exact hpaired.isLaidBuffer ht (hlaid var hvar huniform)
  have hlaidMetadata := hm'.isLaidMetadata
  have hnamed :=
    ((hp.keepsLayout hm).trans hpaired.keepsLayout).trans (hcontinues.keepsLayout hm')
  have hplaces := (hpaired.hostPlaces (hp.hostPlaces hm)).continues hm' hcontinues
  revert hcompletes hmetadata hlaid' hlaidMetadata hnamed hplaces
  generalize (declareMetadata m').1 = metadata'
  generalize (declareMetadata m').2 = m''
  rintro rfl rfl hlaid' hlaidMetadata hnamed hplaces
  refine ⟨fun var hvar => ?_,
    fun var hvar huniform hne => (hlaid' var hvar huniform hne).consolidate.explicit,
    hlaidMetadata.consolidate, hnamed.trans (keepsLayout_consolidate m'')⟩
  obtain ⟨var₀, hvar₀, hlayout⟩ := hnamed _ var hvar
  obtain ⟨block₀, members₀, hpointee₀⟩ := hp.exists_pointeeStruct? hm hvar₀
  obtain ⟨offsets, hoffsets, hle⟩ := hcovers var₀ hvar₀ block₀ members₀ hpointee₀
  obtain ⟨block, members, hpointee, -, hplaced⟩ := hplaces offsets hoffsets var hvar
  obtain ⟨_, _, hpointee', hlength, -⟩ := hlayout block members hpointee
  obtain ⟨-, rfl⟩ := Prod.mk.inj (Option.some.inj (hpointee₀.symm.trans hpointee'))
  refine ⟨block, members, hpointee, fun i hi => ?_⟩
  have hlt : i < offsets.length := hi.trans_le (hlength.trans_le hle)
  exact ⟨_, mem_memberDecorations.2 (mem_notes_consolidate.2
    (hplaced i offsets[i] (List.getElem?_eq_getElem hlt)))⟩

def backedKernel : Job where
  words := [Stream.magic, 0x10000, 0, 12, 0, 0x50005, 4, 0x50475f5f, 0x6f6c4255, 0x6b63,
    0x30005, 5, 0x61, 0x30005, 8, 0x66, 0x40015, 1, 32, 0, 0x3001e, 2, 1, 0x40020, 3, 7, 2,
    0x4003b, 3, 4, 7, 0x4001e, 6, 1, 1, 0x40020, 7, 7, 6, 0x4003b, 7, 5, 7, 0x40021, 9, 1, 1,
    0x50036, 1, 8, 0, 9, 0x30037, 1, 10, 0x200f8, 11, 0x200fe, 10, 0x10038]
  kernels := [⟨"f", (Signature.kernel.union .input).union .output, 1⟩]
  host := ⟨some (.struct [0]), some ["a"]⟩
  validates := false

theorem exists_covers_backedKernel : ∃ m, Module.load backedKernel.words = .ok m ∧
    backedKernel.host.Covers m := by
  have hread : (Module.load backedKernel.words).toOption.map
      (fun m => (m.findNamed? globalBlockName, m.pointeeStruct? ⟨0⟩)) =
        some (some ⟨0⟩, some (⟨7⟩, [⟨6⟩])) := by
    decide +kernel
  obtain ⟨m, hload, hread⟩ := exists_of_map_toOption hread
  obtain ⟨hnamed, hpointee⟩ := Prod.mk.inj hread
  refine ⟨m, hload, fun var hvar block members hmembers => ⟨[0], rfl, ?_⟩⟩
  obtain rfl := Option.some.inj (hnamed.symm.trans hvar)
  obtain ⟨-, rfl⟩ := Prod.mk.inj (Option.some.inj (hpointee.symm.trans hmembers))
  exact le_rfl

theorem exists_handedOver_backedKernel : ∃ n metadata block members,
    (backedKernel.lower .passThrough).2.toAccessors = some (n, metadata) ∧
      (n.findNamed? globalBlockName).isSome ∧ ∃ var, n.findNamed? "a" = some var ∧
        n.pointeeStruct? var = some (block, members) ∧ 0 < members.length ∧
        n.memberDecorations block 0 .offset = [] := by
  have hread : (backedKernel.lower .passThrough).2.toAccessors.bind (fun made =>
      (made.1.findNamed? "a").bind fun var => (made.1.pointeeStruct? var).map fun struct =>
        ((made.1.findNamed? globalBlockName).isSome, decide (0 < struct.2.length),
          (made.1.memberDecorations struct.1 0 .offset).isEmpty)) = some (true, true, true) := by
    decide +kernel
  obtain ⟨⟨n, metadata⟩, hn, hread⟩ := Option.bind_eq_some_iff.1 hread
  obtain ⟨var, hvar, hread⟩ := Option.bind_eq_some_iff.1 hread
  obtain ⟨⟨block, members⟩, hpointee, hread⟩ := Option.map_eq_some_iff.1 hread
  obtain ⟨hblock, hread⟩ := Prod.mk.inj hread
  obtain ⟨hlength, hoffsets⟩ := Prod.mk.inj hread
  exact ⟨n, metadata, block, members, hn, hblock, var, hvar, hpointee, of_decide_eq_true hlength,
    List.isEmpty_iff.1 hoffsets⟩

theorem laysOutFrom_handedOver_backedKernel : ∃ m n metadata,
    Module.load backedKernel.words = .ok m ∧ backedKernel.host.Covers m ∧
      (backedKernel.lower .passThrough).2.toAccessors = some (n, metadata) ∧
      m.LaysOutFrom n metadata := by
  obtain ⟨m, hload, hcovers⟩ := exists_covers_backedKernel
  obtain ⟨n, metadata, _, _, hn, -⟩ := exists_handedOver_backedKernel
  exact ⟨m, n, metadata, hload, hcovers, hn, laysOutFrom_handedOver hload hcovers hn⟩

/-- Whether a lowering has bound a variable: the global block, what is backed by an allocation
where there is a global block, or what is new in uniform storage. -/
def BindsIn (job : Job) (m n : Module) (var : Handle) : Prop :=
  n.findNamed? globalBlockName = some var ∨
    ((n.findNamed? globalBlockName).isSome ∧
      ∃ name ∈ job.host.backed, n.findNamed? name = some var) ∨
      var ∈ n.globals.drop m.globals.length ∧ (n.kindOf var).isUniformVar

/-- What is backed by an allocation is bound but not laid out. -/
theorem not_laidOut_backedKernel : ¬∀ (job : Job) (m n : Module) (metadata : Handle),
    Module.load job.words = .ok m → job.host.Covers m →
      (job.lower .passThrough).2.toAccessors = some (n, metadata) → ∀ var, job.BindsIn m n var →
        ∀ block members, n.pointeeStruct? var = some (block, members) →
          n.PlacesMembers block members ∧ n.StridesArrays members := by
  intro hall
  obtain ⟨m, hload, hcovers⟩ := exists_covers_backedKernel
  obtain ⟨n, metadata, block, members, hn, hblock, var, hvar, hpointee, hpos, hoffsets⟩ :=
    exists_handedOver_backedKernel
  obtain ⟨hplaced, -⟩ := hall backedKernel m n metadata hload hcovers hn var
    (.inr (.inl ⟨hblock, "a", by decide, hvar⟩)) block members hpointee
  obtain ⟨words, hwords⟩ := hplaced 0 hpos
  rw [show Nat.toUInt32 0 = 0 from rfl, hoffsets] at hwords
  cases hwords

end Job

end KernelGrid
