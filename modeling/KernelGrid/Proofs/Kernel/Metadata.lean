import KernelGrid.Kernel.Metadata
import KernelGrid.Proofs.Kernel.Variables
import KernelGrid.Proofs.Module.Intake

/-!
# Metadata of allocations

The record of the metadata is a struct of its own, which nothing that is interned refers to.
So the array of such records is new, and the block that holds the array, and nothing that was
there before is decorated.
-/

namespace KernelGrid.Module

variable {m m' m'' : Module} {var h g : Handle} {notes notes' : List (Kind Handle)}
  {vars vars' : List Handle} {kind : Kind Handle} {d : Description}

/-! ## Edits that add to the table -/

/-- An edit that only adds to the table of declarations, and stores no decorations but the
notes. -/
structure Augments (m : Module) (notes : List (Kind Handle)) (vars : List Handle)
    (m' : Module) : Prop extends m.Declares notes vars m' where
  tabled : m.interned <+: m'.interned
  decorating : ∀ g, m.insts.get? g = none →
    (m'.kindOf g).decorated? = none ∨ m'.kindOf g ∈ notes

theorem Augments.trans (h₁ : m.Augments notes vars m') (h₂ : m'.Augments notes' vars' m'') :
    m.Augments (notes ++ notes') (vars ++ vars') m'' := by
  refine ⟨h₁.toDeclares.trans h₂.toDeclares, h₁.tabled.trans h₂.tabled, fun g hg => ?_⟩
  cases hget : m'.insts.get? g with
  | none => exact (h₂.decorating g hget).imp_right (List.mem_append_right _)
  | some i =>
      rw [h₂.kindOf_eq (by rw [hget]; rfl)]
      exact (h₁.decorating g hg).imp_right (List.mem_append_left _)

theorem Augments.refl (m : Module) : m.Augments [] [] m := by
  refine ⟨.of_globals_eq (.refl m) rfl, List.prefix_rfl, fun g hg => .inl ?_⟩
  rw [kindOf, inst, hg]
  rfl

theorem Augments.lookup (hmm : m.Augments notes vars m')
    (hlookup : m.interned.lookup d = some h) : m'.interned.lookup d = some h := by
  obtain ⟨rest, heq⟩ := hmm.tabled
  rw [← heq, List.lookup_append, hlookup]
  rfl

theorem Augments.owns (hmm : m.Augments notes vars m') (hg : m.Owns g) : m'.Owns g :=
  owns_iff.2 (hmm.isSome (owns_iff.1 hg))

theorem kindOf_append_of_none {i : Inst Handle} (hrun : append i m = (h, m'))
    (hg : m.insts.get? g = none) : m'.kindOf g = i.kind ∨ m'.kindOf g = .placeholder := by
  obtain rfl : m' = (append i m).2 := by rw [hrun]
  rw [kindOf, inst_append]
  split
  · exact .inl rfl
  · rw [inst, hg]
    exact .inr rfl

theorem kindOf_define_of_none {type : Option Handle} (hrun : define type kind m = (h, m'))
    (hg : m.insts.get? g = none) : m'.kindOf g = kind ∨ m'.kindOf g = .placeholder := by
  change append ⟨type, some m.header.bound, kind⟩
    { m with header.bound := Word.next m.header.bound } = (h, m') at hrun
  exact kindOf_append_of_none hrun hg

theorem decorated?_of_define {type : Option Handle} (hkind : kind.decorated? = none)
    (hrun : define type kind m = (h, m')) (hg : m.insts.get? g = none) :
    (m'.kindOf g).decorated? = none := by
  obtain heq | heq := kindOf_define_of_none hrun hg
  · rw [heq, hkind]
  · rw [heq]
    rfl

theorem annotated_augments (m : Module) (notes : List (Kind Handle)) :
    m.Augments notes [] (m.annotated notes) := by
  refine ⟨.of_globals_eq (m.annotates_annotated notes).toEdits rfl, List.prefix_rfl,
    fun g hg => ?_⟩
  obtain heq | ⟨-, hmem⟩ := m.kindOf_annotated notes g
  · rw [heq, kindOf, inst, hg]
    exact .inl rfl
  · exact .inr hmem

theorem annotate_augments (hrun : annotate kind m = (h, m')) : m.Augments [kind] [] m' := by
  rw [annotate_eq] at hrun
  obtain ⟨-, rfl⟩ := Prod.mk.inj hrun
  exact m.annotated_augments [kind]

theorem addGlobalVar_augments {pointer : Handle} {storage : StorageClass}
    (hrun : addGlobalVar pointer storage m = (h, m')) :
    m.Augments [] (if storage = .uniform then [h] else []) m' := by
  obtain ⟨v, m₁, hdefine, hdeclare⟩ := edit_bind.1 hrun
  obtain ⟨_, m₂, hlist, hpure⟩ := edit_bind.1 hdeclare
  obtain ⟨-, rfl⟩ := edit_pure.1 hpure
  obtain rfl : m₂ = (declare v m₁).2 := by rw [hlist]
  refine ⟨addGlobalVar_declares hrun, ?_, fun g hg => ?_⟩
  · exact (define_globals hdefine).2 ▸ List.prefix_rfl
  · have hnone : (m₁.kindOf g).decorated? = none := decorated?_of_define rfl hdefine hg
    exact .inl hnone

theorem intern_augments (hd : d.Proper)
    (hkind : d.kind.isUniformVar = false ∧ d.kind.decorated? = none)
    (hm : m.Interns) (hrun : intern d m = (h, m')) :
    m.Augments [] [] m' ∧ m'.Describes h d ∧ m'.interned.lookup d = some h := by
  obtain ⟨hdeclares, hdescribes⟩ := intern_declares hd hkind.1 hm hrun
  cases hlookup : m.interned.lookup d with
  | some v =>
      rw [intern_of_some hlookup] at hrun
      obtain ⟨rfl, rfl⟩ := Prod.mk.inj hrun
      exact ⟨.refl m, hdescribes, hlookup⟩
  | none =>
      rcases hstored : define d.type d.kind m with ⟨v, m₁⟩
      rw [intern_of_none hlookup hstored] at hrun
      obtain ⟨rfl, rfl⟩ := Prod.mk.inj hrun
      have hinterned : m₁.interned = m.interned := (define_globals hstored).2
      refine ⟨⟨hdeclares, ?_, fun g hg => ?_⟩, hdescribes, ?_⟩
      · change m.interned <+: m₁.interned ++ [(d, v)]
        rw [hinterned]
        exact List.prefix_append _ _
      · have hnone : (m₁.kindOf g).decorated? = none := decorated?_of_define hkind.2 hstored hg
        exact .inl hnone
      · change (m₁.interned ++ [(d, v)]).lookup d = some v
        rw [hinterned, List.lookup_append, hlookup]
        simp

theorem internType_augments (hkind : kind.isType) (hm : m.Interns)
    (hrun : internType kind m = (h, m')) : m.Augments [] [] m' ∧ m'.Describes h ⟨none, kind⟩ ∧
      m'.interned.lookup ⟨none, kind⟩ = some h := by
  refine intern_augments (Description.proper_type hkind)
    ⟨Kind.isUniformVar_of_isType hkind, ?_⟩ hm hrun
  revert hkind
  cases kind <;> simp [Kind.isType, Kind.decorated?]

theorem constant_augments {type : Handle} {value : Word} (hm : m.Interns)
    (hrun : constant type value m = (h, m')) :
    m.Augments [] [] m' ∧ m'.Describes h ⟨some type, .constant [value]⟩ ∧
      m'.interned.lookup ⟨some type, .constant [value]⟩ = some h :=
  intern_augments (Description.proper_constant rfl) ⟨rfl, rfl⟩ hm hrun

/-! ## Keys -/

def KeysOwn (m : Module) : Prop := ∀ d h, (d, h) ∈ m.interned → ∀ r ∈ d.references, m.Owns r

/-- What refers to something that nothing interned refers to has not been interned. -/
theorem intern_fresh {r : Handle} (hr : r ∈ d.references)
    (hkeys : ∀ d' h', (d', h') ∈ m.interned → r ∉ d'.references) (hrun : intern d m = (h, m')) :
    m.insts.get? h = none ∧ m'.interned = m.interned ++ [(d, h)] := by
  obtain ⟨hmem, -⟩ | ⟨m₁, hstored, rfl⟩ := intern_cases hrun
  · exact (hkeys d h hmem hr).elim
  · exact ⟨(define_edits hstored).2.2, congrArg (· ++ [(d, h)]) (define_globals hstored).2⟩

theorem KeysOwn.intern (hkeys : m.KeysOwn) (hd : ∀ r ∈ d.references, m.Owns r)
    (hmm : m.Augments notes vars m') (hrun : intern d m = (h, m')) : m'.KeysOwn := by
  intro d' g hmem r hr
  refine hmm.owns ?_
  obtain ⟨-, rfl⟩ | ⟨m₁, hstored, rfl⟩ := intern_cases hrun
  · exact hkeys d' g hmem r hr
  · have hmem : (d', g) ∈ m₁.interned ++ [(d, h)] := hmem
    rw [(define_globals hstored).2] at hmem
    obtain hmem | hmem := List.mem_append.1 hmem
    · exact hkeys d' g hmem r hr
    · obtain ⟨rfl, -⟩ := Prod.mk.inj (List.mem_singleton.1 hmem)
      exact hd r hr

theorem not_owns_of_get? (hh : m.insts.get? h = none) : ¬m.Owns h := by
  rw [owns_iff, hh]
  simp

/-! ## Declaring the metadata -/

/-- A fresh struct is in no module before, and it is not interned. -/
theorem freshStructType_augments {members : List Handle}
    (hrun : freshStructType members m = (h, m')) :
    m.Augments [] [] m' ∧ m'.Describes h ⟨none, .typeStruct members⟩ ∧ m.insts.get? h = none ∧
      m'.interned = m.interned := by
  obtain ⟨v, m₁, hdefine, hdeclare⟩ := edit_bind.1 hrun
  obtain ⟨hedits, ⟨id, hget⟩, hfresh⟩ := define_edits hdefine
  obtain ⟨_, m₂, hdeclared, hlist⟩ := edit_bind.1 hdeclare
  obtain rfl : m₂ = (declare v m₁).2 := by rw [hdeclared]
  obtain ⟨_, m₃, hdistinct, hpure⟩ := edit_bind.1 hlist
  obtain ⟨rfl, rfl⟩ := edit_pure.1 hpure
  obtain ⟨-, rfl⟩ := Prod.mk.inj hdistinct
  have hlisted : m₁.Edits [] { (declare v m₁).2 with distinct := v :: m₁.distinct } :=
    (declare_edits v m₁).1.trans (.of_fields List.prefix_rfl)
  have hinterned : m₁.interned = m.interned := (define_globals hdefine).2
  have hkind : m₁.kindOf v = .typeStruct members := by rw [kindOf, inst_of_get? hget]
  refine ⟨⟨⟨hedits.trans hlisted, [v], congrArg (· ++ [v]) (define_globals hdefine).1, ?_⟩, ?_,
    fun g hg => ?_⟩, ⟨_, hget, rfl⟩, hfresh, hinterned⟩
  · refine List.forall_mem_singleton.2 ⟨hlisted.isSome (by rw [hget]; rfl), fun huniform => ?_⟩
    have huniform : (m₁.kindOf v).isUniformVar := huniform
    rw [hkind] at huniform
    cases huniform
  · exact hinterned ▸ List.prefix_rfl
  · have hnone : (m₁.kindOf g).decorated? = none := decorated?_of_define rfl hdefine hg
    exact .inl hnone

theorem addBlockVar_augments {block : Handle} {binding : Word} (hm : m.Interns)
    (hrun : addBlockVar block binding m = (var, m')) :
    m.Augments (slotNotes var binding) [var] m' := by
  obtain ⟨pointer, m₁, hpointer, hrun⟩ := edit_bind.1 hrun
  obtain ⟨haugments₁, -⟩ := internType_augments rfl hm hpointer
  obtain ⟨v, m₂, hvar, hrun⟩ := edit_bind.1 hrun
  obtain ⟨_, m₃, hslot, hrun⟩ := edit_bind.1 hrun
  obtain ⟨rfl, rfl⟩ := edit_pure.1 hrun
  obtain ⟨_, m₄, hset, hslot⟩ := edit_bind.1 hslot
  obtain ⟨_, m₅, hbinding, hslot⟩ := edit_bind.1 hslot
  obtain ⟨-, rfl⟩ := edit_pure.1 hslot
  exact ((haugments₁.trans (addGlobalVar_augments hvar)).trans (annotate_augments hset)).trans
    (annotate_augments hbinding)

def metadataNotes (record array block var : Handle) : List (Kind Handle) :=
  offsetNotes record metadataOffsets.zipIdx ++ .decorate array .arrayStride [16] ::
    .decorate block .bufferBlock [] :: slotNotes var metadataBinding

/-- Whether a variable for metadata has been declared: an array of records of words.  Neither
the variable nor the records were there before. -/
def DeclaresMetadata (m : Module) (var : Handle) (m' : Module) : Prop :=
  ∃ word record array block, m.Declares (metadataNotes record array block var) [var] m' ∧
    m'.IsBlockVar var block ∧ m'.Describes block ⟨none, .typeStruct [array]⟩ ∧
    m'.Describes array ⟨none, .typeRuntimeArray record⟩ ∧
    m'.Describes record ⟨none, .typeStruct (metadataOffsets.map fun _ => word)⟩ ∧
    m'.Describes word ⟨none, .typeInt 32 false⟩ ∧ m.insts.get? record = none ∧
    m.insts.get? var = none

theorem fresh_of_record {m₀ m₁ m₂ : Module} {record array block : Handle} (hkeys : m₀.KeysOwn)
    (hrecord : ¬m₀.Owns record) (hinterned : m.interned = m₀.interned)
    (hgrown : ∀ g, m₀.Owns g → m.Owns g) (howns : m.Owns record)
    (harray : runtimeArrayType record m = (array, m₁)) (hinterned₁ : m'.interned = m₁.interned)
    (hblock : structType [array] m' = (block, m₂)) :
    m.insts.get? array = none ∧ m'.insts.get? block = none := by
  obtain ⟨hfreshArray, htable⟩ := intern_fresh (r := record)
    (by simp [Description.references, Kind.references, Kind.operands])
    (fun d g hmem hr => hrecord (hkeys d g (hinterned ▸ hmem) record hr)) harray
  have harrayNew := not_owns_of_get? hfreshArray
  refine ⟨hfreshArray, (intern_fresh (r := array)
    (by simp [Description.references, Kind.references, Kind.operands]) (fun d g hmem hr => ?_)
    hblock).1⟩
  rw [hinterned₁, htable, hinterned] at hmem
  obtain hmem | hmem := List.mem_append.1 hmem
  · exact harrayNew (hgrown _ (hkeys d g hmem array hr))
  · obtain ⟨rfl, -⟩ := Prod.mk.inj (List.mem_singleton.1 hmem)
    obtain rfl : array = record := by
      simpa [Description.references, Kind.references, Kind.operands] using hr
    exact harrayNew howns

structure MetadataParts (m : Module) (var word record array block : Handle) (m' : Module) :
    Prop where
  augments : m.Augments (metadataNotes record array block var) [var] m'
  isVar : m'.IsBlockVar var block
  isBlock : m'.Describes block ⟨none, .typeStruct [array]⟩
  isArray : m'.Describes array ⟨none, .typeRuntimeArray record⟩
  isRecord : m'.Describes record ⟨none, .typeStruct (metadataOffsets.map fun _ => word)⟩
  isWord : m'.Describes word ⟨none, .typeInt 32 false⟩
  found : m'.interned.lookup ⟨none, .typeInt 32 false⟩ = some word
  fresh : m.insts.get? record = none ∧ m.insts.get? var = none
  unshared : m.KeysOwn → m.insts.get? array = none ∧ m.insts.get? block = none

theorem MetadataParts.extend {word record array block : Handle}
    (hparts : m.MetadataParts var word record array block m') (hmm : m'.Augments [] [] m'') :
    m.MetadataParts var word record array block m'' where
  augments := by simpa using hparts.augments.trans hmm
  isVar := hmm.isBlockVar hparts.isVar
  isBlock := hmm.describes hparts.isBlock
  isArray := hmm.describes hparts.isArray
  isRecord := hmm.describes hparts.isRecord
  isWord := hmm.describes hparts.isWord
  found := hmm.lookup hparts.found
  fresh := hparts.fresh
  unshared := hparts.unshared

theorem addMetadata_parts (hm : m.Interns) (hrun : addMetadata m = (var, m')) :
    ∃ word record array block, m.MetadataParts var word record array block m' := by
  obtain ⟨word, m₁, hwordRun, hrun⟩ := edit_bind.1 hrun
  obtain ⟨haugments₁, hword, hfound⟩ := internType_augments rfl hm hwordRun
  obtain ⟨record, m₂, hrecordRun, hrun⟩ := edit_bind.1 hrun
  obtain ⟨haugments₂, hrecord, hfreshRecord, hinterned₂⟩ := freshStructType_augments hrecordRun
  obtain ⟨_, m₃, hloop, hrun⟩ := edit_bind.1 hrun
  let note (member : Word × Nat) : Kind Handle :=
    .memberDecorate record member.2.toUInt32 .offset [member.1]
  obtain ⟨-, hplaced⟩ := Prod.mk.inj (hloop.symm.trans (forIn_annotate note
    (fun member _ m => edit_bind.2 ⟨_, _, annotate_eq _ m, rfl⟩) _ _ m₂))
  have haugments₃ : m₂.Augments (metadataOffsets.zipIdx.map note) [] m₃ :=
    hplaced ▸ m₂.annotated_augments _
  obtain ⟨array, m₄, harrayRun, hrun⟩ := edit_bind.1 hrun
  have hm₃ := haugments₃.interns (haugments₂.interns (haugments₁.interns hm))
  obtain ⟨haugments₄, harray, -⟩ := internType_augments rfl hm₃ harrayRun
  obtain ⟨_, m₅, hstride, hrun⟩ := edit_bind.1 hrun
  have haugments₅ := annotate_augments hstride
  obtain ⟨block, m₆, hblockRun, hrun⟩ := edit_bind.1 hrun
  have hm₅ := haugments₅.interns (haugments₄.interns hm₃)
  obtain ⟨haugments₆, hblock, -⟩ := internType_augments rfl hm₅ hblockRun
  obtain ⟨_, m₇, hbuffer, hrun⟩ := edit_bind.1 hrun
  have haugments₇ := annotate_augments hbuffer
  have hm₇ := haugments₇.interns (haugments₆.interns hm₅)
  have haugments₈ := addBlockVar_augments hm₇ hrun
  obtain ⟨-, hvar, hfreshVar⟩ := addBlockVar_declares hm₇ hrun
  have hlast := haugments₇.trans haugments₈
  have hrest := ((haugments₄.trans haugments₅).trans haugments₆).trans hlast
  have hall := (((((haugments₁.trans haugments₂).trans haugments₃).trans haugments₄).trans
    haugments₅).trans haugments₆).trans haugments₇
  refine ⟨word, record, array, block, ?_, hvar, hlast.describes hblock, ?_, ?_, ?_, ?_, ?_, ?_⟩
  · have hnotes := hall.trans haugments₈
    simpa [metadataNotes, offsetNotes, note,
      show UInt32.ofNat metadataOffsets.length * 4 = 16 from rfl] using hnotes
  · exact (haugments₅.trans (haugments₆.trans hlast)).describes harray
  · exact hrest.describes (haugments₃.describes hrecord)
  · exact hrest.describes (haugments₃.describes (haugments₂.describes hword))
  · exact hrest.lookup (haugments₃.lookup (haugments₂.lookup hfound))
  · exact ⟨haugments₁.get?_eq_none hfreshRecord, hall.get?_eq_none hfreshVar⟩
  · intro hkeys
    have hkeys₁ : m₁.KeysOwn := hkeys.intern
      (by simp [Description.references, Kind.references, Kind.operands]) haugments₁ hwordRun
    have hinterned₃ : m₃.interned = m₁.interned := by
      rw [hplaced]
      exact hinterned₂
    obtain ⟨hfreshArray, hfreshBlock⟩ := fresh_of_record hkeys₁ (not_owns_of_get? hfreshRecord)
      hinterned₃ (fun _ => (haugments₂.trans haugments₃).owns)
      (owns_iff.2 (haugments₃.isSome hrecord.isSome)) harrayRun
      (annotate_annotates hstride).interned_eq hblockRun
    have hbefore := (haugments₁.trans haugments₂).trans haugments₃
    exact ⟨hbefore.get?_eq_none hfreshArray,
      ((hbefore.trans haugments₄).trans haugments₅).get?_eq_none hfreshBlock⟩

/-- What is declared besides the metadata is there for the lowering of accessors to find. -/
theorem declareMetadata_parts (hm : m.Interns) (hrun : declareMetadata m = (var, m')) :
    ∃ word record array block, m.MetadataParts var word record array block m' ∧
      ∃ zero one pointer, m'.interned.lookup ⟨some word, .constant [0]⟩ = some zero ∧
        m'.interned.lookup ⟨some word, .constant [1]⟩ = some one ∧
        m'.interned.lookup ⟨none, .typePointer .uniform word⟩ = some pointer := by
  obtain ⟨metadata, m₁, hmetadata, hrun⟩ := edit_bind.1 hrun
  obtain ⟨word, record, array, block, hparts⟩ := addMetadata_parts hm hmetadata
  obtain ⟨word', m₂, hwordRun, hrun⟩ := edit_bind.1 hrun
  obtain ⟨rfl, rfl⟩ := Prod.mk.inj ((intern_of_some hparts.found).symm.trans hwordRun)
  obtain ⟨zero, m₃, hzeroRun, hrun⟩ := edit_bind.1 hrun
  have hm₁ := hparts.augments.interns hm
  obtain ⟨haugments₁, -, hzero⟩ := constant_augments hm₁ hzeroRun
  obtain ⟨one, m₄, honeRun, hrun⟩ := edit_bind.1 hrun
  have hm₂ := haugments₁.interns hm₁
  obtain ⟨haugments₂, -, hone⟩ := constant_augments hm₂ honeRun
  obtain ⟨pointer, m₅, hpointerRun, hrun⟩ := edit_bind.1 hrun
  obtain ⟨rfl, rfl⟩ := edit_pure.1 hrun
  obtain ⟨haugments₃, -, hpointer⟩ :=
    internType_augments rfl (haugments₂.interns hm₂) hpointerRun
  exact ⟨word, record, array, block,
    hparts.extend (by simpa using (haugments₁.trans haugments₂).trans haugments₃), zero, one,
    pointer, haugments₃.lookup (haugments₂.lookup hzero), haugments₃.lookup hone, hpointer⟩

theorem declareMetadata_declares (hm : m.Interns) (hrun : declareMetadata m = (var, m')) :
    m.DeclaresMetadata var m' := by
  obtain ⟨word, record, array, block, hparts, -⟩ := declareMetadata_parts hm hrun
  exact ⟨word, record, array, block, hparts.augments.toDeclares, hparts.isVar, hparts.isBlock,
    hparts.isArray, hparts.isRecord, hparts.isWord, hparts.fresh⟩

/-! ## Isolation -/

structure Tabled (m : Module) : Prop where
  interns : m.Interns
  keysOwn : m.KeysOwn

def AnnotatesOwn (m : Module) : Prop :=
  ∀ h ∈ m.annotations, m.Owns h ∧ ∀ g, (m.kindOf h).decorated? = some g → m.Owns g

theorem tabled_of_load {w : List Word} (hload : load w = .ok m) : m.Tabled :=
  ⟨(sound_of_load hload).interns, fun d h hh => ((contained_of_load hload).interned d h hh).2⟩

theorem annotatesOwn_of_load {w : List Word} (hload : load w = .ok m) : m.AnnotatesOwn := by
  have hm := contained_of_load hload
  refine fun h hh => ⟨hm.sections .annotations h hh, fun g hg => hm.owns_of_kindOf (h := h) ?_⟩
  revert hg
  cases m.kindOf h <;> simp +contextual [Kind.decorated?, Kind.references, Kind.operands]

/-- Whether nothing of a module has been changed or decorated, and what is new stands behind
it. -/
structure LeftAlone (m m' : Module) : Prop where
  insts : ∀ h i, m.insts.get? h = some i → m'.insts.get? h = some i
  sections : ∀ s : Section, s.handles m <+: s.handles m'
  code : m.SameCode m'
  decorations : ∀ g, m.Owns g → ∀ d, m'.decorations g d = m.decorations g d
  memberDecorations : ∀ g, m.Owns g → ∀ i d,
    m'.memberDecorations g i d = m.memberDecorations g i d

theorem Augments.filterMap_notes {β : Type} {f : Kind Handle → Option β}
    (hmm : m.Augments notes vars m') (hnotes : ∀ k ∈ notes, k.decorated? ≠ some g)
    (hf : ∀ k : Kind Handle, k.decorated? ≠ some g → f k = none) :
    m'.notes.filterMap f = m.notes.filterMap f := by
  have hnew (h : Handle) (hh : m.insts.get? h = none) : f (m'.kindOf h) = none := by
    obtain hnone | hmem := hmm.decorating h hh
    · exact hf _ (by simp [hnone])
    · exact hf _ (hnotes _ hmem)
  have hkind (h : Handle) : f (m'.kindOf h) = f (m.kindOf h) := by
    cases hget : m.insts.get? h with
    | some i => rw [hmm.kindOf_eq (by rw [hget]; rfl)]
    | none =>
        rw [hnew h hget, kindOf, inst, hget]
        exact (hf _ (by simp [Inst.plain, Kind.decorated?])).symm
  obtain ⟨hs, heq, hfresh, -⟩ := hmm.annotations
  have hnil : hs.filterMap (f ∘ m'.kindOf) = [] :=
    List.filterMap_eq_nil_iff.2 fun h hh => hnew h (hfresh h hh)
  rw [Module.notes, Module.notes, heq, List.filterMap_map, List.filterMap_map,
    List.filterMap_append, hnil, List.append_nil]
  exact List.filterMap_congr fun h _ => hkind h

theorem Augments.leftAlone (hmm : m.Augments notes vars m')
    (hnotes : ∀ k ∈ notes, ∀ g, k.decorated? = some g → ¬m.Owns g) : m.LeftAlone m' where
  insts := hmm.insts
  sections s := by
    obtain ⟨hs, hannotations, -⟩ := hmm.annotations
    have hglobals := hmm.globals
    obtain ⟨_, _, _, _, _, _, _, _, _, hframe⟩ := hmm.frame
    cases s
    case annotations => exact ⟨hs, hannotations.symm⟩
    case globals => exact hglobals
    all_goals
      rw [hframe]
      exact List.prefix_rfl
  code := hmm.code
  decorations g hg d := by
    rw [decorations_eq_notes, decorations_eq_notes]
    exact hmm.filterMap_notes (fun k hk hdecorated => hnotes k hk g hdecorated hg)
      fun _ => Kind.wordsOn?_eq_none
  memberDecorations g hg i d := by
    rw [memberDecorations_eq_notes, memberDecorations_eq_notes]
    exact hmm.filterMap_notes (fun k hk hdecorated => hnotes k hk g hdecorated hg)
      fun _ => Kind.memberWordsOn?_eq_none

theorem decorated?_of_mem_metadataNotes {record array block : Handle}
    (hk : kind ∈ metadataNotes record array block var) :
    ∃ g ∈ [record, array, block, var], kind.decorated? = some g := by
  simp only [metadataNotes, offsetNotes, slotNotes, List.mem_append, List.mem_cons, List.mem_map,
    List.not_mem_nil, or_false] at hk
  obtain ⟨member, -, rfl⟩ | rfl | rfl | rfl | rfl := hk
  · exact ⟨record, by simp, rfl⟩
  · exact ⟨array, by simp, rfl⟩
  · exact ⟨block, by simp, rfl⟩
  · exact ⟨var, by simp, rfl⟩
  · exact ⟨var, by simp, rfl⟩

structure NewMetadata (m : Module) (var word record array block : Handle) (m' : Module) :
    Prop where
  fresh : ∀ h ∈ [record, array, block, var], ¬m.Owns h
  isVar : m'.IsBlockVar var block
  isBlock : m'.kindOf block = .typeStruct [array]
  isArray : m'.kindOf array = .typeRuntimeArray record
  isRecord : m'.kindOf record = .typeStruct [word, word, word, word]
  isWord : m'.kindOf word = .typeInt 32 false
  annotations : ∃ hs, m'.annotations = m.annotations ++ hs ∧ (∀ h ∈ hs, ¬m.Owns h) ∧
    hs.map m'.kindOf = metadataNotes record array block var
  offsets : m.AnnotatesOwn → ∀ member offset,
    (member, offset) ∈ [(0, 4), (1, 8), (2, 12), (3, 16)] →
    m'.memberDecorations record member .offset = [[offset]]
  stride : m.AnnotatesOwn → m'.decorations array .arrayStride = [[16]]

/-- Whether what the lowering of accessors asks for is there already. -/
structure Supplies (m : Module) (word : Handle) : Prop where
  hasWord : m.Owns word ∧ unsignedType 32 m = (word, m)
  hasZero : ∃ zero, m.Owns zero ∧ constant word 0 m = (zero, m)
  hasOne : ∃ one, m.Owns one ∧ constant word 1 m = (one, m)
  hasPointer : ∃ pointer, m.Owns pointer ∧ pointerType .uniform word m = (pointer, m)

theorem Interns.provided (hm : m.Interns) (hlookup : m.interned.lookup d = some h) :
    m.Owns h ∧ intern d m = (h, m) := by
  obtain ⟨l, r, heq, -⟩ := List.lookup_eq_some_iff.1 hlookup
  have hdescribes := describes_of_description? (hm d h (by rw [heq]; simp))
  exact ⟨owns_iff.2 hdescribes.isSome, intern_of_some hlookup⟩

theorem MetadataParts.fresh_of_keysOwn {word record array block : Handle}
    (hparts : m.MetadataParts var word record array block m') (hkeys : m.KeysOwn) :
    ∀ h ∈ [record, array, block, var], ¬m.Owns h := by
  obtain ⟨hrecord, hvar⟩ := hparts.fresh
  obtain ⟨harray, hblock⟩ := hparts.unshared hkeys
  simpa using ⟨not_owns_of_get? hrecord, not_owns_of_get? harray, not_owns_of_get? hblock,
    not_owns_of_get? hvar⟩

/-- Where a module decorates only what is its own, the notes about something new are all there
are. -/
theorem Augments.filterMap_notes_of_fresh {β : Type} {f : Kind Handle → Option β}
    (hmm : m.Augments notes vars m') (hown : m.AnnotatesOwn) (hg : ¬m.Owns g)
    (hf : ∀ k : Kind Handle, k.decorated? ≠ some g → f k = none) :
    m'.notes.filterMap f = notes.filterMap f := by
  have hold : m.notes.filterMap f = [] := by
    refine List.filterMap_eq_nil_iff.2 fun k hk => hf k fun hdecorated => ?_
    obtain ⟨h, hh, rfl⟩ := List.mem_map.1 hk
    exact hg ((hown h hh).2 g hdecorated)
  rw [hmm.notes_eq fun h hh => owns_iff.1 (hown h hh).1, List.filterMap_append, hold,
    List.nil_append]

theorem MetadataParts.newMetadata {word record array block : Handle}
    (hparts : m.MetadataParts var word record array block m') (hkeys : m.KeysOwn) :
    m.NewMetadata var word record array block m' := by
  have hfresh := hparts.fresh_of_keysOwn hkeys
  obtain ⟨hrecordNew, harrayNew, -, -⟩ := by simpa using hfresh
  refine ⟨hfresh, hparts.isVar, hparts.isBlock.kindOf_eq, hparts.isArray.kindOf_eq,
    hparts.isRecord.kindOf_eq, hparts.isWord.kindOf_eq, ?_, fun hown member offset hoffset => ?_,
    fun hown => ?_⟩
  · obtain ⟨hs, heq, hnew, hkinds⟩ := hparts.augments.exists_notes
    exact ⟨hs, heq, fun h hh => not_owns_of_get? (hnew h hh), hkinds⟩
  · rw [memberDecorations_eq_notes,
      hparts.augments.filterMap_notes_of_fresh hown hrecordNew fun _ =>
      Kind.memberWordsOn?_eq_none]
    simp only [List.mem_cons, Prod.mk.injEq, List.not_mem_nil, or_false] at hoffset
    obtain ⟨rfl, rfl⟩ | ⟨rfl, rfl⟩ | ⟨rfl, rfl⟩ | ⟨rfl, rfl⟩ := hoffset
    all_goals simp [metadataNotes, offsetNotes, metadataOffsets, slotNotes, Kind.memberWordsOn?]
  · rw [decorations_eq_notes,
      hparts.augments.filterMap_notes_of_fresh hown harrayNew fun _ => Kind.wordsOn?_eq_none]
    have hne : Decoration.bufferBlock ≠ .arrayStride ∧ Decoration.descriptorSet ≠ .arrayStride ∧
        Decoration.binding ≠ .arrayStride := by
      decide
    simp [metadataNotes, offsetNotes, metadataOffsets, slotNotes, Kind.wordsOn?, hne]

/-- Declaring the metadata leaves a module alone that has its tables in order.  The record and
what holds it are new, and decorated as they have been laid out, and what is asked for
afterwards is found. -/
theorem declareMetadata_isolated : (∀ w m, load w = .ok m → m.Tabled ∧ m.AnnotatesOwn) ∧
    ∀ m var m', m.Tabled → declareMetadata m = (var, m') → m.LeftAlone m' ∧
      ∃ word record array block, m.NewMetadata var word record array block m' ∧
      m'.Supplies word := by
  refine ⟨fun w m hload => ⟨tabled_of_load hload, annotatesOwn_of_load hload⟩, ?_⟩
  intro m var m' hm hrun
  obtain ⟨word, record, array, block, hparts, zero, one, pointer, hzero, hone, hpointer⟩ :=
    declareMetadata_parts hm.interns hrun
  have hnew := hparts.newMetadata hm.keysOwn
  have hm' := hparts.augments.interns hm.interns
  refine ⟨hparts.augments.leftAlone fun k hk g hdecorated => ?_, word, record, array,
    block, hnew, hm'.provided hparts.found, ⟨zero, hm'.provided hzero⟩, ⟨one, hm'.provided hone⟩,
    pointer, hm'.provided hpointer⟩
  obtain ⟨h, hh, heq⟩ := decorated?_of_mem_metadataNotes hk
  obtain rfl := Option.some.inj (heq.symm.trans hdecorated)
  exact hnew.fresh h hh

/-- A struct of four words that is laid out differently, and an array of it. -/
def laidOutRecords : List Word :=
  [Stream.magic, 0x10000, 0, 4, 0, 0x50048, 2, 0, 35, 0, 0x40047, 3, 6, 32, 0x40015, 1, 32, 0,
    0x6001e, 2, 1, 1, 1, 1, 0x3001d, 3, 2]

theorem declareMetadata_isolated_laidOutRecords : ∃ m var m', load laidOutRecords = .ok m ∧
    m.Tabled ∧ declareMetadata m = (var, m') ∧ m.kindOf ⟨0⟩ = .typeStruct [⟨4⟩, ⟨4⟩, ⟨4⟩, ⟨4⟩] ∧
    m'.memberDecorations ⟨0⟩ 0 .offset = [[0]] ∧ m'.decorations ⟨2⟩ .arrayStride = [[32]] ∧
    ∃ word record array block, m.NewMetadata var word record array block m' ∧ m'.Supplies word ∧
      m'.memberDecorations record 0 .offset = [[4]] ∧
      m'.decorations array .arrayStride = [[16]] := by
  have hread : (load laidOutRecords).toOption.map (fun m => (m.kindOf ⟨0⟩, decide (m.Owns ⟨2⟩),
      m.memberDecorations ⟨0⟩ 0 .offset, m.decorations ⟨2⟩ .arrayStride)) =
        some (.typeStruct [⟨4⟩, ⟨4⟩, ⟨4⟩, ⟨4⟩], true, [[0]], [[32]]) := by
    decide +kernel
  obtain ⟨m, hload, hread⟩ := exists_of_map_toOption hread
  obtain ⟨hkind, hstored, hoffset, hstride⟩ := by
    simpa only [Prod.mk.injEq, decide_eq_true_eq] using hread
  obtain ⟨hloaded, hall⟩ := declareMetadata_isolated
  obtain ⟨htabled, hown⟩ := hloaded _ m hload
  rcases hrun : declareMetadata m with ⟨var, m'⟩
  obtain ⟨hleft, word, record, array, block, hnew, hsupplies⟩ := hall m var m' htabled hrun
  refine ⟨m, var, m', hload, htabled, hrun, hkind, ?_, ?_, word, record, array, block, hnew,
    hsupplies, hnew.offsets hown 0 4 (by simp), hnew.stride hown⟩
  · rw [hleft.memberDecorations ⟨0⟩ (Nat.zero_lt_of_lt hstored), hoffset]
  · rw [hleft.decorations ⟨2⟩ hstored, hstride]

end KernelGrid.Module
