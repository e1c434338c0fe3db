import KernelGrid.Kernel.ComputePreamble
import KernelGrid.Proofs.Module.Editing

/-!
# The preamble of a compute program

Each requirement is stated once: what is there already is kept or changed in place, what is
missing is added.
-/

namespace KernelGrid.Module

variable {m m' : Module} {u : Unit} {h : Handle}

/-! ## Single requirements -/

theorem findKind?_isNone {test : Kind Handle → Bool} {hs : List Handle} :
    (m.findKind? test hs).isNone ↔ ∀ h ∈ hs, test (m.kindOf h) = false := by
  simp [findKind?, Option.isNone_iff_eq_none]

theorem findKind?_eq_some {test : Kind Handle → Bool} {hs : List Handle}
    (hfind : m.findKind? test hs = some h) : h ∈ hs ∧ test (m.kindOf h) :=
  ⟨List.mem_of_find?_eq_some hfind, List.find?_some (p := fun h => test (m.kindOf h)) hfind⟩

theorem addCapability_cases {c : Capability} (hrun : addCapability c m = (u, m')) :
    (∃ h ∈ m.capabilities, m.kindOf h = .capability c) ∧ m' = m ∨
      (∀ h ∈ m.capabilities, m.kindOf h ≠ .capability c) ∧
        ∃ h m₁, append (.plain (.capability c)) m = (h, m₁) ∧
          m' = Section.capabilities.add h m₁ := by
  obtain ⟨_, _, hget, hrun⟩ := edit_bind.1 hrun
  obtain ⟨rfl, rfl⟩ : m = _ ∧ m = _ := Prod.mk.inj hget
  split at hrun
  · rename_i hnone
    obtain ⟨h, m₁, hstored, hrun⟩ := edit_bind.1 hrun
    obtain ⟨-, rfl⟩ := Prod.mk.inj hrun
    exact .inr ⟨by simpa using findKind?_isNone.1 hnone, h, m₁, hstored, rfl⟩
  · rename_i hsome
    obtain ⟨-, rfl⟩ := edit_pure.1 hrun
    refine .inl ⟨?_, rfl⟩
    simpa [findKind?] using hsome

theorem addExtInstImport_cases {name : String} (hrun : addExtInstImport name m = (h, m')) :
    h ∈ m.extInstImports ∧ m.kindOf h = .extInstImport name ∧ m' = m ∨
      (∀ h ∈ m.extInstImports, m.kindOf h ≠ .extInstImport name) ∧
        ∃ m₁, define none (.extInstImport name) m = (h, m₁) ∧
          m' = Section.extInstImports.add h m₁ := by
  obtain ⟨_, _, hget, hrun⟩ := edit_bind.1 hrun
  obtain ⟨rfl, rfl⟩ : m = _ ∧ m = _ := Prod.mk.inj hget
  cases hfind : m.findKind? (· = .extInstImport name) m.extInstImports with
  | some g =>
      simp only [hfind] at hrun
      obtain ⟨rfl, rfl⟩ := edit_pure.1 hrun
      obtain ⟨hmem, hkind⟩ := findKind?_eq_some hfind
      exact .inl ⟨hmem, of_decide_eq_true hkind, rfl⟩
  | none =>
      simp only [hfind] at hrun
      obtain ⟨h', m₁, hstored, hrun⟩ := edit_bind.1 hrun
      obtain ⟨_, m₂, hadd, hrun⟩ := edit_bind.1 hrun
      obtain ⟨rfl, rfl⟩ := edit_pure.1 hrun
      obtain ⟨-, rfl⟩ := Prod.mk.inj hadd
      exact .inr ⟨by simpa [findKind?] using hfind, m₁, hstored, rfl⟩

theorem setMemoryModel_cases {addressing : AddressingModel} {memory : MemoryModel}
    (hrun : setMemoryModel addressing memory m = (u, m')) :
    (∃ h, m.memoryModel = some h ∧ m' = (setKind h (.memoryModel addressing memory) m).2) ∨
      m.memoryModel = none ∧ ∃ h m₁,
      append (.plain (.memoryModel addressing memory)) m = (h, m₁) ∧
        m' = Section.memoryModel.add h m₁ := by
  obtain ⟨_, _, hget, hrun⟩ := edit_bind.1 hrun
  obtain ⟨rfl, rfl⟩ : m = _ ∧ m = _ := Prod.mk.inj hget
  cases hmodel : m.memoryModel with
  | some h =>
      simp only [hmodel] at hrun
      exact .inl ⟨h, rfl, by rw [hrun]⟩
  | none =>
      simp only [hmodel] at hrun
      obtain ⟨h, m₁, hstored, hrun⟩ := edit_bind.1 hrun
      obtain ⟨-, rfl⟩ := Prod.mk.inj hrun
      exact .inr ⟨rfl, h, m₁, hstored, rfl⟩

theorem setSource_cases {language version : Word}
    (hrun : setSource language version m = (u, m')) :
    (∃ h, m.findKind? (·.isSource) m.debug = some h ∧
        m' = (setKind h (.raw Opcode.source [language, version]) m).2) ∨
      m.findKind? (·.isSource) m.debug = none ∧
        ∃ h m₁, append (.plain (.raw Opcode.source [language, version])) m = (h, m₁) ∧
          m' = (insertSource h m₁).2 := by
  obtain ⟨_, _, hget, hrun⟩ := edit_bind.1 hrun
  obtain ⟨rfl, rfl⟩ : m = _ ∧ m = _ := Prod.mk.inj hget
  cases hfind : m.findKind? (·.isSource) m.debug with
  | some h =>
      simp only [hfind] at hrun
      exact .inl ⟨h, rfl, by rw [hrun]⟩
  | none =>
      simp only [hfind] at hrun
      obtain ⟨h, m₁, hstored, hrun⟩ := edit_bind.1 hrun
      exact .inr ⟨rfl, h, m₁, hstored, by rw [hrun]⟩

theorem addSourceExtension_cases {name : String} (hrun : addSourceExtension name m = (u, m')) :
    (∃ h ∈ m.debug, m.kindOf h = .sourceExtension name) ∧ m' = m ∨
      (∀ h ∈ m.debug, m.kindOf h ≠ .sourceExtension name) ∧
        ∃ h m₁, append (.plain (.sourceExtension name)) m = (h, m₁) ∧
          m' = (insertSource h m₁).2 := by
  obtain ⟨_, _, hget, hrun⟩ := edit_bind.1 hrun
  obtain ⟨rfl, rfl⟩ : m = _ ∧ m = _ := Prod.mk.inj hget
  split at hrun
  · rename_i hnone
    obtain ⟨h, m₁, hstored, hrun⟩ := edit_bind.1 hrun
    exact .inr ⟨by simpa using findKind?_isNone.1 hnone, h, m₁, hstored, by rw [hrun]⟩
  · rename_i hsome
    obtain ⟨-, rfl⟩ := edit_pure.1 hrun
    refine .inl ⟨?_, rfl⟩
    simpa [findKind?] using hsome

/-! ## Keeping modules sound -/

variable {known : List Handle}

theorem enlists_insertSource
    (hsection : Section.ofOpcode (m.kindOf h).opcode = .debug ∧
      (m.kindOf h).opcode ∉ FunctionDef.outlineOpcodes) : m.Enlists h (insertSource h m).2 := by
  refine enlists_section (s := .debug) ⟨rfl, rfl, rfl, rfl, rfl⟩ ?_ ?_ hsection
  · intro t ht
    cases t <;> first | rfl | exact absurd rfl ht
  · refine List.perm_middle.trans (List.Perm.cons h ?_)
    rw [List.takeWhile_append_dropWhile]
    exact List.Perm.refl _

/-- A source statement may be stored in front of the names. -/
theorem Sound.append_insertSource {kind : Kind Handle} {m₁ : Module} (hm : m.Sound)
    (hkind : kind.BelongsTo .debug) (hplain : kind.opcode.layout = .plain)
    (hreferences : kind.references = []) (hrun : append (.plain kind) m = (h, m₁)) :
    m.Grows (insertSource h m₁).2 := by
  refine hm.append_enlists hkind hplain (by simp [hreferences]) hrun (enlists_insertSource ?_)
  rw [kindOf_of_append hrun]
  exact ⟨hkind.place, hkind.outline⟩

theorem keeps_addCapability (c : Capability) :
    Keeps Sound Usable known (addCapability c) fun _ => [] := by
  apply keeps_sound_of_grows
  intro m u m' hrun hm hknown
  obtain ⟨-, rfl⟩ | ⟨-, h, m₁, hstored, rfl⟩ := addCapability_cases hrun
  · exact ⟨hm.refl, by simp⟩
  · exact ⟨hm.append_add (Kind.belongsTo_capability c) (Form.layout_opcode .capability)
      (.inl (by decide)) (by simp [Kind.references, Kind.operands]) hstored, by simp⟩

theorem keeps_addExtInstImport {name : String} (hname : '\x00' ∉ name.toList) :
    Keeps Sound Usable known (addExtInstImport name) fun _ => [] := by
  apply keeps_sound_of_grows
  intro m h m' hrun hm hknown
  obtain ⟨-, -, rfl⟩ | ⟨-, m₁, hstored, rfl⟩ := addExtInstImport_cases hrun
  · exact ⟨hm.refl, by simp⟩
  · exact ⟨(hm.define_add (Kind.belongsTo_extInstImport hname)
      (.inl ⟨Form.layout_opcode .extInstImport, rfl⟩) (by decide) (by simp)
      (by simp [Kind.references, Kind.operands]) hstored).1, by simp⟩

theorem keeps_setMemoryModel (addressing : AddressingModel) (memory : MemoryModel) :
    Keeps Sound Usable known (setMemoryModel addressing memory) fun _ => [] := by
  apply keeps_sound_of_grows
  intro m u m' hrun hm hknown
  have hkind := Kind.belongsTo_memoryModel addressing memory
  obtain ⟨h, hmodel, rfl⟩ | ⟨hnone, h, m₁, hstored, rfl⟩ := setMemoryModel_cases hrun
  · have hop := (hm.sections .memoryModel h (by simp [Section.handles, hmodel])).1
    exact ⟨hm.setKind hkind (Form.layout_opcode .memoryModel) (by decide)
      (by simp [Kind.references, Kind.operands]) (Section.eq_of_memoryModel hop), by simp⟩
  · exact ⟨hm.append_add hkind (Form.layout_opcode .memoryModel) (.inr hnone)
      (by simp [Kind.references, Kind.operands]) hstored, by simp⟩

theorem layout_source : Opcode.source.layout = .plain := by decide +kernel

theorem keeps_setSource (language version : Word) :
    Keeps Sound Usable known (setSource language version) fun _ => [] := by
  apply keeps_sound_of_grows
  intro m u m' hrun hm hknown
  have hkind := Kind.belongsTo_source [language, version]
  obtain ⟨h, hfind, rfl⟩ | ⟨-, h, m₁, hstored, rfl⟩ := setSource_cases hrun
  · have hop := Kind.opcode_of_isSource (findKind?_eq_some hfind).2
    exact ⟨hm.setKind hkind layout_source (by decide) (by simp [Kind.references, Kind.operands])
      hop, by simp⟩
  · exact ⟨hm.append_insertSource hkind layout_source (by simp [Kind.references, Kind.operands])
      hstored, by simp⟩

theorem keeps_addSourceExtension {name : String} (hname : '\x00' ∉ name.toList) :
    Keeps Sound Usable known (addSourceExtension name) fun _ => [] := by
  apply keeps_sound_of_grows
  intro m u m' hrun hm hknown
  obtain ⟨-, rfl⟩ | ⟨-, h, m₁, hstored, rfl⟩ := addSourceExtension_cases hrun
  · exact ⟨hm.refl, by simp⟩
  · exact ⟨hm.append_insertSource (Kind.belongsTo_sourceExtension hname)
      (Form.layout_opcode .sourceExtension) (by simp [Kind.references, Kind.operands])
      hstored, by simp⟩

theorem keeps_addComputePreamble :
    Keeps Sound Usable known addComputePreamble fun _ => [] := by
  unfold addComputePreamble
  refine .bind (keeps_addCapability _) fun _ => ?_
  refine .bind (keeps_setMemoryModel _ _) fun _ => ?_
  refine .bind (keeps_addExtInstImport (by decide)) fun _ => ?_
  refine .bind (keeps_setSource _ _) fun _ => ?_
  refine .forM fun name hname => keeps_addSourceExtension ?_
  revert name
  decide

/-! ## What stays as it is -/

/-- Whether the globals section and what is interned are the same, and neither a declaration
nor anything that has a type is new. -/
structure Restates (m m' : Module) : Prop where
  globals : m'.globals = m.globals
  interned : m'.interned = m.interned
  kinds : ∀ g, (m'.kindOf g).isDeclaration → m'.kindOf g = m.kindOf g
  types : ∀ g, m'.typeOf? g = m.typeOf? g

theorem Restates.refl (m : Module) : m.Restates m := ⟨rfl, rfl, fun _ _ => rfl, fun _ => rfl⟩

theorem Restates.trans {m'' : Module} (h₁ : m.Restates m') (h₂ : m'.Restates m'') :
    m.Restates m'' := by
  refine ⟨h₂.globals.trans h₁.globals, h₂.interned.trans h₁.interned, fun g hg => ?_,
    fun g => (h₂.types g).trans (h₁.types g)⟩
  have heq := h₂.kinds g hg
  rw [heq] at hg
  exact heq.trans (h₁.kinds g hg)

/-- Something else than a declaration has been stored and listed outside the globals section. -/
theorem Puts.restates {i : Inst Handle} {m₁ : Module} (hp : m.Puts i h m₁)
    (hi : i.kind.isDeclaration = false) (htype : i.resultType = none)
    (hframe : m'.insts = m₁.insts ∧ m'.globals = m₁.globals ∧ m'.interned = m₁.interned) :
    m.Restates m' := by
  obtain ⟨hinsts, hglobals, hinterned⟩ := hframe
  obtain ⟨hglobals₁, hinterned₁⟩ : m₁.globals = m.globals ∧ m₁.interned = m.interned := by
    obtain ⟨bound, ids, rfl⟩ := hp.frame
    exact ⟨rfl, rfl⟩
  refine ⟨hglobals.trans hglobals₁, hinterned.trans hinterned₁, fun g hg => ?_, fun g => ?_⟩
  · rw [kindOf, inst, hinsts, ← inst, hp.inst_eq] at hg ⊢
    split at hg
    · rw [hi] at hg
      cases hg
    · rw [if_neg ‹_›]
      rfl
  · rw [typeOf?, inst, hinsts, ← inst, hp.inst_eq]
    split
    · obtain rfl : g = h := ‹_›
      rw [htype, typeOf?, hp.handle, inst_nextHandle]
      rfl
    · rfl

theorem restates_setKind {kind : Kind Handle} (hkind : kind.isDeclaration = false) :
    m.Restates (setKind h kind m).2 := by
  refine ⟨rfl, rfl, fun g hg => ?_, fun g => ?_⟩
  · rw [kindOf_setKind] at hg ⊢
    split at hg
    · rw [hkind] at hg
      cases hg
    · rw [if_neg ‹_›]
  · rw [typeOf?, inst_setKind]
    split <;> rfl

theorem restates_addCapability {c : Capability} (hrun : addCapability c m = (u, m')) :
    m.Restates m' := by
  obtain ⟨-, rfl⟩ | ⟨-, h, m₁, hstored, rfl⟩ := addCapability_cases hrun
  · exact .refl m'
  · exact (puts_append rfl hstored).restates rfl rfl ⟨rfl, rfl, rfl⟩

theorem restates_addExtInstImport {name : String} (hrun : addExtInstImport name m = (h, m')) :
    m.Restates m' := by
  obtain ⟨-, -, rfl⟩ | ⟨-, m₁, hstored, rfl⟩ := addExtInstImport_cases hrun
  · exact .refl m'
  · exact (puts_define hstored).restates rfl rfl ⟨rfl, rfl, rfl⟩

theorem restates_setMemoryModel {addressing : AddressingModel} {memory : MemoryModel}
    (hrun : setMemoryModel addressing memory m = (u, m')) : m.Restates m' := by
  obtain ⟨h, -, rfl⟩ | ⟨-, h, m₁, hstored, rfl⟩ := setMemoryModel_cases hrun
  · exact restates_setKind rfl
  · exact (puts_append rfl hstored).restates rfl rfl ⟨rfl, rfl, rfl⟩

theorem restates_setSource {language version : Word}
    (hrun : setSource language version m = (u, m')) : m.Restates m' := by
  obtain ⟨h, -, rfl⟩ | ⟨-, h, m₁, hstored, rfl⟩ := setSource_cases hrun
  · exact restates_setKind rfl
  · exact (puts_append rfl hstored).restates rfl rfl ⟨rfl, rfl, rfl⟩

theorem restates_addSourceExtension {name : String}
    (hrun : addSourceExtension name m = (u, m')) : m.Restates m' := by
  obtain ⟨-, rfl⟩ | ⟨-, h, m₁, hstored, rfl⟩ := addSourceExtension_cases hrun
  · exact .refl m'
  · exact (puts_append rfl hstored).restates rfl rfl ⟨rfl, rfl, rfl⟩

theorem restates_addComputePreamble (m : Module) : m.Restates (addComputePreamble m).2 := by
  have hkeeps {α : Type} {x : Edit α} (hx : ∀ m a m', x m = (a, m') → Restates m m') :
      Keeps (Restates m) (fun _ (_ : Handle) => True) [] x fun _ => [] :=
    fun m' hm' _ => ⟨hm'.trans (hx m' _ _ rfl), by simp⟩
  suffices hall : Keeps (Restates m) (fun _ (_ : Handle) => True) [] addComputePreamble
      fun _ => [] from hall.state (.refl m)
  unfold addComputePreamble
  refine .bind (hkeeps fun _ _ _ => restates_addCapability) fun _ => ?_
  refine .bind (hkeeps fun _ _ _ => restates_setMemoryModel) fun _ => ?_
  refine .bind (hkeeps fun _ _ _ => restates_addExtInstImport) fun _ => ?_
  refine .bind (hkeeps fun _ _ _ => restates_setSource) fun _ => ?_
  exact .forM fun name _ => hkeeps fun _ _ _ => restates_addSourceExtension

end KernelGrid.Module
