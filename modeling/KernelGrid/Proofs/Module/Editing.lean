import KernelGrid.Module.Debug
import KernelGrid.Proofs.Module.Changes
import KernelGrid.Proofs.Runs

/-!
# Editing sound modules

Edits keep a module sound if they are given nothing but what may be referred to, and what they
return may be referred to as well.
-/

namespace KernelGrid

/-! ## Kinds and their sections -/

def Kind.isDeclaration {ρ : Type} (k : Kind ρ) : Bool := k.isType || k.isConstant || k.isVar

structure Kind.BelongsTo (k : Kind Handle) (s : Section) : Prop where
  genuine : k.Genuine
  strings : ∀ text, .string text ∈ k.operands → '\x00' ∉ text.toList
  place : Section.ofOpcode k.opcode = s
  outline : k.opcode ∉ FunctionDef.outlineOpcodes

namespace Kind

variable {k : Kind Handle}

theorem belongsTo_of_isType (hk : k.isType) : k.BelongsTo .globals := by
  cases k
  case typeVoid | typeBool | typeInt | typeFloat | typeVector | typeArray | typeRuntimeArray |
      typeStruct | typePointer | typeFunction =>
    exact ⟨trivial, by simp [operands, Enumerant.operand], by rw [opcode]; decide,
      by rw [opcode]; decide⟩
  all_goals cases hk

theorem belongsTo_of_isConstant (hk : k.isConstant) : k.BelongsTo .globals := by
  cases k
  case constant | constantComposite =>
    exact ⟨trivial, by simp [operands], by rw [opcode]; decide, by rw [opcode]; decide⟩
  all_goals cases hk

theorem belongsTo_var (storage : StorageClass) : (var storage none).BelongsTo .globals :=
  ⟨trivial, by simp [operands, Enumerant.operand], by rw [opcode]; decide,
    by rw [opcode]; decide⟩

theorem belongsTo_decorate (target : Handle) (decoration : Decoration) (words : List Word) :
    (decorate target decoration words).BelongsTo .annotations :=
  ⟨trivial, by simp [operands, Enumerant.operand], by rw [opcode]; decide,
    by rw [opcode]; decide⟩

theorem belongsTo_memberDecorate (target : Handle) (member : Word) (decoration : Decoration)
    (words : List Word) :
    (memberDecorate target member decoration words).BelongsTo .annotations :=
  ⟨trivial, by simp [operands, Enumerant.operand], by rw [opcode]; decide,
    by rw [opcode]; decide⟩

theorem belongsTo_capability (c : Capability) : (capability c).BelongsTo .capabilities :=
  ⟨trivial, by simp [operands, Enumerant.operand], by rw [opcode]; decide,
    by rw [opcode]; decide⟩

theorem belongsTo_memoryModel (addressing : AddressingModel) (memory : MemoryModel) :
    (memoryModel addressing memory).BelongsTo .memoryModel :=
  ⟨trivial, by simp [operands, Enumerant.operand], by rw [opcode]; decide,
    by rw [opcode]; decide⟩

theorem belongsTo_extInstImport {name : String} (hname : '\x00' ∉ name.toList) :
    (extInstImport name).BelongsTo .extInstImports :=
  ⟨trivial, by simpa [operands] using hname, by rw [opcode]; decide, by rw [opcode]; decide⟩

theorem belongsTo_sourceExtension {name : String} (hname : '\x00' ∉ name.toList) :
    (sourceExtension name).BelongsTo .debug :=
  ⟨trivial, by simpa [operands] using hname, by rw [opcode]; decide, by rw [opcode]; decide⟩

theorem belongsTo_source (words : List Word) : (raw Opcode.source words).BelongsTo .debug :=
  ⟨by simp only [Genuine]; decide, by simp [operands], by rw [opcode]; decide,
    by rw [opcode]; decide⟩

theorem opcode_of_isSource (hk : k.isSource) : k.opcode = Opcode.source := by
  cases k
  case raw => exact of_decide_eq_true hk
  all_goals cases hk

theorem BelongsTo.writable {s : Section} (hk : k.BelongsTo s) {type : Option Handle}
    {id : Option ResultId} (hlayout : (⟨type, id, k⟩ : Inst Handle).Suits k.opcode.layout) :
    (⟨type, id, k⟩ : Inst Handle).Writable := ⟨hk.genuine, hlayout, hk.strings⟩

end Kind

theorem Inst.globals_of_description? {i : Inst Handle} {d : Description}
    (hd : i.description? = some d) : Section.ofOpcode i.opcode = .globals := by
  unfold description? at hd
  split at hd
  · rename_i htype
    exact (Kind.belongsTo_of_isType htype).place
  split at hd
  · rename_i hconstant
    exact (Kind.belongsTo_of_isConstant hconstant.1).place
  · cases hd

namespace Module

variable {m m' m₁ : Module} {h : Handle} {kind : Kind Handle} {s : Section}

/-! ## Single instructions -/

theorem kindOf_of_append {i : Inst Handle} (hrun : append i m = (h, m₁)) :
    m₁.kindOf h = i.kind := by
  rw [kindOf, inst_of_get? (append_edits hrun).2.1]

theorem Sound.append_enlists (hm : m.Sound) (hkind : kind.BelongsTo s)
    (hplain : kind.opcode.layout = .plain) (hreferences : ∀ r ∈ kind.references, m.Usable r)
    (hrun : append (.plain kind) m = (h, m₁)) (he : m₁.Enlists h m') : m.Grows m' := by
  refine (hm.add (puts_append rfl hrun) he (hkind.writable ?_) ?_).1
  · rw [hplain]
    exact ⟨rfl, rfl⟩
  · intro r hr
    obtain hr | hr := Inst.mem_references.1 hr
    · cases hr
    · exact hreferences r hr

theorem Sound.append_add (hm : m.Sound) (hkind : kind.BelongsTo s)
    (hplain : kind.opcode.layout = .plain) (hs : s ≠ .memoryModel ∨ m.memoryModel = none)
    (hreferences : ∀ r ∈ kind.references, m.Usable r)
    (hrun : append (.plain kind) m = (h, m₁)) : m.Grows (s.add h m₁) := by
  refine hm.append_enlists hkind hplain hreferences hrun
    (enlists_add (hs.imp_right fun hnone => ?_) ?_)
  · obtain ⟨bound, ids, rfl⟩ := (puts_append rfl hrun).frame
    exact hnone
  · rw [kindOf_of_append hrun]
    exact ⟨hkind.place, hkind.outline⟩

/-- Stores and lists an instruction with a result. -/
theorem Sound.define_add (hm : m.Sound) {type : Option Handle} (hkind : kind.BelongsTo s)
    (hlayout : kind.opcode.layout = .untyped ∧ type = none ∨
      kind.opcode.layout = .typed ∧ type.isSome) (hs : s ≠ .memoryModel)
    (htype : ∀ r ∈ type, m.Usable r) (hreferences : ∀ r ∈ kind.references, m.Usable r)
    (hrun : define type kind m = (h, m₁)) : m.Grows (s.add h m₁) ∧ (s.add h m₁).Usable h := by
  have hp := puts_define hrun
  have hop : (m₁.kindOf h).opcode = kind.opcode := by rw [kindOf, hp.inst_self]
  have he : m₁.Enlists h (s.add h m₁) := by
    refine enlists_add (.inl hs) ?_
    rw [hop]
    exact ⟨hkind.place, hkind.outline⟩
  have hadd := hm.add hp he (hkind.writable ?_) ?_
  · exact ⟨hadd.1, hadd.2 rfl⟩
  · obtain ⟨huntyped, hnone⟩ | ⟨htyped, hsome⟩ := hlayout
    · rw [huntyped]
      exact ⟨hnone, .inl rfl⟩
    · rw [htyped]
      exact .inl ⟨hsome, rfl⟩
  · intro r hr
    exact (Inst.mem_references.1 hr).elim (htype r) (hreferences r)

theorem Sound.intern (hm : m.Sound) {d : Description} (hd : d.Proper)
    (hkind : d.kind.BelongsTo .globals)
    (hlayout : d.kind.opcode.layout = .untyped ∧ d.type = none ∨
      d.kind.opcode.layout = .typed ∧ d.type.isSome)
    (htype : ∀ r ∈ d.type, m.Usable r) (hreferences : ∀ r ∈ d.kind.references, m.Usable r)
    (hrun : intern d m = (h, m')) : m.Grows m' ∧ m'.Usable h := by
  obtain ⟨hmem, rfl⟩ | ⟨m₁, hdefine, rfl⟩ := intern_cases hrun
  · exact ⟨hm.refl, (hm.interned d h hmem).1⟩
  · obtain ⟨hgrows, husable⟩ := hm.define_add hkind hlayout (by decide) htype hreferences hdefine
    have hinst : (Section.globals.add h m₁).inst h = ⟨d.type, some m.header.bound, d.kind⟩ :=
      (puts_define hdefine).inst_self
    have hgrows' : (Section.globals.add h m₁).Grows
        { Section.globals.add h m₁ with interned := m₁.interned ++ [(d, h)] } := by
      refine hgrows.sound.withInterned fun d' h' hmem => ?_
      obtain hmem | hmem := List.mem_append.1 hmem
      · exact hgrows.sound.interned d' h' hmem
      · obtain ⟨rfl, rfl⟩ := Prod.mk.inj (List.mem_singleton.1 hmem)
        refine ⟨husable, ?_⟩
        rw [hinst]
        exact hd _
    exact ⟨hgrows.trans hgrows', hgrows'.usable h husable⟩

/-! ## Changes in place -/

theorem Sound.setKind (hm : m.Sound) (hkind : kind.BelongsTo s)
    (hplain : kind.opcode.layout = .plain) (hs : s ≠ .globals)
    (hreferences : kind.references = []) (hop : (m.kindOf h).opcode = kind.opcode) :
    m.Grows (setKind h kind m).2 := by
  have hreplaces : Replaces (m.inst h) { m.inst h with kind } := by
    refine ⟨rfl, hop.symm, ?_, fun hi => hkind.writable ?_⟩
    · intro r hr
      obtain hr | hr := Inst.mem_references.1 hr
      · exact Inst.mem_references.2 (.inl hr)
      · rw [hreferences] at hr
        cases hr
    · have hlayout := hi.layout
      have hopcode : (m.inst h).opcode = kind.opcode := hop
      rw [Inst.HasLayout, hopcode, hplain] at hlayout
      rw [hplain]
      exact hlayout
  refine hm.change (UInt32.le_refl _) ?_ (fun _ => .inl) hm.sized ?_
  · intro g
    refine (inst_setKind m h g kind).symm ▸ ?_
    split
    · rename_i hand
      rw [← hand.1]
      exact hreplaces
    · exact .refl _
  · intro d g hg
    obtain ⟨husable, hd⟩ := hm.interned d g hg
    refine ⟨husable, ?_⟩
    have hne : h ≠ g := by
      rintro rfl
      have hglobals := Inst.globals_of_description? hd
      rw [Inst.opcode] at hglobals
      exact hs (hkind.place.symm.trans (hop ▸ hglobals))
    refine (congrArg Inst.description? (inst_setKind m h g kind)).trans ?_
    rw [if_neg fun hand => hne hand.1, hd]

/-! ## Edits -/

/-- Nothing that was there has been changed: there may be more annotations, globals and entry
points, and functions that are new. -/
structure Continues (m m' : Module) : Prop where
  version : m'.header.version = m.header.version
  generator : m'.header.generator = m.header.generator
  insts : ∀ h i, m.insts.get? h = some i → m'.insts.get? h = some i
  sections : ∀ s : Section, s ≠ .annotations → s ≠ .globals → s.handles m' = s.handles m
  annotations : m.annotations <+: m'.annotations
  globals : m.globals <+: m'.globals
  functions : ∃ fs, m'.functions = m.functions ++ fs ∧ ∀ f ∈ fs, m.insts.get? f.function = none
  entryPoints : m.entryPoints <+: m'.entryPoints

theorem Continues.refl (m : Module) : m.Continues m :=
  ⟨rfl, rfl, fun _ _ => id, fun _ _ _ => rfl, List.prefix_rfl, List.prefix_rfl,
    ⟨[], by simp, by simp⟩, List.prefix_rfl⟩

theorem Continues.trans {m'' : Module} (h₁ : m.Continues m') (h₂ : m'.Continues m'') :
    m.Continues m'' := by
  refine ⟨h₂.version.trans h₁.version, h₂.generator.trans h₁.generator,
    fun h i hi => h₂.insts h i (h₁.insts h i hi),
    fun s hs hs' => (h₂.sections s hs hs').trans (h₁.sections s hs hs'),
    h₁.annotations.trans h₂.annotations, h₁.globals.trans h₂.globals, ?_,
    h₁.entryPoints.trans h₂.entryPoints⟩
  obtain ⟨fs, heq, hfresh⟩ := h₁.functions
  obtain ⟨fs', heq', hfresh'⟩ := h₂.functions
  refine ⟨fs ++ fs', by rw [heq', heq, List.append_assoc], ?_⟩
  refine List.forall_mem_append.2 ⟨hfresh, fun f hf => ?_⟩
  cases hget : m.insts.get? f.function with
  | none => rfl
  | some i =>
      have hstored := h₁.insts _ i hget
      rw [hfresh' f hf] at hstored
      cases hstored

theorem Continues.inst_eq (hmm : m.Continues m') (hh : (m.insts.get? h).isSome) :
    m'.inst h = m.inst h := by
  obtain ⟨i, hi⟩ := Option.isSome_iff_exists.1 hh
  rw [inst_of_get? hi, inst_of_get? (hmm.insts h i hi)]

theorem Continues.kindOf_eq (hmm : m.Continues m') (hh : (m.insts.get? h).isSome) :
    m'.kindOf h = m.kindOf h := congrArg Inst.kind (hmm.inst_eq hh)

/-- What only tables of the module say is not part of what continues. -/
theorem Continues.of_tables (m : Module) (interned : List (Description × Handle))
    (distinct : List Handle) : m.Continues { m with interned, distinct } := by
  refine ⟨rfl, rfl, fun _ _ => id, fun s hs hs' => ?_, List.prefix_rfl, List.prefix_rfl,
    ⟨[], (List.append_nil _).symm, by simp⟩, List.prefix_rfl⟩
  cases s <;> rfl

/-! ### Names -/

theorem mem_functions_of_findFunction? {name : String} {f : FunctionDef}
    (hf : m.findFunction? name = some f) : f ∈ m.functions := by
  obtain ⟨target, -, hdef⟩ := List.exists_of_findSome?_eq_some hf
  exact List.mem_of_find?_eq_some hdef

theorem Continues.named_eq (hmm : m.Continues m')
    (hdebug : ∀ h ∈ m.debug, (m.insts.get? h).isSome)
    (name : String) : m'.named name = m.named name := by
  have hsame : m'.debug = m.debug := hmm.sections .debug (by decide) (by decide)
  rw [named, named, hsame]
  exact List.filterMap_congr fun h hh => by rw [hmm.kindOf_eq (hdebug h hh)]

theorem Continues.findNamed?_eq (hmm : m.Continues m')
    (hdebug : ∀ h ∈ m.debug, (m.insts.get? h).isSome) : m'.findNamed? = m.findNamed? :=
  funext fun name => congrArg List.head? (hmm.named_eq hdebug name)

theorem Continues.functionDef?_eq (hmm : m.Continues m') {target : Handle}
    (htarget : (m.insts.get? target).isSome) :
    m'.functionDef? target = m.functionDef? target := by
  obtain ⟨fs, hfs, hfresh⟩ := hmm.functions
  have hnone : fs.find? (·.function = target) = none := by
    refine List.find?_eq_none.2 fun f hf heq => ?_
    rw [← of_decide_eq_true heq, hfresh f hf] at htarget
    cases htarget
  rw [functionDef?, functionDef?, hfs, List.find?_append, hnone, Option.or_none]

theorem Continues.findFunction?_eq_of_stored (hmm : m.Continues m')
    (hdebug : ∀ h ∈ m.debug, (m.insts.get? h).isSome) {name : String}
    (hnamed : ∀ h ∈ m.named name, (m.insts.get? h).isSome) :
    m'.findFunction? name = m.findFunction? name := by
  rw [findFunction?, findFunction?, hmm.named_eq hdebug]
  generalize m.named name = targets at hnamed
  induction targets with
  | nil => rfl
  | cons target targets ih =>
      rw [List.forall_mem_cons] at hnamed
      rw [List.findSome?_cons, List.findSome?_cons, hmm.functionDef?_eq hnamed.1, ih hnamed.2]

theorem Extends.continues {notes : List (Kind Handle)} (hmm : m.Extends notes m')
    (hfunctions : ∃ fs, m'.functions = m.functions ++ fs ∧
      ∀ f ∈ fs, m.insts.get? f.function = none)
    (hentries : m.entryPoints <+: m'.entryPoints) : m.Continues m' := by
  obtain ⟨hs, hannotations, -, -⟩ := hmm.annotations
  refine ⟨?_, ?_, hmm.insts, ?_, hannotations ▸ List.prefix_append _ _, hmm.globals, hfunctions,
    hentries⟩
  all_goals obtain ⟨_, _, _, _, _, _, _, _, _, rfl⟩ := hmm.frame
  · rfl
  · rfl
  · intro s hs hs'
    cases s <;> first | rfl | exact absurd rfl hs | exact absurd rfl hs'

theorem Edits.continues {notes : List (Kind Handle)} (hmm : m.Edits notes m') : m.Continues m' :=
  hmm.toExtends.continues ⟨[], by simp [hmm.code.functions], by simp⟩
    (hmm.code.entryPoints ▸ List.prefix_rfl)

structure Edited (m₀ m : Module) : Prop where
  sound : m.Sound
  continues : m₀.Continues m
  code : m₀.SameCode m

theorem Sound.edited (hm : m.Sound) : m.Edited m := ⟨hm, .refl m, .refl m⟩

variable {m₀ : Module} {known : List Handle} {α : Type} {made : α → List Handle}

/-- An edit keeps modules sound if it lets every sound one grow. -/
theorem keeps_sound_of_grows {x : Edit α}
    (hx : ∀ m a m', x m = (a, m') → m.Sound → (∀ r ∈ known, m.Usable r) →
      m.Grows m' ∧ ∀ r ∈ made a, m'.Usable r) : Keeps Sound Usable known x made := by
  intro m hm hknown
  obtain ⟨hgrows, hmade⟩ := hx m _ _ rfl hm hknown
  refine ⟨hgrows.sound, fun r hr => ?_⟩
  exact (List.mem_append.1 hr).elim (hmade r) fun hr => hgrows.usable r (hknown r hr)

theorem keeps_of_grows {x : Edit α}
    (hx : ∀ m a m', x m = (a, m') → m.Sound → (∀ r ∈ known, m.Usable r) →
      m.Grows m' ∧ m.Continues m' ∧ m.SameCode m' ∧ ∀ r ∈ made a, m'.Usable r) :
    Keeps (Edited m₀) Usable known x made := by
  intro m hm hknown
  obtain ⟨hgrows, hcontinues, hcode, hmade⟩ := hx m _ _ rfl hm.sound hknown
  refine ⟨⟨hgrows.sound, hm.continues.trans hcontinues, hm.code.trans hcode⟩, fun r hr => ?_⟩
  exact (List.mem_append.1 hr).elim (hmade r) fun hr => hgrows.usable r (hknown r hr)

theorem keeps_annotate (hkind : kind.BelongsTo .annotations)
    (hplain : kind.opcode.layout = .plain) (hreferences : ∀ r ∈ kind.references, r ∈ known) :
    Keeps (Edited m₀) Usable known (annotate kind) fun _ => [] := by
  apply keeps_of_grows
  intro m h m' hrun hm hknown
  obtain ⟨m₁, hstored, rfl⟩ := annotate_cases hrun
  have hedits := annotate_edits hrun
  exact ⟨hm.append_add hkind hplain (.inl (by decide)) (fun r hr => hknown r (hreferences r hr))
    hstored, hedits.continues, hedits.code, by simp⟩

theorem keeps_intern {d : Description} (hd : d.Proper) (hkind : d.kind.BelongsTo .globals)
    (hlayout : d.kind.opcode.layout = .untyped ∧ d.type = none ∨
      d.kind.opcode.layout = .typed ∧ d.type.isSome)
    (hreferences : ∀ r ∈ d.type.toList ++ d.kind.references, r ∈ known) :
    Keeps (Edited m₀) Usable known (intern d) fun h => [h] := by
  apply keeps_of_grows
  intro m h m' hrun hm hknown
  rw [List.forall_mem_append] at hreferences
  obtain ⟨hgrows, husable⟩ := hm.intern hd hkind hlayout
    (fun r hr => hknown r (hreferences.1 r (Option.mem_toList.2 hr)))
    (fun r hr => hknown r (hreferences.2 r hr)) hrun
  obtain ⟨hedits, -⟩ := intern_edits hd hm.interns hrun
  exact ⟨hgrows, hedits.continues, hedits.code, List.forall_mem_singleton.2 husable⟩

theorem keeps_internType (hkind : kind.isType) (hreferences : ∀ r ∈ kind.references, r ∈ known) :
    Keeps (Edited m₀) Usable known (internType kind) fun h => [h] :=
  keeps_intern (Description.proper_type hkind) (Kind.belongsTo_of_isType hkind)
    (.inl ⟨(Kind.layout_of_isType hkind).1, rfl⟩) hreferences

theorem keeps_internConstant {type : Handle} (hkind : kind.isConstant) (htype : type ∈ known)
    (hreferences : ∀ r ∈ kind.references, r ∈ known) :
    Keeps (Edited m₀) Usable known (internConstant type kind) fun h => [h] :=
  keeps_intern (Description.proper_constant hkind) (Kind.belongsTo_of_isConstant hkind)
    (.inr ⟨(Kind.layout_of_isConstant hkind).1, rfl⟩) (by simpa [htype] using hreferences)

theorem keeps_decorate {target : Handle} {decoration : Decoration} {words : List Word}
    (htarget : target ∈ known) :
    Keeps (Edited m₀) Usable known (decorate target decoration words) fun _ => [] :=
  keeps_annotate (Kind.belongsTo_decorate ..) (Form.layout_opcode .decorate)
    (by simpa [Kind.references, Kind.operands, List.filterMap_cons] using htarget)

theorem keeps_memberDecorate {target : Handle} {member : Word} {decoration : Decoration}
    {words : List Word} (htarget : target ∈ known) :
    Keeps (Edited m₀) Usable known (memberDecorate target member decoration words)
      fun _ => [] :=
  keeps_annotate (Kind.belongsTo_memberDecorate ..) (Form.layout_opcode .memberDecorate)
    (by simpa [Kind.references, Kind.operands, List.filterMap_cons] using htarget)

theorem keeps_addGlobalVar {pointer : Handle}
    {storage : StorageClass} (hpointer : pointer ∈ known) :
    Keeps (Edited m₀) Usable known (addGlobalVar pointer storage) fun h => [h] := by
  apply keeps_of_grows
  intro m h m' hrun hm hknown
  have hedits := (addGlobalVar_edits hrun).1
  obtain ⟨h', m₁, hstored, hrun⟩ := edit_bind.1 hrun
  obtain ⟨_, m₂, hdeclare, hrun⟩ := edit_bind.1 hrun
  obtain ⟨rfl, rfl⟩ := edit_pure.1 hrun
  obtain rfl : m₂ = Section.globals.add h' m₁ := (Prod.mk.inj hdeclare).2.symm
  obtain ⟨hgrows, husable⟩ := hm.define_add (Kind.belongsTo_var storage)
    (.inr ⟨Form.layout_opcode .var, rfl⟩) (by decide)
    (by simpa using hknown pointer hpointer) (by simp [Kind.references, Kind.operands]) hstored
  exact ⟨hgrows, hedits.continues, hedits.code, List.forall_mem_singleton.2 husable⟩

theorem keeps_freshStructType {members : List Handle} (hmembers : ∀ r ∈ members, r ∈ known) :
    Keeps (Edited m₀) Usable known (freshStructType members) fun h => [h] := by
  apply keeps_of_grows
  intro m h m' hrun hm hknown
  obtain ⟨h', m₁, hstored, hrun⟩ := edit_bind.1 hrun
  obtain ⟨_, m₂, hdeclare, hrun⟩ := edit_bind.1 hrun
  obtain ⟨_, m₃, hdistinct, hrun⟩ := edit_bind.1 hrun
  obtain ⟨rfl, rfl⟩ := edit_pure.1 hrun
  obtain rfl : m₂ = Section.globals.add h' m₁ := (Prod.mk.inj hdeclare).2.symm
  obtain rfl := (Prod.mk.inj hdistinct).2.symm
  obtain ⟨hgrows, husable⟩ :=
    hm.define_add (Kind.belongsTo_of_isType (k := .typeStruct members) rfl)
    (.inl ⟨Form.layout_opcode .typeStruct, rfl⟩) (by decide) (by simp)
    (by simpa [Kind.references, Kind.operands] using fun r hr => hknown r (hmembers r hr))
    hstored
  have hgrows' : (Section.globals.add h' m₁).Grows
      { Section.globals.add h' m₁ with distinct := h' :: m₁.distinct } :=
    hgrows.sound.withInterned hgrows.sound.interned
  have hedits := (define_edits hstored).1.trans (declare_edits h' m₁).1
  exact ⟨hgrows.trans hgrows', hedits.continues.trans (.of_tables _ _ _),
    ⟨hedits.code.functions, hedits.code.entryPoints⟩,
    List.forall_mem_singleton.2 (hgrows'.usable h' husable)⟩

end Module

end KernelGrid
