import KernelGrid.Kernel.Buffer
import KernelGrid.Proofs.Module.Annotations
import KernelGrid.Proofs.Module.Validity

/-!
# Variables of entry points

A buffer is a new variable with a block type of its own element, bound to a slot.  The variable
of a built-in value may be there already.
-/

namespace KernelGrid

def Kind.statesBuiltIn : Kind Handle → Bool
  | decorate _ d _ => d = .builtIn
  | _ => false

def Kind.isSlot : Kind Handle → Bool
  | decorate _ d _ => d = .descriptorSet || d = .binding
  | _ => false

namespace Module

variable {m m' : Module} {var element : Handle} {binding : Word}

/-! ## Buffers -/

def slotNotes (var : Handle) (binding : Word) : List (Kind Handle) :=
  [.decorate var .descriptorSet [0], .decorate var .binding [binding]]

theorem filter_isSlot_slotNotes (var : Handle) (binding : Word) :
    (slotNotes var binding).filter Kind.isSlot = slotNotes var binding := by
  simp [slotNotes, Kind.isSlot]

def slotsFrom (first : Word) (n : Nat) (vars : List Handle) : List (Handle × Word) :=
  (vars.zipIdx n).map fun (var, i) => (var, first + i.toUInt32)

def bindingNotes (slots : List (Handle × Word)) : List (Kind Handle) :=
  slots.flatMap fun slot => slotNotes slot.1 slot.2

theorem filter_isSlot_bindingNotes (slots : List (Handle × Word)) :
    (bindingNotes slots).filter Kind.isSlot = bindingNotes slots := by
  refine List.filter_eq_self.2 fun k hk => ?_
  obtain ⟨slot, -, hk⟩ := List.mem_flatMap.1 hk
  rw [← filter_isSlot_slotNotes] at hk
  exact (List.mem_filter.1 hk).2

theorem bindSlot_declares {u : Unit} (hrun : bindSlot var binding m = (u, m')) :
    m.Declares (slotNotes var binding) [] m' := by
  obtain ⟨_, m₁, hset, hrun⟩ := edit_bind.1 hrun
  obtain ⟨_, m₂, hbinding, hrun⟩ := edit_bind.1 hrun
  obtain ⟨-, rfl⟩ := edit_pure.1 hrun
  exact (annotate_declares hset).trans (annotate_declares hbinding)

structure IsBlockVar (m : Module) (var block : Handle) : Prop where
  stored : ∃ pointer, m.Results var pointer (.var .uniform none) ∧
    m.Describes pointer ⟨none, .typePointer .uniform block⟩
  declared : var ∈ m.globals

theorem IsBlockVar.pointeeStruct?_eq {block : Handle} {members : List Handle}
    (hvar : m.IsBlockVar var block) (hblock : m.Describes block ⟨none, .typeStruct members⟩) :
    m.pointeeStruct? var = some (block, members) := by
  obtain ⟨pointer, ⟨id, hstored⟩, hpointer⟩ := hvar.stored
  exact pointeeStruct?_eq_some.2 ⟨pointer, .uniform, by rw [typeOf?, inst_of_get? hstored],
    hpointer.kindOf_eq, hblock.kindOf_eq⟩

theorem addBlockVar_declares {block : Handle} (hm : m.Interns)
    (hrun : addBlockVar block binding m = (var, m')) :
    m.Declares (slotNotes var binding) [var] m' ∧ m'.IsBlockVar var block ∧
      m.insts.get? var = none := by
  obtain ⟨pointer, m₁, hpointer, hrun⟩ := edit_bind.1 hrun
  obtain ⟨hedits₁, hdescribes⟩ := intern_declares (Description.proper_type rfl) rfl hm hpointer
  obtain ⟨v, m₂, hvar, hrun⟩ := edit_bind.1 hrun
  obtain ⟨hedits₂, hresults, hmem, hfresh⟩ := addGlobalVar_edits hvar
  obtain ⟨_, m₃, hslot, hrun⟩ := edit_bind.1 hrun
  obtain ⟨rfl, rfl⟩ := edit_pure.1 hrun
  have hedits₃ := bindSlot_declares hslot
  exact ⟨(hedits₁.trans (addGlobalVar_declares hvar)).trans hedits₃,
    ⟨⟨pointer, hedits₃.results hresults, hedits₃.describes (hedits₂.describes hdescribes)⟩,
      hedits₃.globals.subset hmem⟩, hedits₁.get?_eq_none hfresh⟩

/-- A variable for an array of elements, with the decorations that it needs among `notes`. -/
structure IsBuffer (m : Module) (notes : List (Kind Handle)) (var element : Handle)
    (binding : Word) : Prop where
  block : ∃ block array stride, m.IsBlockVar var block ∧
    m.Describes block ⟨none, .typeStruct [array]⟩ ∧
    m.Describes array ⟨none, .typeRuntimeArray element⟩ ∧
    .decorate array .arrayStride [stride] ∈ notes ∧
    .decorate block .bufferBlock [] ∈ notes ∧ .memberDecorate block 0 .offset [0] ∈ notes
  slot : notes.filter (Kind.decorates var) = slotNotes var binding

theorem Extends.isBlockVar {notes : List (Kind Handle)} {block : Handle}
    (hmm : m.Extends notes m') (hvar : m.IsBlockVar var block) : m'.IsBlockVar var block := by
  obtain ⟨pointer, hstored, hpointer⟩ := hvar.stored
  exact ⟨⟨pointer, hmm.results hstored, hmm.describes hpointer⟩,
    hmm.globals.subset hvar.declared⟩

namespace IsBuffer

variable {notes notes' : List (Kind Handle)}

theorem isVar (hvar : m.IsBuffer notes var element binding) :
    (m.insts.get? var).isSome ∧ (m.kindOf var).isVar := by
  obtain ⟨block, array, stride, hblock, -⟩ := hvar.block
  obtain ⟨pointer, hstored, -⟩ := hblock.stored
  refine ⟨hstored.isSome, ?_⟩
  rw [hstored.kindOf_eq]
  rfl

/-- A buffer is not decorated once more. -/
theorem adds (hvar : m.IsBuffer notes var element binding) (hmm : m.Adds notes' m') :
    m'.IsBuffer (notes ++ notes') var element binding := by
  obtain ⟨hstored, hkind⟩ := hvar.isVar
  obtain ⟨block, array, stride, hblock, hstruct, harray, hstride, hbuffer, hoffset⟩ := hvar.block
  refine ⟨⟨block, array, stride, hmm.isBlockVar hblock, hmm.describes hstruct,
    hmm.describes harray, ?_, ?_, ?_⟩, ?_⟩
  · exact List.mem_append_left _ hstride
  · exact List.mem_append_left _ hbuffer
  · exact List.mem_append_left _ hoffset
  · rw [List.filter_append, hmm.filter_of_isVar hstored hkind, List.append_nil, hvar.slot]

theorem after {m₀ m₁ : Module} (hvar : m.IsBuffer notes var element binding)
    (hmm : m₀.Adds notes' m₁) (hfresh : m₁.insts.get? var = none) :
    m.IsBuffer (notes' ++ notes) var element binding := by
  obtain ⟨block, array, stride, hblock, hstruct, harray, hstride, hbuffer, hoffset⟩ := hvar.block
  refine ⟨⟨block, array, stride, hblock, hstruct, harray, ?_, ?_, ?_⟩, ?_⟩
  · exact List.mem_append_right _ hstride
  · exact List.mem_append_right _ hbuffer
  · exact List.mem_append_right _ hoffset
  · rw [List.filter_append, hmm.filter_of_none hfresh, List.nil_append, hvar.slot]

end IsBuffer

def bufferNotes (array block var : Handle) (stride binding : Word) : List (Kind Handle) :=
  .decorate array .arrayStride [stride] :: .decorate block .bufferBlock [] ::
    .memberDecorate block 0 .offset [0] :: slotNotes var binding

theorem addBuffer_declares (hm : m.Interns) (hrun : Runs (addBuffer element binding) m var m') :
    ∃ array block stride, m.byteSize element = .ok stride ∧
      m.Declares (bufferNotes array block var stride binding) [var] m' ∧
      m'.IsBlockVar var block ∧ m'.Describes block ⟨none, .typeStruct [array]⟩ ∧
      m'.Describes array ⟨none, .typeRuntimeArray element⟩ ∧ m.insts.get? var = none := by
  unfold addBuffer at hrun
  obtain ⟨_, _, hget, hrun⟩ := runs_bind.1 hrun
  obtain ⟨rfl, rfl⟩ := runs_get.1 hget
  obtain ⟨stride, _, hstride, hrun⟩ := runs_bind.1 hrun
  obtain ⟨hsize, rfl⟩ := runs_ofExcept.1 hstride
  obtain ⟨array, m₁, harray, hrun⟩ := runs_bind.1 hrun
  obtain ⟨hedits₁, harray⟩ :=
    intern_declares (Description.proper_type rfl) rfl hm (runs_lift.1 harray)
  obtain ⟨_, m₂, hnote, hrun⟩ := runs_bind.1 hrun
  have hedits₂ := annotate_declares (runs_lift.1 hnote)
  obtain ⟨block, m₃, hblock, hrun⟩ := runs_bind.1 hrun
  obtain ⟨hedits₃, hblock⟩ := intern_declares (Description.proper_type rfl) rfl
    (hedits₂.interns (hedits₁.interns hm)) (runs_lift.1 hblock)
  obtain ⟨_, m₄, hnote, hrun⟩ := runs_bind.1 hrun
  have hedits₄ := annotate_declares (runs_lift.1 hnote)
  obtain ⟨_, m₅, hnote, hrun⟩ := runs_bind.1 hrun
  have hedits₅ := annotate_declares (runs_lift.1 hnote)
  have hedits := (((hedits₁.trans hedits₂).trans hedits₃).trans hedits₄).trans hedits₅
  obtain ⟨hedits₆, hvar, hfresh⟩ := addBlockVar_declares (hedits.interns hm) (runs_lift.1 hrun)
  refine ⟨array, block, stride, hsize, hedits.trans hedits₆, hvar, ?_, ?_,
    hedits.get?_eq_none hfresh⟩
  · exact hedits₆.describes (hedits₅.describes (hedits₄.describes hblock))
  · exact hedits₆.describes (hedits₅.describes (hedits₄.describes (hedits₃.describes
      (hedits₂.describes harray))))

theorem addBuffer_adds (hm : m.Interns) (hrun : Runs (addBuffer element binding) m var m') :
    ∃ notes, m.Adds notes m' ∧ m.SameCode m' ∧ m.insts.get? var = none ∧
      m'.IsBuffer notes var element binding ∧ notes.filter Kind.isSlot = slotNotes var binding ∧
      ∀ k ∈ notes, k.statesBuiltIn = false := by
  obtain ⟨array, block, stride, -, hedits, hvar, hblock, harray, hfresh⟩ :=
    addBuffer_declares hm hrun
  obtain ⟨pointer, hstored, -⟩ := hvar.stored
  have htype {h : Handle} {kind : Kind Handle} (hh : m'.Describes h ⟨none, kind⟩)
      (hkind : kind.isVar = false) : (m'.insts.get? h).isSome ∧ (m'.kindOf h).isVar = false :=
    ⟨hh.isSome, by rw [hh.kindOf_eq]; exact hkind⟩
  obtain ⟨harrayGet, harrayVar⟩ := htype harray rfl
  obtain ⟨hblockGet, hblockVar⟩ := htype hblock rfl
  have hvarKind : (m'.kindOf var).isVar := by
    rw [hstored.kindOf_eq]
    rfl
  have hne {h : Handle} (hh : (m'.kindOf h).isVar = false) : h ≠ var := by
    rintro rfl
    rw [hvarKind] at hh
    cases hh
  refine ⟨_, ⟨hedits.toExtends, ?_⟩, hedits.code, hfresh, ⟨⟨block, array, stride, hvar, hblock,
    harray, by simp [bufferNotes], by simp [bufferNotes], by simp [bufferNotes]⟩, ?_⟩, ?_, ?_⟩
  · simp [bufferNotes, slotNotes, Kind.decorates, harrayGet, harrayVar, hblockGet, hblockVar,
      hstored.isSome, hfresh]
  · simp [bufferNotes, slotNotes, Kind.decorates, hne harrayVar, hne hblockVar]
  · exact filter_isSlot_slotNotes var binding
  · simp only [bufferNotes, slotNotes, List.forall_mem_cons, Kind.statesBuiltIn]
    decide

/-- A buffer that cannot be declared leaves everything as it was. -/
theorem addBuffer_cases (element : Handle) (binding : Word) (m : Module) :
    (∃ e, addBuffer element binding m = (.error e, m)) ∨
      ∃ var m', Runs (addBuffer element binding) m var m' := by
  cases hstride : m.byteSize element with
  | error e =>
      refine .inl ⟨e, ?_⟩
      rw [addBuffer, get_bind_apply, hstride]
      rfl
  | ok stride =>
      have hok : ∃ var, (addBuffer element binding m).1 = .ok var := by
        rw [addBuffer, get_bind_apply, hstride]
        exact ⟨_, rfl⟩
      exact .inr (hok.imp fun var hvar => ⟨_, runs_of_fst_eq hvar⟩)

/-! ## Built-in values -/

/-- The values that decorations declare a variable to hold. -/
def builtIns (m : Module) (var : Handle) : List Word :=
  (m.decorations var .builtIn).filterMap List.head?

def HoldsOne (m : Module) : Prop :=
  ∀ var, (m.kindOf var).isVar → ∀ a ∈ m.builtIns var, ∀ b ∈ m.builtIns var, a = b

/-- Whether the notes about built-in values are about different variables and give one value
each. -/
def DeclareOnce (notes : List (Kind Handle)) : Prop :=
  ∃ vars : List (Handle × Word),
    notes.filter Kind.statesBuiltIn =
      vars.map (fun (var, builtIn) => .decorate var .builtIn [builtIn]) ∧
    (vars.map Prod.fst).Nodup

structure IsBuiltInVar (m : Module) (var : Handle) (builtIn : Word) : Prop where
  isVar : (m.kindOf var).isVar
  declared : builtIn ∈ m.builtIns var

theorem mem_builtIns {builtIn : Word} : builtIn ∈ m.builtIns var ↔
    ∃ h ∈ m.annotations, ∃ operands, m.kindOf h = .decorate var .builtIn operands ∧
      operands.head? = some builtIn := by
  unfold builtIns decorations
  simp only [List.mem_filterMap]
  constructor
  · rintro ⟨operands, ⟨h, hh, hkind⟩, hhead⟩
    split at hkind
    next t d os heq =>
      split at hkind
      next hcond =>
        obtain ⟨rfl, rfl⟩ := hcond
        obtain rfl := Option.some.inj hkind
        exact ⟨h, hh, os, heq, hhead⟩
      · cases hkind
    · cases hkind
  · rintro ⟨h, hh, operands, hkind, hhead⟩
    exact ⟨operands, ⟨h, hh, by simp [hkind]⟩, hhead⟩

theorem isSome_of_isVar (hvar : (m.kindOf var).isVar) : (m.insts.get? var).isSome := by
  cases hget : m.insts.get? var with
  | some i => rfl
  | none =>
      rw [kindOf, inst, hget] at hvar
      cases hvar

theorem isSome_of_decorate {h target : Handle} {d : Decoration} {operands : List Word}
    (hh : m.kindOf h = .decorate target d operands) : (m.insts.get? h).isSome := by
  cases hget : m.insts.get? h with
  | some i => rfl
  | none =>
      rw [kindOf, inst, hget] at hh
      cases hh

theorem Extends.isBuiltInVar {notes : List (Kind Handle)} {builtIn : Word}
    (hmm : m.Extends notes m') (hvar : m.IsBuiltInVar var builtIn) :
    m'.IsBuiltInVar var builtIn := by
  obtain ⟨hs, heq, -, -⟩ := hmm.annotations
  obtain ⟨h, hh, operands, hkind, hhead⟩ := mem_builtIns.1 hvar.declared
  refine ⟨?_, mem_builtIns.2 ⟨h, ?_, operands, ?_, hhead⟩⟩
  · rw [hmm.kindOf_eq (isSome_of_isVar hvar.isVar)]
    exact hvar.isVar
  · rw [heq]
    exact List.mem_append_left _ hh
  · rw [hmm.kindOf_eq (isSome_of_decorate hkind), hkind]

theorem isBuiltInVar_of_findBuiltIn? {builtIn : Word}
    (hfind : m.findBuiltIn? builtIn = some var) : m.IsBuiltInVar var builtIn := by
  obtain ⟨h, hh, ⟨words, hkind⟩, hvar⟩ := exists_note_of_findBuiltIn? hfind
  exact ⟨hvar, mem_builtIns.2 ⟨h, hh, _, hkind, rfl⟩⟩

/-- What asking for the variable of a built-in value does: it is found, or a new one is
declared. -/
theorem builtInVar_adds {builtIn : Word} (hm : m.Interns)
    (hrun : builtInVar builtIn m = (var, m')) :
    ∃ notes, m.Adds notes m' ∧ m.Declares notes [] m' ∧ m'.IsBuiltInVar var builtIn ∧
      (notes = [] ∨ m'.kindOf var = .var .input none) ∧
      (notes = [] ∨ m.insts.get? var = none ∧ notes = [.decorate var .builtIn [builtIn]]) := by
  obtain ⟨_, _, hget, hrun⟩ := edit_bind.1 hrun
  obtain ⟨rfl, rfl⟩ : m = _ ∧ m = _ := Prod.mk.inj hget
  cases hfind : m.findBuiltIn? builtIn with
  | some h =>
      simp only [hfind] at hrun
      obtain ⟨rfl, rfl⟩ := edit_pure.1 hrun
      exact ⟨[], .refl m, .of_globals_eq (.refl m) rfl, isBuiltInVar_of_findBuiltIn? hfind,
        .inl rfl, .inl rfl⟩
  | none =>
      simp only [hfind] at hrun
      obtain ⟨word, m₁, hword, hrun⟩ := edit_bind.1 hrun
      obtain ⟨hedits₁, -⟩ := intern_declares (Description.proper_type rfl) rfl hm hword
      obtain ⟨triple, m₂, htriple, hrun⟩ := edit_bind.1 hrun
      have hm₁ := hedits₁.interns hm
      obtain ⟨hedits₂, -⟩ := intern_declares (Description.proper_type rfl) rfl hm₁ htriple
      obtain ⟨pointer, m₃, hpointer, hrun⟩ := edit_bind.1 hrun
      have hm₂ := hedits₂.interns hm₁
      obtain ⟨hedits₃, -⟩ := intern_declares (Description.proper_type rfl) rfl hm₂ hpointer
      obtain ⟨v, m₄, hvar, hrun⟩ := edit_bind.1 hrun
      obtain ⟨-, hresults, -, hfresh⟩ := addGlobalVar_edits hvar
      obtain ⟨_, m₅, hnote, hrun⟩ := edit_bind.1 hrun
      obtain ⟨rfl, rfl⟩ := edit_pure.1 hrun
      have hedits₅ := annotate_declares hnote
      have hedits := (hedits₁.trans hedits₂).trans hedits₃
      have hall := (hedits.trans (addGlobalVar_declares hvar)).trans hedits₅
      have hresults' := hedits₅.results hresults
      have hfresh' := hedits.get?_eq_none hfresh
      refine ⟨_, ⟨hall.toExtends, ?_⟩, hall, ⟨?_, ?_⟩, .inr hresults'.kindOf_eq,
        .inr ⟨hfresh', rfl⟩⟩
      · simp [Kind.decorates, hresults'.isSome, hfresh']
      · rw [hresults'.kindOf_eq]
        rfl
      · obtain ⟨hs, heq, -, hnotes⟩ := hedits₅.annotations
        obtain ⟨h, rfl, hkind⟩ := List.map_eq_singleton_iff.1 hnotes
        refine mem_builtIns.2 ⟨h, by rw [heq]; simp, [builtIn], ?_, rfl⟩
        rw [kindOf, inst_of_get? hkind]
        rfl

theorem declareOnce_append {v w : Handle} {a b : Word} {fresh fresh' : Prop}
    {notes notes' : List (Kind Handle)}
    (hv : notes = [] ∨ fresh ∧ notes = [.decorate v .builtIn [a]])
    (hw : notes' = [] ∨ fresh' ∧ notes' = [.decorate w .builtIn [b]]) (hne : fresh' → w ≠ v) :
    DeclareOnce (notes ++ notes') := by
  obtain rfl | ⟨-, rfl⟩ := hv
  · obtain rfl | ⟨-, rfl⟩ := hw
    · exact ⟨[], rfl, .nil⟩
    · exact ⟨[(w, b)], rfl, List.pairwise_singleton _ _⟩
  · obtain rfl | ⟨hfresh, rfl⟩ := hw
    · exact ⟨[(v, a)], rfl, List.pairwise_singleton _ _⟩
    · refine ⟨[(v, a), (w, b)], rfl, ?_⟩
      simpa using (hne hfresh).symm

theorem DeclareOnce.append {notes notes' : List (Kind Handle)} (hnotes : DeclareOnce notes)
    (hnone : ∀ k ∈ notes', k.statesBuiltIn = false) : DeclareOnce (notes ++ notes') := by
  obtain ⟨vars, hfilter, hnodup⟩ := hnotes
  refine ⟨vars, ?_, hnodup⟩
  rw [List.filter_append, hfilter, List.filter_eq_nil_iff.2 (by simpa using hnone),
    List.append_nil]

end Module

end KernelGrid
