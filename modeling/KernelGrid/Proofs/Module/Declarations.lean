import KernelGrid.Proofs.Module.Annotations
import KernelGrid.Proofs.Module.Editing

/-!
# The order of declarations

Declarations mention what stands in front of them, and code mentions declarations, functions
and what it has computed before.
-/

namespace KernelGrid

@[simp] theorem Kind.isDeclaration_map {ρ σ : Type} (f : ρ → σ) (k : Kind ρ) :
    (k.map f).isDeclaration = k.isDeclaration := by
  cases k
  case var storage initializer => cases initializer <;> rfl
  all_goals rfl

@[simp] theorem Kind.isVar_map {ρ σ : Type} (f : ρ → σ) (k : Kind ρ) :
    (k.map f).isVar = k.isVar := by
  cases k
  case var storage initializer => cases initializer <;> rfl
  all_goals rfl

def FunctionDef.body (f : FunctionDef) : List Handle := f.blocks.flatMap Block.body

@[simp] theorem FunctionDef.body_single (entry label : Handle) (body : List Handle) :
    FunctionDef.body ⟨entry, [], [⟨label, body⟩]⟩ = body := by
  simp [FunctionDef.body]

/-- Code is what does not belong to the outline. -/
theorem FunctionDef.Shaped.body_eq {op : Handle → Opcode} {f : FunctionDef} (hf : f.Shaped op) :
    f.body = f.handles.filter fun h => op h ∉ outlineOpcodes := by
  have hheader : (f.function :: f.parameters).filter (fun h => op h ∉ outlineOpcodes) = [] := by
    rw [List.filter_eq_nil_iff]
    intro h hh
    obtain rfl | hh := List.mem_cons.1 hh
    · simp [hf.function, outlineOpcodes]
    · simp [hf.parameters h hh, outlineOpcodes]
  rw [handles, List.filter_append, hheader, List.nil_append, List.filter_flatMap]
  refine List.flatMap_congr fun b hb => ?_
  rw [List.filter_cons_of_neg (by simp [hf.labels b hb, outlineOpcodes])]
  exact (List.filter_eq_self.2 fun h hh => by simpa using hf.bodies b hb h hh).symm

def FunctionDef.Heads (fs : List FunctionDef) (h : Handle) : Prop := ∃ f ∈ fs, f.function = h

namespace Module

variable {m m' : Module} {h r : Handle} {f : FunctionDef} {notes : List (Kind Handle)}

/-- Whether a declaration may mention a handle behind these: it is one of them, or a pointer
type that one of them announces. -/
def Announced (m : Module) (before : List Handle) (r : Handle) : Prop :=
  r ∈ before ∨ (∃ storage pointee, m.kindOf r = .typePointer storage pointee) ∧
    ∃ g ∈ before, ∃ storage, m.kindOf g = .typeForwardPointer r storage

def Ordered (m : Module) : Prop := ∀ i h, m.globals[i]? = some h → (m.kindOf h).isDeclaration →
  ∀ r ∈ (m.inst h).references, m.Announced (m.globals.take i) r

instance (k : Kind Handle) : Decidable (∃ storage pointee, k = .typePointer storage pointee) :=
  decidable_of_iff (k matches .typePointer _ _) (by cases k <;> simp)

instance (k : Kind Handle) (r : Handle) :
    Decidable (∃ storage, k = .typeForwardPointer r storage) :=
  decidable_of_iff (∃ storage ∈ k.storage?, k = .typeForwardPointer r storage)
    (by cases k <;> simp [Kind.storage?])

instance (m : Module) (before : List Handle) (r : Handle) : Decidable (m.Announced before r) :=
  inferInstanceAs (Decidable (_ ∨ _ ∧ _))

instance (m : Module) : Decidable m.Ordered :=
  decidable_of_iff (∀ i < m.globals.length, ∀ h ∈ m.globals[i]?, (m.kindOf h).isDeclaration →
      ∀ r ∈ (m.inst h).references, m.Announced (m.globals.take i) r)
    ⟨fun hm i h hget => hm i (List.getElem?_eq_some_iff.1 hget).1 h hget,
      fun hm i _ h hget => hm i h hget⟩

/-- Whether a function mentions only declarations, functions and what stands in front of it in
its own code; outside its code, only declarations. -/
structure Scoped (m : Module) (f : FunctionDef) : Prop where
  outline : ∀ h ∈ f.handles, h ∈ f.body ∨ ∀ r ∈ (m.inst h).references, r ∈ m.globals
  body : ∀ i h, f.body[i]? = some h → ∀ r ∈ (m.inst h).references,
    r ∈ m.globals ∨ FunctionDef.Heads m.functions r ∨ r ∈ f.body.take i

/-- Whether declarations are in order, and those that can be found again are in the globals
section. -/
structure Declared (m : Module) : Prop where
  ordered : m.Ordered
  interned : ∀ d h, (d, h) ∈ m.interned → h ∈ m.globals
  builtIns : ∀ var words, .decorate var .builtIn words ∈ m.notes → (m.kindOf var).isVar →
    var ∈ m.globals

/-! ## Changes -/

theorem Announced.extends {before before' : List Handle} (hr : m.Announced before r)
    (hm : m.Sound) (hmm : m.Extends notes m') (hglobals : before ⊆ m.globals)
    (hbefore : before ⊆ before') (husable : m.Usable r) : m'.Announced before' r := by
  obtain hr | ⟨⟨storage, pointee, hpointer⟩, g, hg, storage', hforward⟩ := hr
  · exact .inl (hbefore hr)
  · have hstored := hm.stored (mem_listed.2 (.inl ⟨.globals, hglobals hg⟩))
    refine .inr ⟨⟨storage, pointee, ?_⟩, g, hbefore hg, storage', ?_⟩
    · rw [hmm.kindOf_eq husable.stored, hpointer]
    · rw [hmm.kindOf_eq hstored, hforward]

theorem Ordered.extends (hm : m.Ordered) (hsound : m.Sound) (hmm : m.Extends notes m')
    {hs : List Handle} (hglobals : m'.globals = m.globals ++ hs)
    (hnew : ∀ h ∈ hs, ∀ r ∈ (m'.inst h).references, r ∈ m.globals) : m'.Ordered := by
  intro i h hget hdeclares r hr
  rw [hglobals] at hget ⊢
  by_cases hi : i < m.globals.length
  · rw [List.getElem?_append_left hi] at hget
    have hstored := hsound.stored (mem_listed.2 (.inl ⟨.globals, List.mem_of_getElem? hget⟩))
    rw [hmm.kindOf_eq hstored] at hdeclares
    rw [hmm.inst_eq hstored] at hr
    rw [List.take_append_of_le_length hi.le]
    exact (hm i h hget hdeclares r hr).extends hsound hmm (List.take_subset _ _)
      (List.Subset.refl _) (hsound.references h r hr)
  · rw [List.getElem?_append_right (Nat.le_of_not_lt hi)] at hget
    refine .inl ?_
    rw [List.take_append, List.take_of_length_le (Nat.le_of_not_lt hi)]
    exact List.mem_append_left _ (hnew h (List.mem_of_getElem? hget) r hr)

theorem Declared.extends (hm : m.Declared) (hsound : m.Sound) (hmm : m.Extends notes m')
    {hs : List Handle} (hglobals : m'.globals = m.globals ++ hs)
    (hnew : ∀ h ∈ hs, ∀ r ∈ (m'.inst h).references, r ∈ m.globals)
    (hinterned : ∀ d h, (d, h) ∈ m'.interned → (d, h) ∈ m.interned ∨ h ∈ hs)
    (hbuiltIns : ∀ var words, .decorate var .builtIn words ∈ notes → var ∈ m.globals) :
    m'.Declared := by
  refine ⟨hm.ordered.extends hsound hmm hglobals hnew, fun d h hh => ?_,
    fun var words hmem hvar => ?_⟩
  · rw [hglobals, List.mem_append]
    exact (hinterned d h hh).imp_left (hm.interned d h)
  · rw [hglobals, List.mem_append]
    rw [hmm.notes_eq fun h hh => hsound.stored (mem_listed.2 (.inl ⟨.annotations, hh⟩)),
      List.mem_append] at hmem
    refine .inl (hmem.elim (fun hmem => hm.builtIns var words hmem ?_) (hbuiltIns var words))
    obtain ⟨g, -, hkind⟩ := List.mem_map.1 hmem
    have husable : m.Usable var := hsound.references g var (Inst.mem_references.2 (.inr (by
      change var ∈ (m.kindOf g).references
      simp [hkind, Kind.references, Kind.operands, List.filterMap_cons])))
    rwa [hmm.kindOf_eq husable.stored] at hvar

theorem Declared.of_globals_eq (hm : m.Declared) (hsound : m.Sound) (hmm : m.Extends notes m')
    (hglobals : m'.globals = m.globals) (hinterned : m'.interned = m.interned)
    (hbuiltIns : ∀ var words, .decorate var .builtIn words ∈ notes → var ∈ m.globals) :
    m'.Declared := by
  have hnone : m'.globals = m.globals ++ [] := by rw [hglobals, List.append_nil]
  exact hm.extends hsound hmm hnone (by simp) (fun d h hh => .inl (hinterned ▸ hh)) hbuiltIns

theorem Declared.annotates (hm : m.Declared) (hsound : m.Sound) (hmm : m.Annotates notes m')
    (hbuiltIns : ∀ var words, .decorate var .builtIn words ∈ notes → var ∈ m.globals) :
    m'.Declared :=
  hm.of_globals_eq hsound hmm.toExtends hmm.globals_eq hmm.interned_eq hbuiltIns

/-- What is declared behind everything that it mentions is in order. -/
theorem Declared.declare (hm : m.Declared) (hsound : m.Sound) {type : Option Handle}
    {kind : Kind Handle} {m₁ : Module} (hdefine : define type kind m = (h, m₁))
    (htype : ∀ t ∈ type, t ∈ m.globals) (hreferences : ∀ r ∈ kind.references, r ∈ m.globals) :
    (Module.declare h m₁).2.Declared ∧ h ∈ (Module.declare h m₁).2.globals := by
  obtain ⟨hedits, ⟨id, hget⟩, -⟩ := define_edits hdefine
  obtain ⟨hedits', hmem⟩ := declare_edits h m₁
  obtain ⟨hglobals, hinterned⟩ := define_globals hdefine
  have hinst : (Module.declare h m₁).2.inst h = ⟨type, some id, kind⟩ :=
    inst_of_get? (show (Module.declare h m₁).2.insts.get? h = _ from hget)
  have hlast : (Module.declare h m₁).2.globals = m.globals ++ [h] := congrArg (· ++ [h]) hglobals
  refine ⟨hm.extends hsound (hedits.toExtends.trans hedits'.toExtends) hlast ?_
    (fun d g hg => .inl (hinterned ▸ hg)) (by simp), hmem⟩
  rw [List.forall_mem_singleton, hinst]
  intro r hr
  exact (Inst.mem_references.1 hr).elim (htype r) (hreferences r)

theorem Declared.of_interned (hm : m.Declared) {d : Description} (hh : h ∈ m.globals) :
    ({ m with interned := m.interned ++ [(d, h)] } : Module).Declared := by
  refine ⟨hm.ordered, fun d' h' hmem => ?_, hm.builtIns⟩
  obtain hmem | hmem := List.mem_append.1 hmem
  · exact hm.interned d' h' hmem
  · obtain ⟨-, rfl⟩ := Prod.mk.inj (List.mem_singleton.1 hmem)
    exact hh

theorem Declared.intern (hm : m.Declared) (hsound : m.Sound) {d : Description}
    (hrun : Module.intern d m = (h, m')) (htype : ∀ t ∈ d.type, t ∈ m.globals)
    (hreferences : ∀ r ∈ d.kind.references, r ∈ m.globals) : m'.Declared ∧ h ∈ m'.globals := by
  obtain ⟨hmem, rfl⟩ | ⟨m₁, hstored, rfl⟩ := intern_cases hrun
  · exact ⟨hm, hm.interned d h hmem⟩
  · obtain ⟨hdeclared, hmem⟩ := hm.declare hsound hstored htype hreferences
    exact ⟨hdeclared.of_interned hmem, hmem⟩

theorem Declared.consolidate (hm : m.Declared) : m.consolidate.Declared :=
  ⟨hm.ordered, hm.interned, fun var words hmem hvar =>
    hm.builtIns var words (mem_notes_consolidate.1 hmem) hvar⟩

/-! ## Functions -/

theorem Scoped.mono (hf : m.Scoped f) (hinst : ∀ h ∈ f.handles, m'.inst h = m.inst h)
    (hglobals : m.globals ⊆ m'.globals)
    (hheads : ∀ h, FunctionDef.Heads m.functions h → FunctionDef.Heads m'.functions h) :
    m'.Scoped f := by
  constructor
  · intro h hh
    rw [hinst h hh]
    exact (hf.outline h hh).imp_right fun hr r hmem => hglobals (hr r hmem)
  · intro i h hget r hr
    have hh : h ∈ f.handles := by
      obtain ⟨b, hb, hmem⟩ := List.mem_flatMap.1 (List.mem_of_getElem? hget)
      exact List.mem_append_right _ (List.mem_flatMap.2 ⟨b, hb, List.mem_cons_of_mem _ hmem⟩)
    rw [hinst h hh] at hr
    exact (hf.body i h hget r hr).imp (hglobals ·) (Or.imp_left (hheads r))

theorem Continues.scoped (hmm : m.Continues m') (hm : m.Sound) (hmem : f ∈ m.functions)
    (hf : m.Scoped f) : m'.Scoped f := by
  refine hf.mono (fun h hh => ?_) hmm.globals.subset fun h ⟨g, hg, heq⟩ => ⟨g, ?_, heq⟩
  · exact hmm.inst_eq (hm.stored (mem_listed.2 (.inr ⟨f, hmem, hh⟩)))
  · obtain ⟨fs, hfs, -⟩ := hmm.functions
    rw [hfs]
    exact List.mem_append_left _ hg

/-- At the end of its code a function may mention declarations, functions and what it has
computed. -/
theorem Scoped.snoc {entry label : Handle} {body : List Handle}
    (hf : m.Scoped ⟨entry, [], [⟨label, body⟩]⟩) (hh : ∀ r ∈ (m.inst h).references,
      r ∈ m.globals ∨ FunctionDef.Heads m.functions r ∨ r ∈ body) :
    m.Scoped ⟨entry, [], [⟨label, body ++ [h]⟩]⟩ := by
  constructor
  · intro g hg
    have hhead := hf.outline g
    simp only [FunctionDef.handles, FunctionDef.body_single, List.flatMap_cons, List.flatMap_nil,
      List.append_nil, List.cons_append, List.mem_cons, List.mem_append] at hg hhead ⊢
    grind
  · intro i g hg r hr
    rw [FunctionDef.body_single] at hg ⊢
    by_cases hi : i < body.length
    · rw [List.getElem?_append_left hi] at hg
      rw [List.take_append_of_le_length hi.le]
      have hmentions := hf.body i g (by rwa [FunctionDef.body_single]) r hr
      rwa [FunctionDef.body_single] at hmentions
    · obtain rfl : g = h := by
        rw [List.getElem?_append_right (Nat.le_of_not_lt hi)] at hg
        exact List.mem_singleton.1 (List.mem_of_getElem? hg)
      rw [List.take_append, List.take_of_length_le (Nat.le_of_not_lt hi)]
      exact (hh r hr).imp_right (Or.imp_right (List.mem_append_left _))

end Module

end KernelGrid
