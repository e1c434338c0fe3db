import KernelGrid.Kernel.ComputePreamble
import KernelGrid.Module.Pass
import KernelGrid.Proofs.Kernel.Preamble
import KernelGrid.Proofs.Kernel.SoundCode
import Mathlib.Logic.Relation

/-!
# Operations

Everything that can be done to a module, and the few primitive changes that all of it consists
of. What these keep is kept by every sequence of operations, also where one of them fails
half-way.
-/

namespace KernelGrid

/-! ## Requests -/

namespace Module

inductive Request where
  | void
  | bool
  | int (width : Word) (signed : Bool)
  | float (width : Word)
  | vector (component : Handle) (count : Word)
  | array (element length : Handle)
  | runtimeArray (element : Handle)
  | struct (members : List Handle)
  | pointer (storage : StorageClass) (pointee : Handle)
  | function (result : Handle) (parameters : List Handle)
  | constant (type : Handle) (value : Word)
  | composite (type : Handle) (parts : List Handle)

namespace Request

def make : Request → Edit Handle
  | void => voidType
  | bool => boolType
  | int width signed => intType width signed
  | float width => floatType width
  | vector component count => vectorType component count
  | array element length => arrayType element length
  | runtimeArray element => runtimeArrayType element
  | struct members => structType members
  | pointer storage pointee => pointerType storage pointee
  | function result parameters => functionType result parameters
  | constant type value => Module.constant type value
  | composite type parts => constantComposite type parts

def description : Request → Description
  | void => ⟨none, .typeVoid⟩
  | bool => ⟨none, .typeBool⟩
  | int width signed => ⟨none, .typeInt width signed⟩
  | float width => ⟨none, .typeFloat width⟩
  | vector component count => ⟨none, .typeVector component count⟩
  | array element length => ⟨none, .typeArray element length⟩
  | runtimeArray element => ⟨none, .typeRuntimeArray element⟩
  | struct members => ⟨none, .typeStruct members⟩
  | pointer storage pointee => ⟨none, .typePointer storage pointee⟩
  | function result parameters => ⟨none, .typeFunction result parameters⟩
  | constant type value => ⟨some type, .constant [value]⟩
  | composite type parts => ⟨some type, .constantComposite parts⟩

theorem make_eq (r : Request) : r.make = intern r.description := by
  cases r <;> rfl

theorem proper (r : Request) : r.description.Proper := by
  cases r
  case constant | composite => exact Description.proper_constant rfl
  all_goals exact Description.proper_type rfl

end Request

end Module

/-! ## Operations -/

namespace Builder

inductive Offers : {α : Type} → Build α → Prop
  | beginFunction (result : Handle) (control : Word) (type : Handle) :
    Offers (beginFunction result control type)
  | functionParameter (type : Handle) : Offers (functionParameter type)
  | beginBlock : Offers beginBlock
  | load (type pointer : Handle) : Offers (load type pointer)
  | store (pointer object : Handle) : Offers (store pointer object)
  | compositeExtract (type composite : Handle) (indices : List Word) :
    Offers (compositeExtract type composite indices)
  | iAdd (type a b : Handle) : Offers (iAdd type a b)
  | iMul (type a b : Handle) : Offers (iMul type a b)
  | accessChain (type base : Handle) (indices : List Handle) :
    Offers (accessChain type base indices)
  | functionCall (type function : Handle) (arguments : List Handle) :
    Offers (functionCall type function arguments)
  | ret : Offers ret
  | retValue (value : Handle) : Offers (retValue value)

end Builder

namespace Module

/-- Whether an instruction may be stored under an id. -/
def Unused (m : Module) (id : ResultId) : Prop :=
  id ≠ 0 ∧ id < 0xffffffff ∧ ∀ h, (m.inst h).resultId ≠ some id

/-- What a single operation makes of a module, whether it succeeds or not. -/
inductive Operation : Module → Module → Prop
  | allocId {m : Module} : Operation m (allocId m).2
  | append {m : Module} (i : Inst Handle) (hid : ∀ id ∈ i.resultId, m.Unused id) :
    Operation m (append i m).2
  | define {m : Module} (type : Option Handle) (kind : Kind Handle) :
    Operation m (define type kind m).2
  | request {m : Module} (r : Request) : Operation m (r.make m).2
  | freshStructType {m : Module} (members : List Handle) :
    Operation m (freshStructType members m).2
  | reintern {m : Module} : Operation m m.reintern
  | addCapability {m : Module} (c : Capability) : Operation m (addCapability c m).2
  | addExtension {m : Module} (name : String) : Operation m (addExtension name m).2
  | addExtInstImport {m : Module} (name : String) : Operation m (addExtInstImport name m).2
  | setMemoryModel {m : Module} (addressing : AddressingModel) (memory : MemoryModel) :
    Operation m (setMemoryModel addressing memory m).2
  | setSource {m : Module} (language version : Word) :
    Operation m (setSource language version m).2
  | addSourceExtension {m : Module} (name : String) : Operation m (addSourceExtension name m).2
  | addComputePreamble {m : Module} : Operation m (addComputePreamble m).2
  | decorate {m : Module} (target : Handle) (decoration : Decoration) (operands : List Word) :
    Operation m (decorate target decoration operands m).2
  | memberDecorate {m : Module} (target : Handle) (member : Word) (decoration : Decoration)
    (operands : List Word) : Operation m (memberDecorate target member decoration operands m).2
  | setName {m : Module} (target : Handle) (name : String) :
    Operation m (setName target name m).2
  | addGlobalVar {m : Module} (pointer : Handle) (storage : StorageClass) :
    Operation m (addGlobalVar pointer storage m).2
  | builtInVar {m : Module} (builtIn : Word) : Operation m (builtInVar builtIn m).2
  | build {b : Builder} {α : Type} {x : Build α} (hx : Builder.Offers x) :
    Operation b.module (x b).2.module
  | addFunction {m : Module} (f : FunctionDef) :
    Operation m { m with functions := m.functions ++ [f] }
  | addEntryPoint {m : Module} (e : EntryPoint Handle) :
    Operation m { m with entryPoints := m.entryPoints ++ [e] }
  | pass {m : Module} (p : Pass) : Operation m (p.run m).2
  | addBuffer {m : Module} (element : Handle) (binding : Word) :
    Operation m (addBuffer element binding m).2
  | addMetadata {m : Module} : Operation m (addMetadata m).2
  | decorateGlobalBlock {m : Module} (host : Host) : Operation m (decorateGlobalBlock host m).2
  | addEntry {m : Module} (k : Kernel) : Operation m (addEntry k m).2

/-! ## Primitive changes -/

def Relists (m m' : Module) : Prop :=
  ∃ capabilities extensions extInstImports entryPoints executionModes debug
      annotations functions,
    m' = { m with capabilities, extensions, extInstImports, entryPoints, executionModes, debug,
                  annotations, functions }

inductive Primitive : Module → Module → Prop
  | allocId {m : Module} : Primitive m (allocId m).2
  | append {m : Module} {i : Inst Handle} (hid : ∀ id ∈ i.resultId, m.Unused id) :
    Primitive m (append i m).2
  | define {m : Module} (type : Option Handle) (kind : Kind Handle) :
    Primitive m (define type kind m).2
  | intern {m : Module} {d : Description} (hd : d.Proper) : Primitive m (intern d m).2
  | freshStructType {m : Module} (members : List Handle) :
    Primitive m (freshStructType members m).2
  | addGlobalVar {m : Module} (pointer : Handle) (storage : StorageClass) :
    Primitive m (addGlobalVar pointer storage m).2
  | setMemoryModel {m : Module} (addressing : AddressingModel) (memory : MemoryModel) :
    Primitive m (setMemoryModel addressing memory m).2
  | restate {m : Module} {h : Handle} (words : List Word) (hh : (m.kindOf h).isSource) :
    Primitive m (setKind h (.raw Opcode.source words) m).2
  | relist {m m' : Module} (hlists : m.Relists m') : Primitive m m'
  | normalizeStorage {m : Module} : Primitive m m.normalizeStorage.2
  | reintern {m : Module} : Primitive m m.reintern

/-- An id is taken before the instruction is stored. -/
theorem define_eq (type : Option Handle) (kind : Kind Handle) (m : Module) :
    define type kind m = append ⟨type, some m.header.bound, kind⟩ (allocId m).2 := rfl

open Relation

variable {m m' m₀ : Module} {α β : Type}

/-- Whatever an edit makes of a module, it gets there by primitive changes. -/
abbrev Composed (m₀ : Module) (x : Edit α) : Prop :=
  Keeps (ReflTransGen Primitive m₀) (fun _ (_ : Empty) => True) [] x fun _ => []

abbrev ComposedTrying {ε : Type} (m₀ : Module) (x : ExceptT ε Edit α) : Prop :=
  KeepsTrying (ReflTransGen Primitive m₀) (fun _ (_ : Empty) => True) [] x fun _ => []

theorem composed_of_steps {x : Edit α} (hx : ∀ m, ReflTransGen Primitive m (x m).2) :
    Composed m₀ x := fun m hm _ => ⟨hm.trans (hx m), by simp⟩

theorem composed_of_primitive {x : Edit α} (hx : ∀ m, Primitive m (x m).2) : Composed m₀ x :=
  composed_of_steps fun m => .single (hx m)

theorem composed_modify {f : Module → Module} (hf : ∀ m : Module, m.Relists (f m)) :
    Composed m₀ (modify f) := composed_of_primitive fun m => .relist (hf m)

theorem composed_get : Composed m₀ get := .get (fun _ => []) (by simp)

theorem composed_appendPlain (kind : Kind Handle) : Composed m₀ (append (.plain kind)) :=
  composed_of_primitive fun _ => .append (by simp [Inst.plain])

theorem composed_define (type : Option Handle) (kind : Kind Handle) :
    Composed m₀ (define type kind) := composed_of_primitive fun _ => .define type kind

theorem composed_request (r : Request) : Composed m₀ r.make := by
  rw [r.make_eq]
  exact composed_of_primitive fun _ => .intern r.proper

theorem composed_annotate (kind : Kind Handle) : Composed m₀ (annotate kind) :=
  .bind (composed_appendPlain kind) fun h => .bind
    (composed_modify fun _ => ⟨_, _, _, _, _, _, _, _, rfl⟩) fun _ => .pure (by simp)

theorem composed_insertSource (h : Handle) : Composed m₀ (insertSource h) :=
  composed_modify fun _ => ⟨_, _, _, _, _, _, _, _, rfl⟩

/-! ### Headers -/

theorem composed_addCapability (c : Capability) : Composed m₀ (addCapability c) := by
  refine .bind composed_get fun m => ?_
  split
  · exact .bind (composed_appendPlain _) fun _ =>
      composed_modify fun _ => ⟨_, _, _, _, _, _, _, _, rfl⟩
  · exact .pure (by simp)

theorem composed_addExtension (name : String) : Composed m₀ (addExtension name) := by
  refine .bind composed_get fun m => ?_
  split
  · exact .bind (composed_appendPlain _) fun _ =>
      composed_modify fun _ => ⟨_, _, _, _, _, _, _, _, rfl⟩
  · exact .pure (by simp)

theorem composed_addExtInstImport (name : String) : Composed m₀ (addExtInstImport name) := by
  refine .bind composed_get fun m => ?_
  split
  · exact .pure (by simp)
  · exact .bind (composed_define _ _) fun h => .bind
      (composed_modify fun _ => ⟨_, _, _, _, _, _, _, _, rfl⟩) fun _ => .pure (by simp)

theorem composed_setSource (language version : Word) :
    Composed m₀ (setSource language version) := by
  refine composed_of_steps fun m => ?_
  obtain ⟨h, hfind, heq⟩ | ⟨-, h, m₁, hstored, heq⟩ := setSource_cases
    (show setSource language version m = (_, (setSource language version m).2) from rfl)
  · rw [heq]
    exact .single (.restate _ (findKind?_eq_some hfind).2)
  · rw [heq]
    have happend : Primitive m m₁ := by
      have hm₁ : (append (.plain _) m).2 = m₁ := congrArg Prod.snd hstored
      exact hm₁ ▸ .append (by simp [Inst.plain])
    exact .tail (.single happend) (.relist ⟨_, _, _, _, _, _, _, _, rfl⟩)

theorem composed_addSourceExtension (name : String) : Composed m₀ (addSourceExtension name) := by
  refine .bind composed_get fun m => ?_
  split
  · exact .bind (composed_appendPlain _) fun h => composed_insertSource h
  · exact .pure (by simp)

theorem composed_addComputePreamble : Composed m₀ addComputePreamble := by
  refine .bind (composed_addCapability _) fun _ => ?_
  refine .bind (composed_of_primitive fun _ => .setMemoryModel _ _) fun _ => ?_
  refine .bind (composed_addExtInstImport _) fun _ => ?_
  refine .bind (composed_setSource _ _) fun _ => ?_
  exact .forM fun name _ => composed_addSourceExtension name

/-! ### Variables and buffers -/

theorem composed_setName (target : Handle) (name : String) : Composed m₀ (setName target name) :=
  .bind (composed_appendPlain _) fun _ => composed_modify fun _ => ⟨_, _, _, _, _, _, _, _, rfl⟩

theorem composed_addGlobalVar (pointer : Handle) (storage : StorageClass) :
    Composed m₀ (addGlobalVar pointer storage) :=
  composed_of_primitive fun _ => .addGlobalVar pointer storage

theorem composed_builtInVar (builtIn : Word) : Composed m₀ (builtInVar builtIn) := by
  refine .bind composed_get fun m => ?_
  split
  · exact .pure (by simp)
  · refine .bind (composed_request (.int 32 false)) fun word => ?_
    refine .bind (composed_request (.vector word 3)) fun triple => ?_
    refine .bind (composed_request (.pointer .input triple)) fun pointer => ?_
    refine .bind (composed_addGlobalVar pointer .input) fun var => ?_
    exact .bind (composed_annotate _) fun _ => .pure (by simp)

theorem composed_bindSlot (var : Handle) (binding : Word) : Composed m₀ (bindSlot var binding) :=
  .bind (composed_annotate _) fun _ => .bind (composed_annotate _) fun _ => .pure (by simp)

theorem composed_addBlockVar (block : Handle) (binding : Word) :
    Composed m₀ (addBlockVar block binding) := by
  refine .bind (composed_request (.pointer .uniform block)) fun pointer => ?_
  refine .bind (composed_addGlobalVar pointer .uniform) fun var => ?_
  exact .bind (composed_bindSlot var binding) fun _ => .pure (by simp)

theorem composed_addBuffer (element : Handle) (binding : Word) :
    ComposedTrying m₀ (addBuffer element binding) := by
  unfold addBuffer
  refine .bind (.lift composed_get) fun m => ?_
  refine .bind .ofExcept fun stride => ?_
  refine .bind (.lift (composed_request (.runtimeArray element))) fun array => ?_
  refine .bind (.lift (composed_annotate _)) fun _ => ?_
  refine .bind (.lift (composed_request (.struct [array]))) fun block => ?_
  refine .bind (.lift (composed_annotate _)) fun _ => ?_
  refine .bind (.lift (composed_annotate _)) fun _ => ?_
  exact .lift (composed_addBlockVar block binding)

theorem composed_addMetadata : Composed m₀ addMetadata := by
  unfold addMetadata
  refine .bind (composed_request (.int 32 false)) fun word => ?_
  refine .bind (composed_of_primitive fun _ => .freshStructType _) fun record => ?_
  refine .bind (.forIn fun _ _ _ => ?_) fun _ => ?_
  · exact .bind (composed_annotate _) fun _ => .pure (by simp)
  refine .bind (composed_request (.runtimeArray record)) fun array => ?_
  refine .bind (composed_annotate _) fun _ => ?_
  refine .bind (composed_request (.struct [array])) fun block => ?_
  refine .bind (composed_annotate _) fun _ => ?_
  exact composed_addBlockVar block metadataBinding

/-! ### The global block -/

theorem composed_bindAllocations (names : List String) :
    ComposedTrying m₀ (bindAllocations names) := by
  refine .forM fun ⟨name, i⟩ _ => ?_
  refine .bind (.lift composed_get) fun m => ?_
  split
  · exact .lift (composed_bindSlot _ _)
  · exact .throw

theorem composed_decorateGlobalBlock (host : Host) :
    ComposedTrying m₀ (decorateGlobalBlock host) := by
  unfold decorateGlobalBlock
  refine .bind (.lift composed_get) fun m => ?_
  split
  swap
  · exact .pure (by simp)
  split
  swap
  · exact .throw
  refine .bind (.lift (composed_bindSlot _ _)) fun _ => ?_
  refine .bind (.lift (composed_annotate _)) fun _ => ?_
  split
  · exact .pure (by simp)
  · exact .throw
  · dsimp only
    split
    · exact .throw_bind
    refine .bind (.forIn fun _ _ _ => ?_) fun _ => ?_
    · exact .bind (.lift (composed_annotate _)) fun _ => .pure (by simp)
    split
    · exact .pure (by simp)
    · exact .bind (composed_bindAllocations _) fun _ => .pure (by simp)

end Module

/-! ### Builders -/

namespace Builder

open KernelGrid.Module Relation

variable {m₀ : Module} {α : Type}

abbrev Composed (m₀ : Module) (x : Build α) : Prop :=
  KeepsTrying
    (fun b : Builder => ReflTransGen Primitive m₀ b.module) (fun _ (_ : Empty) => True) []
    x fun _ => []

theorem composed_edit {e : Edit α} (he : Module.Composed m₀ e) : Composed m₀ (edit e) := by
  intro b hb hknown
  exact he b.module hb hknown

theorem composed_attempt {e : ExceptT ModuleError Edit α} (he : ComposedTrying m₀ e) :
    Composed m₀ (attempt e) := by
  intro b hb hknown
  exact he b.module hb hknown

theorem composed_select {f : Builder → Builder} (hf : ∀ b, (f b).module = b.module) :
    Composed m₀ (modify f) := by
  intro b hb _
  refine ⟨?_, by simp⟩
  change ReflTransGen Primitive m₀ (f b).module
  rwa [hf]

theorem composed_pure (a : α) : Composed m₀ (pure a) := .pure (by simp)

theorem composed_selectedFunction : Composed m₀ selectedFunction := by
  refine .bind (.get (fun _ => []) (by simp)) fun b => ?_
  split
  · exact .pure (by simp)
  · exact .throw

theorem composed_selectedBlock : Composed m₀ selectedBlock := by
  refine .bind (.get (fun _ => []) (by simp)) fun b => ?_
  split
  · exact .pure (by simp)
  · exact .throw

theorem composed_modifyFunction (i : Nat) (f : FunctionDef → FunctionDef) :
    Composed m₀ (modifyFunction i f) :=
  composed_edit (composed_modify fun _ => ⟨_, _, _, _, _, _, _, _, rfl⟩)

theorem composed_beginFunction (result : Handle) (control : Word) (type : Handle) :
    Composed m₀ (beginFunction result control type) := by
  refine .bind (composed_edit (composed_define _ _)) fun h => ?_
  refine .bind (composed_edit (composed_modify fun _ => ⟨_, _, _, _, _, _, _, _, rfl⟩))
    fun _ => ?_
  exact .bind (composed_select fun _ => rfl) fun _ => .pure (by simp)

theorem composed_functionParameter (type : Handle) : Composed m₀ (functionParameter type) := by
  refine .bind composed_selectedFunction fun function => ?_
  refine .bind (composed_edit (composed_define _ _)) fun h => ?_
  exact .bind (composed_modifyFunction _ _) fun _ => .pure (by simp)

theorem composed_beginBlock : Composed m₀ beginBlock := by
  refine .bind composed_selectedFunction fun function => ?_
  refine .bind (composed_edit (composed_define _ _)) fun h => ?_
  refine .bind (composed_modifyFunction _ _) fun _ => ?_
  exact .bind (composed_select fun _ => rfl) fun _ => .pure (by simp)

theorem composed_pushPlain (kind : Kind Handle) : Composed m₀ (push (.plain kind)) := by
  refine .bind composed_selectedFunction fun function => ?_
  refine .bind composed_selectedBlock fun block => ?_
  refine .bind (composed_edit (composed_appendPlain kind)) fun h => ?_
  exact .bind (composed_modifyFunction _ _) fun _ => .pure (by simp)

/-- An id that was taken is used, unless nothing is selected. -/
theorem composed_pushResult (type : Handle) (kind : Kind Handle) :
    Composed m₀ (pushResult type kind) := by
  refine .of_cases fun b hb _ => ?_
  have hrun : pushResult type kind b = push ⟨some type, some b.module.header.bound, kind⟩
      { b with module := (allocId b.module).2 } := rfl
  rw [hrun]
  obtain ⟨e, hpush⟩ | ⟨function, block, -, -, hpush⟩ := push_cases
    ⟨some type, some b.module.header.bound, kind⟩ { b with module := (allocId b.module).2 }
  · exact .inl ⟨e, _, hpush, hb.tail .allocId, by simp⟩
  · have hdefine : Primitive b.module (append ⟨some type, some b.module.header.bound, kind⟩
        (allocId b.module).2).2 := .define (some type) kind
    exact .inr ⟨_, _, hpush,
      (hb.tail hdefine).tail (.relist ⟨_, _, _, _, _, _, _, _, rfl⟩), by simp⟩

theorem composed_terminate (kind : Kind Handle) : Composed m₀ (terminate kind) :=
  .bind (composed_pushPlain kind) fun _ => composed_select fun _ => rfl

theorem Offers.composed {x : Build α} (hx : Offers x) : Composed m₀ x := by
  cases hx with
  | beginFunction result control type => exact composed_beginFunction result control type
  | functionParameter type => exact composed_functionParameter type
  | beginBlock => exact composed_beginBlock
  | store pointer object => exact composed_pushPlain _
  | load | compositeExtract | iAdd | iMul | accessChain | functionCall =>
    exact composed_pushResult _ _
  | ret | retValue => exact composed_terminate _

end Builder

/-! ### Entry points -/

open KernelGrid.Module Builder Relation

variable {m₀ : Module}

theorem Cell.composed_emit (word : Handle) : Builder.Composed m₀ (Cell.emit word) := by
  have hvar (builtIn : Word) : Builder.Composed m₀ (edit (builtInVar builtIn)) :=
    composed_edit (composed_builtInVar builtIn)
  have hrequest (r : Request) : Builder.Composed m₀ (edit r.make) :=
    composed_edit (composed_request r)
  refine .bind (hrequest (.vector word 3)) fun triple => ?_
  refine .bind (hvar _) fun invocationId => ?_
  refine .bind (composed_pushResult _ _) fun position => ?_
  refine .bind (composed_pushResult _ _) fun x => ?_
  refine .bind (composed_pushResult _ _) fun y => ?_
  refine .bind (composed_pushResult _ _) fun z => ?_
  refine .bind (hrequest (.constant word 1)) fun one => ?_
  refine .bind (hrequest (.composite triple [one, one, one])) fun groupSize => ?_
  refine .bind (composed_pushResult _ _) fun groupSizeX => ?_
  refine .bind (composed_pushResult _ _) fun groupSizeY => ?_
  refine .bind (hvar _) fun numWorkgroups => ?_
  refine .bind (composed_pushResult _ _) fun groups => ?_
  refine .bind (composed_pushResult _ _) fun groupsX => ?_
  refine .bind (composed_pushResult _ _) fun groupsY => ?_
  refine .bind (composed_pushResult _ _) fun extentX => ?_
  refine .bind (composed_pushResult _ _) fun extentY => ?_
  refine .bind (composed_pushResult _ _) fun rowsBelow => ?_
  refine .bind (composed_pushResult _ _) fun row => ?_
  refine .bind (composed_pushResult _ _) fun cellsBefore => ?_
  exact .bind (composed_pushResult _ _) fun index => .pure (by simp)

namespace Callee

theorem composed_emitElement (zero : Handle) (cell : Cell) (element : Handle) (binding : Word) :
    Builder.Composed m₀ (emitElement zero cell element binding) := by
  refine .bind (composed_attempt (composed_addBuffer element binding)) fun buffer => ?_
  refine .bind (composed_edit (composed_request (.pointer .uniform element))) fun type => ?_
  exact composed_pushResult _ _

theorem composed_emitInputs (c : Callee) (zero : Handle) (cell : Cell) :
    Builder.Composed m₀ (c.emitInputs zero cell) := by
  have hmapM : KeepsTrying (fun b : Builder => ReflTransGen Primitive m₀ b.module)
      (fun _ (_ : Empty) => True) [] (c.emitInputs zero cell) fun hs =>
      hs.flatMap fun _ => [] := by
    refine .mapM fun ⟨type, i⟩ _ known' _ => ?_
    obtain rfl : known' = [] := List.eq_nil_iff_forall_not_mem.2 fun t => nomatch t
    exact .bind (composed_emitElement _ _ _ _) fun pointer => composed_pushResult _ _
  exact hmapM.mono (by simp)

theorem composed_finish (c : Callee) (word entry : Handle) (cell : Option Cell) :
    Builder.Composed m₀ (c.finish word entry cell) := by
  have hlast : Builder.Composed m₀ (do
      ret
      pure (entry, cell) : Build (Handle × Option Cell)) :=
    .bind (composed_terminate _) fun _ => .pure (by simp)
  refine .bind (composed_edit (composed_request (.constant word 0))) fun zero => ?_
  cases cell with
  | none =>
      refine .bind (composed_pure _) fun arguments => ?_
      exact .bind (composed_pushResult _ _) fun result => hlast
  | some cell =>
      dsimp only
      refine .bind (composed_emitInputs c zero cell) fun inputs => ?_
      refine .bind (composed_pure _) fun arguments => ?_
      refine .bind (composed_pushResult _ _) fun result => ?_
      split
      · refine .bind (composed_emitElement _ _ _ _) fun pointer => ?_
        exact .bind (composed_pushPlain _) fun _ => hlast
      · exact hlast

theorem composed_emit (c : Callee) (word void type : Handle) :
    Builder.Composed m₀ (c.emit word void type) := by
  rw [emit_eq]
  refine .bind (composed_beginFunction _ _ _) fun entry => ?_
  refine .bind composed_beginBlock fun label => ?_
  have hcell : Builder.Composed m₀
      (if c.signature.needsIndex then some <$> Cell.emit word else pure none) := by
    split
    · exact .map (Cell.composed_emit word)
    · exact composed_pure none
  exact .bind hcell fun cell => composed_finish c word entry cell

end Callee

namespace Module

theorem composed_addEntry (k : Kernel) : ComposedTrying m₀ (addEntry k) := by
  unfold addEntry
  refine .bind (.lift composed_get) fun m => ?_
  refine .bind .ofExcept fun c? => ?_
  cases c? with
  | none => exact .pure (by simp)
  | some c =>
      refine .bind (.lift (composed_request (.int 32 false))) fun word => ?_
      refine .bind (.lift (composed_request .void)) fun void => ?_
      refine .bind (.lift (composed_request (.function void []))) fun type => ?_
      refine .of_cases fun m hm _ => ?_
      have hemitted := (c.composed_emit word void type).state (s := .start m) hm
      rcases hemit : (c.emit word void type).run.run (.start m) with ⟨e | ⟨entry, cell⟩, b⟩
      all_goals
        have hresult : c.emit word void type (.start m) = _ := hemit
        rw [hresult] at hemitted
      · refine .inl ⟨.module e, b.module, ?_, hemitted, by simp⟩
        rw [get_bind_apply]
        simp only [hemit]
        rfl
      · let m' : Module :=
          { b.module with entryPoints := b.module.entryPoints ++ [⟨.compute, entry,
          entryName k.name, cell.toList.flatMap Cell.interface, some ⟨1, 1, 1⟩⟩] }
        refine .inr ⟨.synthesized (entryName k.name), m', ?_,
          hemitted.tail (.relist ⟨_, _, _, _, _, _, _, _, rfl⟩), by simp⟩
        rw [get_bind_apply]
        simp only [hemit]
        rfl

/-- Every operation is made of primitive changes. -/
theorem Operation.steps {m m' : Module} (hop : Operation m m') :
    ReflTransGen Primitive m m' := by
  cases hop with
  | allocId => exact .single .allocId
  | append i hid => exact .single (.append hid)
  | define type kind => exact .single (.define type kind)
  | request r => exact (composed_request r).state .refl
  | freshStructType members => exact .single (.freshStructType members)
  | reintern => exact .single .reintern
  | addCapability c => exact (composed_addCapability c).state .refl
  | addExtension name => exact (composed_addExtension name).state .refl
  | addExtInstImport name => exact (composed_addExtInstImport name).state .refl
  | setMemoryModel addressing memory => exact .single (.setMemoryModel addressing memory)
  | setSource language version => exact (composed_setSource language version).state .refl
  | addSourceExtension name => exact (composed_addSourceExtension name).state .refl
  | addComputePreamble => exact composed_addComputePreamble.state .refl
  | decorate => exact (composed_annotate _).state .refl
  | memberDecorate => exact (composed_annotate _).state .refl
  | setName target name => exact (composed_setName target name).state .refl
  | addGlobalVar pointer storage => exact .single (.addGlobalVar pointer storage)
  | builtInVar builtIn => exact (composed_builtInVar builtIn).state .refl
  | build hx => exact hx.composed.state (s := _) .refl
  | addFunction f => exact .single (.relist ⟨_, _, _, _, _, _, _, _, rfl⟩)
  | addEntryPoint e => exact .single (.relist ⟨_, _, _, _, _, _, _, _, rfl⟩)
  | pass p =>
      cases p with
      | storageClass => exact .single .normalizeStorage
      | consolidation => exact .single (.relist ⟨_, _, _, _, _, _, _, _, rfl⟩)
      | validation => exact .refl
  | addBuffer element binding => exact (composed_addBuffer element binding).state .refl
  | addMetadata => exact composed_addMetadata.state .refl
  | decorateGlobalBlock host => exact (composed_decorateGlobalBlock host).state .refl
  | addEntry k => exact (composed_addEntry k).state .refl

theorem steps_of_operations {m m' : Module} (hops : ReflTransGen Operation m m') :
    ReflTransGen Primitive m m' := by
  induction hops with
  | refl => exact .refl
  | tail _ hop ih => exact ih.trans hop.steps

end Module

end KernelGrid
