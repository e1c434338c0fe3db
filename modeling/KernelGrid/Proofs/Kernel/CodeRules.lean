import KernelGrid.Proofs.Kernel.EditRules
import KernelGrid.Proofs.Module.Building

/-!
# What code keeps

The code of an entry point is made of edits and of a few primitive instructions.  What these
keep is kept by all of it, also where it fails half-way.
-/

namespace KernelGrid

open KernelGrid.Module

def Kind.isCode : Kind Handle → Bool
  | load _ _ | store _ _ _ | accessChain _ _ | compositeExtract _ _ | iAdd _ _ | iMul _ _
  | functionCall _ _ | ret => true
  | _ => false

def Cell.handles (c : Cell) : List Handle :=
  [c.x, c.y, c.z, c.index, c.invocationId, c.numWorkgroups]

theorem Cell.mem_of_mem_coordinates {c : Cell} {s : Signature} {h : Handle}
    (hh : h ∈ c.coordinates s) : h = c.x ∨ h = c.y ∨ h = c.z := by
  unfold coordinates at hh
  split at hh
  · split at hh
    · split at hh
      · simpa using hh
      · obtain rfl | rfl : h = c.x ∨ h = c.y := by simpa using hh
        · exact .inl rfl
        · exact .inr (.inl rfl)
    · exact .inl (by simpa using hh)
  · cases hh

/-- What the parts of a cell may be used for: it has two variables of its own. -/
def Cell.uses (c : Cell) : List Use :=
  [.value c.x, .value c.y, .value c.z, .value c.index, .declaration c.invocationId,
    .declaration c.numWorkgroups]

def Callee.handles (c : Callee) : List Handle := c.function :: c.resultType :: c.inputTypes

namespace Callee

open KernelGrid.Builder

def bufferTypes (c : Callee) : List Handle :=
  if c.signature.needsIndex then
    c.inputTypes ++ if c.signature.contains .output then [c.resultType] else []
  else []

theorem forall_mem_bufferTypes {c : Callee} {P : Handle → Prop} (hresult : P c.resultType)
    (hinputs : ∀ t ∈ c.inputTypes, P t) : ∀ t ∈ c.bufferTypes, P t := by
  unfold bufferTypes
  split
  · refine List.forall_mem_append.2 ⟨hinputs, ?_⟩
    split
    · exact List.forall_mem_singleton.2 hresult
    · exact List.forall_mem_nil _
  · exact List.forall_mem_nil _

def uses (c : Callee) : List Use :=
  .value c.function :: .declaration c.resultType ::
    (c.inputTypes.map .declaration ++ c.bufferTypes.map .element)

theorem forall_mem_uses {c : Callee} {P : Use → Prop} :
    (∀ t ∈ c.uses, P t) ↔ P (.value c.function) ∧
    P (.declaration c.resultType) ∧ (∀ t ∈ c.inputTypes, P (.declaration t)) ∧
      ∀ t ∈ c.bufferTypes, P (.element t) := by
  rw [uses, List.forall_mem_cons, List.forall_mem_cons, List.forall_mem_append,
    List.forall_mem_map, List.forall_mem_map]

def finish (c : Callee) (word entry : Handle) (cell : Option Cell) :
    Build (Handle × Option Cell) := do
  let zero ← edit (constant word 0)
  let arguments ← match cell with
    | some cell => do
      let inputs ← c.emitInputs zero cell
      pure (inputs ++ cell.coordinates c.signature)
    | none => pure []
  let result ← functionCall c.resultType c.function arguments
  match cell with
  | some cell =>
    if c.signature.contains .output then
      let pointer ← emitElement zero cell c.resultType outputBinding
      let _ ← store pointer result
  | none => pure ()
  ret
  return (entry, cell)

def body (c : Callee) (word entry : Handle) : Build (Handle × Option Cell) := do
  let cell ← (if c.signature.needsIndex then some <$> Cell.emit word else pure none)
  c.finish word entry cell

theorem emit_eq (c : Callee) (word void type : Handle) :
    c.emit word void type = (do
      let entry ← beginFunction void 0 type
      let _ ← beginBlock
      let cell ← (if c.signature.needsIndex then some <$> Cell.emit word else pure none)
      c.finish word entry cell) := by
  by_cases hneeds : c.signature.needsIndex
  · simp only [emit, if_pos hneeds]
    rfl
  · simp only [emit, if_neg hneeds]
    rfl

end Callee

namespace Builder

/-- A property of builders and one of handles under them, kept wherever an instruction is
appended. -/
structure WriteRules (P : Builder → Prop) (V : Builder → Use → Prop) : Prop where
  pushResult {known : List Use} {type : Handle} {kind : Kind Handle} : kind.isCode →
    kind.opcode.layout = .typed → .declaration type ∈ known →
    (∀ r ∈ kind.references, .declaration r ∈ known ∨ .value r ∈ known) →
    KeepsTrying P V known (pushResult type kind) fun h => [.value h]
  store {known : List Use} {pointer object : Handle} : .value pointer ∈ known →
    .value object ∈ known → KeepsTrying P V known (store pointer object) fun _ => []
  ret {known : List Use} : KeepsTrying P V known ret fun _ => []

structure CodeRules (P : Builder → Prop) (V : Builder → Use → Prop) : Prop
    extends WriteRules P V where
  internType {known : List Use} {kind : Kind Handle} : kind.isType →
    (∀ r ∈ kind.references, .declaration r ∈ known) →
    KeepsTrying P V known (edit (Module.internType kind)) fun h => [.declaration h]
  internConstant {known : List Use} {type : Handle} {kind : Kind Handle} : kind.isConstant →
    .declaration type ∈ known → (∀ r ∈ kind.references, .declaration r ∈ known) →
    KeepsTrying P V known (edit (Module.internConstant type kind)) fun h => [.declaration h]
  builtInVar {known : List Use} (builtIn : Word) :
    KeepsTrying P V known (edit (Module.builtInVar builtIn)) fun h => [.declaration h]
  addBuffer {known : List Use} {element : Handle} (binding : Word) :
    .declaration element ∈ known → .element element ∈ known →
    KeepsTrying P V known (attempt (Module.addBuffer element binding)) fun h => [.declaration h]

theorem WriteRules.codeRules {E : Module → Module → Prop} {U : Module → Use → Prop}
    {P : Builder → Prop} {V : Builder → Use → Prop} (hw : WriteRules P V)
    (hedits : ∀ m₀, EditRules (E m₀) U)
    (hedit : ∀ {α : Type} {known : List Use} {made : α → List Use} {e : Edit α},
      (∀ m₀, Keeps (E m₀) U known e made) → KeepsTrying P V known (edit e) made)
    (hattempt : ∀ {α : Type} {known : List Use} {made : α → List Use}
        {e : ExceptT ModuleError Edit α},
      (∀ m₀, KeepsTrying (E m₀) U known e made) → KeepsTrying P V known (attempt e) made) :
    CodeRules P V where
  toWriteRules := hw
  internType hkind hreferences := hedit fun m₀ => (hedits m₀).internType hkind hreferences
  internConstant hkind htype hreferences :=
    hedit fun m₀ => (hedits m₀).internConstant hkind htype hreferences
  builtInVar builtIn := hedit fun m₀ => (hedits m₀).builtInVar builtIn
  addBuffer binding helement _ := hattempt fun m₀ => (hedits m₀).addBuffer binding helement

namespace CodeRules

variable {P : Builder → Prop} {V : Builder → Use → Prop} {known : List Use} (hr : CodeRules P V)

include hr

/-! ### Instructions -/

theorem load {type pointer : Handle} (htype : .declaration type ∈ known)
    (hpointer : .declaration pointer ∈ known ∨ .value pointer ∈ known) :
    KeepsTrying P V known (load type pointer) fun h => [.value h] :=
  hr.pushResult rfl (Form.layout_opcode .load) htype
    (by simpa [Kind.references, Kind.operands] using hpointer)

theorem compositeExtract {type composite : Handle} {indices : List Word}
    (htype : .declaration type ∈ known)
    (hcomposite : .declaration composite ∈ known ∨ .value composite ∈ known) :
    KeepsTrying P V known (compositeExtract type composite indices) fun h => [.value h] :=
  hr.pushResult rfl (Form.layout_opcode .compositeExtract) htype
    (by simpa [Kind.references, Kind.operands] using hcomposite)

theorem iAdd {type x y : Handle} (htype : .declaration type ∈ known) (hx : .value x ∈ known)
    (hy : .value y ∈ known) : KeepsTrying P V known (iAdd type x y) fun h => [.value h] :=
  hr.pushResult rfl (Form.layout_opcode .iAdd) htype
    (by simp [Kind.references, Kind.operands, hx, hy])

theorem iMul {type x y : Handle} (htype : .declaration type ∈ known) (hx : .value x ∈ known)
    (hy : .value y ∈ known) : KeepsTrying P V known (iMul type x y) fun h => [.value h] :=
  hr.pushResult rfl (Form.layout_opcode .iMul) htype
    (by simp [Kind.references, Kind.operands, hx, hy])

theorem accessChain {type base : Handle} {indices : List Handle}
    (htype : .declaration type ∈ known) (hbase : .declaration base ∈ known)
    (hindices : ∀ r ∈ indices, .declaration r ∈ known ∨ .value r ∈ known) :
    KeepsTrying P V known (accessChain type base indices) fun h => [.value h] :=
  hr.pushResult rfl (Form.layout_opcode .accessChain) htype
    (by simpa [Kind.references, Kind.operands] using ⟨.inl hbase, hindices⟩)

theorem functionCall {type function : Handle} {arguments : List Handle}
    (htype : .declaration type ∈ known) (hfunction : .value function ∈ known)
    (harguments : ∀ r ∈ arguments, .value r ∈ known) :
    KeepsTrying P V known (functionCall type function arguments) fun h => [.value h] :=
  hr.pushResult rfl (Form.layout_opcode .functionCall) htype
    (by simpa [Kind.references, Kind.operands] using
      ⟨.inr hfunction, fun r hr => .inr (harguments r hr)⟩)

/-! ### Cells and elements -/

theorem emitCell {word : Handle} (hword : .declaration word ∈ known) :
    KeepsTrying P V known (Cell.emit word) Cell.uses := by
  unfold Cell.emit
  refine .bind (hr.internType rfl
    (by simpa [Kind.references, Kind.operands] using hword)) fun triple => ?_
  refine .bind (hr.builtInVar _) fun invocationId => ?_
  refine .bind (hr.load (by simp) (by simp)) fun position => ?_
  refine .bind (hr.compositeExtract (by simp [hword]) (by simp)) fun x => ?_
  refine .bind (hr.compositeExtract (by simp [hword]) (by simp)) fun y => ?_
  refine .bind (hr.compositeExtract (by simp [hword]) (by simp)) fun z => ?_
  refine .bind (hr.internConstant rfl (by simp [hword])
    (by simp [Kind.references, Kind.operands])) fun one => ?_
  refine .bind (hr.internConstant rfl (by simp)
    (by simp [Kind.references, Kind.operands])) fun groupSize => ?_
  refine .bind (hr.compositeExtract (by simp [hword]) (by simp)) fun groupSizeX => ?_
  refine .bind (hr.compositeExtract (by simp [hword]) (by simp)) fun groupSizeY => ?_
  refine .bind (hr.builtInVar _) fun numWorkgroups => ?_
  refine .bind (hr.load (by simp) (by simp)) fun groups => ?_
  refine .bind (hr.compositeExtract (by simp [hword]) (by simp)) fun groupsX => ?_
  refine .bind (hr.compositeExtract (by simp [hword]) (by simp)) fun groupsY => ?_
  refine .bind (hr.iMul (by simp [hword]) (by simp) (by simp)) fun extentX => ?_
  refine .bind (hr.iMul (by simp [hword]) (by simp) (by simp)) fun extentY => ?_
  refine .bind (hr.iMul (by simp [hword]) (by simp) (by simp)) fun rowsBelow => ?_
  refine .bind (hr.iAdd (by simp [hword]) (by simp) (by simp)) fun row => ?_
  refine .bind (hr.iMul (by simp [hword]) (by simp) (by simp)) fun cellsBefore => ?_
  refine .bind (hr.iAdd (by simp [hword]) (by simp) (by simp)) fun index => ?_
  exact .pure (by simp [Cell.uses])

theorem emitElement {zero element : Handle} {cell : Cell} (binding : Word)
    (hzero : .declaration zero ∈ known) (hindex : .value cell.index ∈ known)
    (helement : .declaration element ∈ known) (hbuffer : .element element ∈ known) :
    KeepsTrying P V known (Callee.emitElement zero cell element binding)
      fun h => [.value h] := by
  refine .bind (hr.addBuffer binding helement hbuffer) fun buffer => ?_
  refine .bind (hr.internType rfl (by
    simpa [Kind.references, Kind.operands, List.filterMap_cons] using .inr helement))
    fun type => ?_
  exact hr.accessChain (by simp) (by simp) (by simp [hzero, hindex])

variable {c : Callee} {word entry : Handle}

theorem emitInputs {zero : Handle} {cell : Cell} (hzero : .declaration zero ∈ known)
    (hindex : .value cell.index ∈ known) (htypes : ∀ t ∈ c.inputTypes, .declaration t ∈ known)
    (hbuffers : ∀ t ∈ c.inputTypes, .element t ∈ known) :
    KeepsTrying P V known (c.emitInputs zero cell) fun values => values.map .value := by
  have hmapM : KeepsTrying P V known (c.emitInputs zero cell)
      fun values => values.flatMap fun h => [.value h] := by
    refine .mapM fun ⟨type, i⟩ hmem known' hsub => ?_
    have hinput := List.fst_mem_of_mem_zipIdx hmem
    have htype := hsub _ (htypes type hinput)
    refine .bind (hr.emitElement _ (hsub _ hzero) (hsub _ hindex) htype
      (hsub _ (hbuffers type hinput))) fun pointer => ?_
    exact hr.load (by simp [htype]) (by simp)
  refine hmapM.mono fun values t ht => List.mem_append_left _ ?_
  obtain ⟨v, hv, rfl⟩ := List.mem_map.1 ht
  exact List.mem_flatMap.2 ⟨v, hv, List.mem_singleton_self _⟩

/-! ### Bodies -/

omit hr in
theorem values {vs : List Handle} (hvs : ∀ h ∈ vs, .value h ∈ known) :
    KeepsTrying P V known (pure vs : Build (List Handle)) fun vs => vs.map .value :=
  .pure (List.forall_mem_map.2 hvs)

theorem finish {cell : Option Cell} (hword : .declaration word ∈ known)
    (hentry : .value entry ∈ known) (hcallee : ∀ t ∈ c.uses, t ∈ known)
    (hcell : ∀ t ∈ cell.toList.flatMap Cell.uses, t ∈ known)
    (hneeds : cell.isSome = c.signature.needsIndex) :
    KeepsTrying P V known (c.finish word entry cell)
      fun made => .value made.1 :: made.2.toList.flatMap Cell.uses := by
  obtain ⟨hfunction, hresult, hinputs, hbuffers⟩ := Callee.forall_mem_uses.1 hcallee
  have hlast {known' : List Use} (hsub : ∀ t ∈ known, t ∈ known') :
      KeepsTrying P V known' (do
        Builder.ret
        pure (entry, cell) : Build (Handle × Option Cell))
        fun made => .value made.1 :: made.2.toList.flatMap Cell.uses := by
    refine .bind hr.ret fun _ => .pure (List.forall_mem_cons.2 ⟨?_, fun t ht => ?_⟩)
    · exact hsub _ hentry
    · exact hsub t (hcell t ht)
  refine .bind (hr.internConstant rfl hword (by simp [Kind.references, Kind.operands]))
    fun zero => ?_
  cases cell with
  | none =>
      refine .bind (values (by simp)) fun arguments => ?_
      refine .bind
        (hr.functionCall (by simp [hresult]) (by simp [hfunction]) (by simp +contextual))
        fun result => ?_
      exact hlast fun t ht => by simp [ht]
  | some cell =>
      simp only [Option.toList_some, List.flatMap_cons, List.flatMap_nil,
        List.append_nil] at hcell
      have hindex : .value cell.index ∈ known := hcell _ (by simp [Cell.uses])
      have hcoordinates : ∀ h ∈ cell.coordinates c.signature, .value h ∈ known := fun h hh =>
        hcell _
          (by obtain rfl | rfl | rfl := Cell.mem_of_mem_coordinates hh <;> simp [Cell.uses])
      rw [Callee.bufferTypes, if_pos (by simp [← hneeds]), List.forall_mem_append] at hbuffers
      dsimp only
      refine .bind
        (hr.emitInputs (by simp) (by simp [hindex]) (fun t ht => by simp [hinputs t ht])
          fun t ht => by simp [hbuffers.1 t ht]) fun inputs => ?_
      refine .bind (values ?_) fun arguments => ?_
      · refine List.forall_mem_append.2 ⟨fun h hh => by simp [hh], fun h hh => ?_⟩
        simp [hcoordinates h hh]
      refine .bind (hr.functionCall (by simp [hresult]) (by simp [hfunction])
        (by simp +contextual)) fun result => ?_
      split
      next houtput =>
        rw [if_pos houtput, List.forall_mem_singleton] at hbuffers
        refine .bind (hr.emitElement _ (by simp) (by simp [hindex]) (by simp [hresult])
          (by simp [hbuffers.2])) fun pointer => ?_
        refine .bind (hr.store (by simp) (by simp)) fun _ => ?_
        exact hlast fun t ht => by simp [ht]
      · exact hlast fun t ht => by simp [ht]

theorem body (hword : .declaration word ∈ known) (hentry : .value entry ∈ known)
    (hcallee : ∀ t ∈ c.uses, t ∈ known) :
    KeepsTrying P V known (c.body word entry)
      fun made => .value made.1 :: made.2.toList.flatMap Cell.uses := by
  unfold Callee.body
  by_cases hneeds : c.signature.needsIndex
  · rw [if_pos hneeds, bind_map_left]
    refine .bind (hr.emitCell hword) fun cell => ?_
    exact hr.finish (by simp [hword]) (by simp [hentry]) (fun t ht => by simp [hcallee t ht])
      (fun t ht => List.mem_append_left _ (by simpa using ht)) hneeds.symm
  · rw [if_neg hneeds, pure_bind]
    exact hr.finish hword hentry hcallee (by simp) (Bool.eq_false_iff.2 hneeds).symm

end CodeRules

/-! ## Appending to a block -/

theorem push_cases (i : Inst Handle) (b : Builder) :
    (∃ e, push i b = (.error e, b)) ∨ ∃ function block, b.function = some function ∧
      b.block = some block ∧ push i b = (.ok (append i b.module).1, { b with
        module := { (append i b.module).2 with
          functions := (append i b.module).2.functions.modify function fun f =>
            { f with blocks := f.blocks.modify block fun b' =>
              { b' with body := b'.body ++ [(append i b.module).1] } } } }) := by
  obtain ⟨m, function, block⟩ := b
  cases function with
  | none => exact .inl ⟨_, rfl⟩
  | some function =>
      cases block with
      | none => exact .inl ⟨_, rfl⟩
      | some block => exact .inr ⟨function, block, rfl, rfl, rfl⟩

theorem getElem?_modify_of_eq {β : Type} {xs : List β} {n : Nat} {x : β} (g : β → β)
    (hx : xs[n]? = some x) : (xs.modify n g)[n]? = some (g x) := by
  rw [List.getElem?_modify, hx]
  simp

/-! ## Entry points -/

def openEntry (void type : Handle) : Build Handle := do
  let entry ← beginFunction void 0 type
  let _ ← beginBlock
  return entry

theorem openEntry_runs (m : Module) (void type : Handle) : ∃ entry m₁ label m₂,
    Module.define (some void) (.function 0 type) m = (entry, m₁) ∧
      Module.define none .label m₁ = (label, m₂) ∧
      Runs (openEntry void type) (.start m) entry
        ⟨{ m₂ with functions := m.functions ++ [⟨entry, [], [⟨label, []⟩]⟩] },
          some m.functions.length, some 0⟩ := by
  let entry := (Module.define (some void) (.function 0 type) m).1
  let m₁ := (Module.define (some void) (.function 0 type) m).2
  let label := (Module.define none .label m₁).1
  let m₂ := (Module.define none .label m₁).2
  let begun : List FunctionDef := m.functions ++ [.empty entry]
  let opened :=
    begun.modify (begun.length - 1) fun f => { f with blocks := f.blocks ++ [⟨label, []⟩] }
  have hlast : begun.length - 1 = m.functions.length := by simp [begun]
  have hopened : opened = m.functions ++ [⟨entry, [], [⟨label, []⟩]⟩] := by
    simp only [opened, hlast]
    exact modify_length_concat _ _ _
  refine ⟨entry, m₁, label, m₂, rfl, rfl, ?_⟩
  have hrun : openEntry void type (.start m) = (.ok entry,
      ⟨{ m₂ with functions := opened }, some (begun.length - 1),
        opened[begun.length - 1]?.map fun f => f.blocks.length - 1⟩) := rfl
  rw [Runs, hrun, hlast, hopened]
  simp

end Builder

theorem Callee.emit_eq_bind (c : Callee) (word void type : Handle) :
    c.emit word void type = (do
      let entry ← Builder.openEntry void type
      c.body word entry) := by
  rw [emit_eq, Builder.openEntry]
  simp only [bind_assoc, pure_bind]
  rfl

def Callee.enter (c : Callee) (k : Kernel) (word void type : Handle) :
    ExceptT KernelError Edit EntryOutcome := do
  let (result, builder) := (c.emit word void type).run.run (.start (← get))
  set builder.module
  let (entry, cell) ← MonadExcept.ofExcept (result.mapError KernelError.module)
  let entryPoint : EntryPoint Handle :=
    { model := .compute, function := entry, name := entryName k.name,
      interface := cell.toList.flatMap Cell.interface, localSize := some ⟨1, 1, 1⟩ }
  modify fun m => { m with entryPoints := m.entryPoints ++ [entryPoint] }
  return .synthesized (entryName k.name)

namespace Module

open Builder (CodeRules openEntry openEntry_runs)

theorem addEntry_of_callee {k : Kernel} {m : Module} {c : Callee}
    (hc : k.callee? m = .ok (some c)) :
    addEntry k m = (do
      let word ← unsignedType 32
      let void ← voidType
      let type ← functionType void []
      c.enter k word void type : ExceptT KernelError (StateM Module) EntryOutcome) m := by
  have hok : (MonadExcept.ofExcept (.ok (some c)) :
      ExceptT KernelError Edit (Option Callee)) = pure (some c) := rfl
  rw [addEntry, get_bind_apply, hc, hok, pure_bind]
  rfl

/-- A property of modules that making entry points keeps: `P` holds of builders on the way. -/
structure EntryRules (Q : Module → Prop) (U : Module → Use → Prop) (P : Builder → Prop)
    (V : Builder → Use → Prop) : Prop extends CodeRules P V where
  declareType {known : List Use} {kind : Kind Handle} : kind.isType →
    (∀ r ∈ kind.references, .declaration r ∈ known) →
    Keeps Q U known (Module.internType kind) fun h => [.declaration h]
  opens {m : Module} {known : List Use} {void type entry : Handle} {b : Builder} : Q m →
    (∀ t ∈ known, U m t) → .declaration void ∈ known → .declaration type ∈ known →
    Runs (openEntry void type) (.start m) entry b → P b ∧ ∀ t ∈ .value entry :: known, V b t
  closes {b : Builder} : P b → Q b.module

namespace EntryRules

variable {Q : Module → Prop} {U : Module → Use → Prop} {P : Builder → Prop}
  {V : Builder → Use → Prop} {known : List Use} {m : Module} (hr : EntryRules Q U P V)

include hr

theorem emit (c : Callee) (word void type : Handle) (hm : Q m) (hknown : ∀ t ∈ known, U m t)
    (hword : .declaration word ∈ known) (hvoid : .declaration void ∈ known)
    (htype : .declaration type ∈ known) (hcallee : ∀ t ∈ c.uses, t ∈ known) :
    (∃ e b, c.emit word void type (.start m) = (.error e, b) ∧ P b) ∨
      ∃ entry cell b, Runs (c.emit word void type) (.start m) (entry, cell) b ∧ P b ∧
        ∀ t ∈ .value entry :: cell.toList.flatMap Cell.uses, V b t := by
  obtain ⟨entry, b₀, hopen⟩ : ∃ entry b₀, Runs (openEntry void type) (.start m) entry b₀ := by
    obtain ⟨entry, _, _, _, -, -, hopen⟩ := openEntry_runs m void type
    exact ⟨entry, _, hopen⟩
  obtain ⟨hP, hV⟩ := hr.opens hm hknown hvoid htype hopen
  have hrun : c.emit word void type (.start m) = c.body word entry b₀ := by
    rw [Callee.emit_eq_bind, bind_apply, hopen]
  have hbody : KeepsTrying P V (.value entry :: known) (c.body word entry) _ :=
    hr.body (by simp [hword]) (by simp) fun t ht => List.mem_cons_of_mem _ (hcallee t ht)
  have hkept := hbody b₀ hP hV
  rcases hresult : c.body word entry b₀ with ⟨e | ⟨entry', cell⟩, b⟩
  all_goals
    have hrun' : (c.body word entry).run b₀ = _ := hresult
    rw [hrun'] at hkept
  · exact .inl ⟨e, b, hrun.trans hresult, hkept.1⟩
  · exact .inr ⟨entry', cell, b, hrun.trans hresult, hkept.1,
      fun t ht => hkept.2 t (List.mem_append_left _ ht)⟩

theorem bindTypes {α : Type}
    {f : Handle → Handle → Handle → ExceptT KernelError (StateM Module) α} (hm : Q m)
    (hknown : ∀ t ∈ known, U m t) (hf : ∀ word void type m', Q m' →
      (∀ t ∈ .declaration type :: .declaration void :: .declaration word :: known, U m' t) →
      Q (f word void type m').2) :
    Q ((do
      let word ← unsignedType 32
      let void ← voidType
      let type ← functionType void []
      f word void type : ExceptT KernelError (StateM Module) α) m).2 := by
  have hdeclare {known : List Use} {kind : Kind Handle} (hkind : kind.isType)
      (hreferences : ∀ r ∈ kind.references, .declaration r ∈ known) :
      KeepsTrying Q U known
        (liftM (Module.internType kind) : ExceptT KernelError (StateM Module) Handle)
        fun h => [.declaration h] := hr.declareType hkind hreferences
  refine (hdeclare rfl (by simp [Kind.references, Kind.operands])).bind_state hm hknown
    fun word m₁ hm₁ hknown => ?_
  refine (hdeclare rfl (by simp [Kind.references, Kind.operands])).bind_state hm₁ hknown
    fun void m₂ hm₂ hknown => ?_
  exact (hdeclare rfl (by simp [Kind.references, Kind.operands])).bind_state hm₂ hknown
    fun type m₃ hm₃ hknown => hf word void type m₃ hm₃ hknown

theorem enter {k : Kernel} (c : Callee) (word void type : Handle) (hm : Q m)
    (hknown : ∀ t ∈ known, U m t) (hword : .declaration word ∈ known)
    (hvoid : .declaration void ∈ known) (htype : .declaration type ∈ known)
    (hcallee : ∀ t ∈ c.uses, t ∈ known)
    (henter : ∀ entry cell b, Runs (c.emit word void type) (.start m) (entry, cell) b → P b →
      V b (.value entry) → (∀ h ∈ cell.toList.flatMap Cell.interface, V b (.declaration h)) →
      Q { b.module with entryPoints := b.module.entryPoints ++ [⟨.compute, entry,
        entryName k.name, cell.toList.flatMap Cell.interface, some ⟨1, 1, 1⟩⟩] }) :
    Q (c.enter k word void type m).2 := by
  rw [Callee.enter, get_bind_apply]
  obtain ⟨e, b, hemit, hb⟩ | ⟨entry, cell, b, hrun, hb, hmade⟩ :=
    hr.emit c word void type hm hknown hword hvoid htype hcallee
  · have hemit : (c.emit word void type).run.run (.start m) = _ := hemit
    simp only [hemit]
    exact hr.closes hb
  · have hemit : (c.emit word void type).run.run (.start m) = _ := hrun
    simp only [hemit]
    refine henter entry cell b hrun hb (hmade _ (by simp)) fun h hh => ?_
    obtain ⟨cell', hcell, hh⟩ := List.mem_flatMap.1 hh
    refine hmade _ (List.mem_cons_of_mem _ (List.mem_flatMap.2 ⟨cell', hcell, ?_⟩))
    simp only [Cell.interface, List.mem_cons, List.not_mem_nil, or_false] at hh
    obtain rfl | rfl := hh <;> simp [Cell.uses]

/-- What is made of a kernel is kept if its callee may be used and the new function may be
entered. -/
theorem addEntry {k : Kernel} (hm : Q m)
    (hcallee : ∀ c, k.callee? m = .ok (some c) → ∀ t ∈ c.uses, U m t)
    (henter : ∀ c m₁ word void type entry cell b, k.callee? m = .ok (some c) → Q m₁ →
      Runs (c.emit word void type) (.start m₁) (entry, cell) b → P b → V b (.value entry) →
      (∀ h ∈ cell.toList.flatMap Cell.interface, V b (.declaration h)) →
      Q { b.module with entryPoints := b.module.entryPoints ++ [⟨.compute, entry,
        entryName k.name, cell.toList.flatMap Cell.interface, some ⟨1, 1, 1⟩⟩] }) :
    Q (Module.addEntry k m).2 := by
  cases hcalled : k.callee? m with
  | error e =>
      rw [Module.addEntry, get_bind_apply, hcalled]
      exact hm
  | ok c? =>
      cases c? with
      | none =>
          rw [Module.addEntry, get_bind_apply, hcalled]
          exact hm
      | some c =>
          rw [addEntry_of_callee hcalled]
          refine hr.bindTypes hm (hcallee c hcalled) fun word void type m₁ hm₁ hknown => ?_
          exact hr.enter c word void type hm₁ hknown (by simp) (by simp) (by simp)
            (by simp +contextual)
            fun entry cell b => henter c m₁ word void type entry cell b hcalled hm₁

end EntryRules

end Module

end KernelGrid
