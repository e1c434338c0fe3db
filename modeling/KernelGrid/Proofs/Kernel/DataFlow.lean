import KernelGrid.Proofs.Kernel.EntryPoint

/-!
# The data flow of an entry point

Each input is loaded from a buffer of its own, the kernel is called once, with the inputs and
then the coordinates that it takes, and its result is stored if it has an output.
-/

namespace KernelGrid

open KernelGrid.Module (Line)

/-- How many coordinates a kernel takes: a later one only together with those before it. -/
def Signature.coordinateCount (s : Signature) : Nat :=
  if s.contains x then if s.contains y then if s.contains z then 3 else 2 else 1 else 0

namespace Module

def IsCoordinate (m : Module) (code : List Line) (h : Handle) (axis : Nat) : Prop :=
  ∃ word triple position var,
    ⟨h, some word, .compositeExtract position [axis.toUInt32]⟩ ∈ code ∧
    ⟨position, some triple, .load var []⟩ ∈ code ∧
    m.Describes word ⟨none, .typeInt 32 false⟩ ∧ m.Describes triple ⟨none, .typeVector word 3⟩ ∧
    m.IsBuiltInVar var BuiltIn.globalInvocationId

def IsInterface (m : Module) (s : Signature) (interface : List Handle) : Prop :=
  if s.needsIndex then
    ∃ position groups, interface = [position, groups] ∧
      m.IsBuiltInVar position BuiltIn.globalInvocationId ∧
      m.IsBuiltInVar groups BuiltIn.numWorkgroups
  else interface = []

end Module

/-- What adding the entry point of kernel `k`, whose function is `f`, makes of module `m`. -/
structure EntryFlow (k : Kernel) (f : FunctionDef) (m m' : Module) (code : List Line)
    (inputs : List Access) (output : Option Access) (passed : List Handle) : Prop where
  /-- There is one function more, without parameters and result, and with a single block. -/
  added : ∃ entry label void type interface,
    m'.functions = m.functions ++ [⟨entry, [], [⟨label, code.map Line.handle⟩]⟩] ∧
    m.insts.get? entry = none ∧ m'.Results entry void (.function 0 type) ∧
    m'.Describes void ⟨none, .typeVoid⟩ ∧ m'.Describes type ⟨none, .typeFunction void []⟩ ∧
    m'.entryPoints = m.entryPoints ++
      [⟨.compute, entry, "entry_" ++ k.name, interface, some ⟨1, 1, 1⟩⟩] ∧
    m'.IsInterface k.signature interface
  /-- The lines of the block are new, and each says what it shows. -/
  stated : ∀ l ∈ code, m.insts.get? l.handle = none ∧ m'.Holds l
  inputCount : inputs.length = k.inputs.toNat
  inputTypes : ∀ (i : Nat) (a : Access), inputs[i]? = some a →
    ∃ p, f.parameters[i]? = some p ∧ m.typeOf? p = some a.element ∧ a.binding = 2 + i.toUInt32
  isOutput : output.isSome = k.signature.contains .output
  outputType : ∀ a ∈ output, m.typeOf? f.function = some a.element ∧ a.binding = 1
  /-- Each buffer is a new variable that is bound to its slot and not decorated otherwise. -/
  buffers : ∃ notes, m.Adds notes m' ∧ ∀ a ∈ inputs ++ output.toList,
    m.insts.get? a.buffer = none ∧ m'.IsBuffer notes a.buffer a.element a.binding ∧
    m'.Describes a.type ⟨none, .typePointer .uniform a.element⟩
  distinct : ((inputs ++ output.toList).map Access.buffer).Nodup
  /-- Inputs are read one after the other, each through a pointer of its own. -/
  reads : (inputs.flatMap Access.readLines).Sublist code
  chains : code.filter (fun l => l.kind.opcode = Form.accessChain.opcode) =
    (inputs ++ output.toList).map Access.chain
  coordinateCount : passed.length = k.signature.coordinateCount
  isCoordinate : ∀ (axis : Nat) (h : Handle), passed[axis]? = some h →
    m'.IsCoordinate code h axis
  /-- There is one call, and its result is all that is stored. -/
  call : ∃ call type, m.typeOf? f.function = some type ∧
    code.filter (fun l => l.kind.opcode = Form.functionCall.opcode) =
      [⟨call, some type, .functionCall f.function (inputs.map Access.transfer ++ passed)⟩] ∧
    code.filter (fun l => l.kind.opcode = Form.store.opcode) =
      output.toList.map fun a => ⟨a.transfer, none, .store a.pointer call []⟩

namespace EntryCode

variable {e : EntryCode} {c : Callee} {k : Kernel} {f : FunctionDef} {m m' : Module}
  {word entry void type : Handle} {notes : List (Kind Handle)}

/-! ## Lines of one opcode -/

def linesOf (form : Form) (ls : List Line) : List Line :=
  ls.filter fun l => l.kind.opcode = form.opcode

theorem linesOf_lines (form : Form) (e : EntryCode) (c : Callee) :
    linesOf form (e.lines c) = linesOf form (e.cell.elim [] CellCode.lines) ++
      e.inputs.flatMap (fun a => linesOf form a.readLines) ++
      linesOf form [⟨e.call, some c.resultType,
        .functionCall c.function (e.arguments c.signature)⟩] ++
      linesOf form (e.output.elim [] (Access.writeLines · e.call)) ++
      linesOf form [⟨e.ret, none, .ret⟩] := by
  simp only [linesOf, lines, List.filter_append, List.filter_flatMap]

theorem linesOf_call (e : EntryCode) (c : Callee) :
    linesOf .functionCall (e.lines c) =
      [⟨e.call, some c.resultType, .functionCall c.function (e.arguments c.signature)⟩] := by
  have hcell : linesOf .functionCall (e.cell.elim [] CellCode.lines) = [] := by
    cases e.cell <;> rfl
  have hinputs : e.inputs.flatMap (fun a => linesOf .functionCall a.readLines) = [] :=
    List.flatMap_eq_nil_iff.2 fun _ _ => rfl
  have houtput : linesOf .functionCall (e.output.elim [] (Access.writeLines · e.call)) = [] := by
    cases e.output <;> rfl
  rw [linesOf_lines, hcell, hinputs, houtput]
  rfl

theorem linesOf_store (e : EntryCode) (c : Callee) :
    linesOf .store (e.lines c) =
      e.output.toList.map fun a => ⟨a.transfer, none, .store a.pointer e.call []⟩ := by
  have hcell : linesOf .store (e.cell.elim [] CellCode.lines) = [] := by
    cases e.cell <;> rfl
  have hinputs : e.inputs.flatMap (fun a => linesOf .store a.readLines) = [] :=
    List.flatMap_eq_nil_iff.2 fun _ _ => rfl
  rw [linesOf_lines, hcell, hinputs]
  cases e.output <;> rfl

theorem linesOf_accessChain (e : EntryCode) (c : Callee) :
    linesOf .accessChain (e.lines c) = e.accesses.map Access.chain := by
  have hcell : linesOf .accessChain (e.cell.elim [] CellCode.lines) = [] := by
    cases e.cell <;> rfl
  have hinputs : e.inputs.flatMap (fun a => linesOf .accessChain a.readLines) =
      e.inputs.map Access.chain := by
    rw [List.map_eq_flatMap]
    rfl
  have houtput : linesOf .accessChain (e.output.elim [] (Access.writeLines · e.call)) =
      e.output.toList.map Access.chain := by
    cases e.output <;> rfl
  have hcall : linesOf .accessChain [⟨e.call, some c.resultType,
      .functionCall c.function (e.arguments c.signature)⟩] = [] := rfl
  have hret : linesOf .accessChain [⟨e.ret, none, .ret⟩] = [] := rfl
  rw [linesOf_lines, hcell, hinputs, houtput, hcall, hret, accesses, List.map_append,
    List.nil_append, List.append_nil, List.append_nil]

theorem reads_sublist (e : EntryCode) (c : Callee) :
    (e.inputs.flatMap Access.readLines).Sublist (e.lines c) := by
  simp only [lines, List.append_assoc]
  exact (List.sublist_append_left _ _).trans (List.sublist_append_right _ _)

theorem mem_lines_of_cell {cell : CellCode} (hcell : e.cell = some cell) {l : Line}
    (hl : l ∈ cell.lines) : l ∈ e.lines c := by
  simp only [lines, hcell, Option.elim, List.append_assoc]
  exact List.mem_append_left _ hl

/-! ## Coordinates -/

theorem length_coordinates (cell : Cell) (s : Signature) :
    (cell.coordinates s).length = s.coordinateCount := by
  unfold Cell.coordinates Signature.coordinateCount
  repeat' split
  all_goals rfl

theorem coordinateCount_eq_zero {s : Signature} (hneeds : ¬s.needsIndex) :
    s.coordinateCount = 0 :=
  if_neg fun hx => hneeds (Signature.needsIndex_of_x hx)

theorem getElem?_coordinates {cell : Cell} {s : Signature} {axis : Nat} {h : Handle}
    (hh : (cell.coordinates s)[axis]? = some h) :
    axis = 0 ∧ cell.x = h ∨ axis = 1 ∧ cell.y = h ∨ axis = 2 ∧ cell.z = h := by
  have hprefix : cell.coordinates s <+: [cell.x, cell.y, cell.z] := by
    unfold Cell.coordinates
    repeat' split
    · exact List.prefix_rfl
    · exact ⟨[cell.z], rfl⟩
    · exact ⟨[cell.y, cell.z], rfl⟩
    · exact List.nil_prefix
  obtain ⟨rest, hrest⟩ := hprefix
  have hall : [cell.x, cell.y, cell.z][axis]? = some h := by
    rw [← hrest, List.getElem?_append_left (List.getElem?_eq_some_iff.1 hh).1, hh]
  rcases axis with _ | _ | _ | axis
  · exact .inl ⟨rfl, Option.some.inj hall⟩
  · exact .inr (.inl ⟨rfl, Option.some.inj hall⟩)
  · exact .inr (.inr ⟨rfl, Option.some.inj hall⟩)
  · cases hall

theorem Fits.isCoordinate {cell : CellCode} (he : e.Fits c word m notes m')
    (hcell : e.cell = some cell) (hword : m'.Describes word ⟨none, .typeInt 32 false⟩)
    {s : Signature} {axis : Nat} {h : Handle} (hh : (cell.cell.coordinates s)[axis]? = some h) :
    m'.IsCoordinate (e.lines c) h axis := by
  obtain ⟨rfl, hoperands⟩ := he.cell cell hcell
  have hmem {l : Line} (hl : l ∈ cell.lines) : l ∈ e.lines c := mem_lines_of_cell hcell hl
  have hposition : ⟨cell.position, some cell.triple, .load cell.invocationId []⟩ ∈ e.lines c :=
    hmem (by simp [CellCode.lines])
  refine ⟨cell.word, cell.triple, cell.position, cell.invocationId, ?_, hposition, hword,
    hoperands.triple, hoperands.invocationId⟩
  obtain ⟨rfl, rfl⟩ | ⟨rfl, rfl⟩ | ⟨rfl, rfl⟩ := getElem?_coordinates hh
  · exact hmem (by simp [CellCode.lines, CellCode.cell])
  · exact hmem (by simp [CellCode.lines, CellCode.cell])
  · exact hmem (by simp [CellCode.lines, CellCode.cell])

theorem Fits.isInterface (he : e.Fits c word m notes m') :
    m'.IsInterface c.signature e.interface := by
  rw [Module.IsInterface, ← he.needsIndex]
  cases hcell : e.cell with
  | none => simp [interface, hcell]
  | some cell =>
      obtain ⟨-, hoperands⟩ := he.cell cell hcell
      simp only [interface, hcell, Option.isSome_some, if_true, Option.elim]
      exact ⟨_, _, rfl, hoperands.invocationId, hoperands.numWorkgroups⟩

/-! ## Inputs -/

/-- Input `i` is of the type of parameter `i` and is bound to slot `2 + i`. -/
theorem Fits.inputType (he : e.Fits c word m notes m') (hc : k.Calls m f c) {i : Nat}
    {a : Access} (ha : e.inputs[i]? = some a) :
    ∃ p, f.parameters[i]? = some p ∧ m.typeOf? p = some a.element ∧
      a.binding = 2 + i.toUInt32 := by
  have hspec := congrArg (·[i]?) he.inputs
  have htypes := congrArg (·[i]?) (mapM_eq_some.1 hc.inputTypes)
  simp only [List.getElem?_map, ha, Option.map_some, List.getElem?_zipIdx] at hspec
  obtain ⟨⟨element, _⟩, hi, heq⟩ := Option.map_eq_some_iff.1 hspec.symm
  obtain ⟨type, htype, hpair⟩ := Option.map_eq_some_iff.1 hi
  simp only [Prod.mk.injEq, Nat.zero_add] at hpair heq
  obtain ⟨rfl, rfl⟩ := hpair
  obtain ⟨rfl, hbinding⟩ := heq
  simp only [List.getElem?_map, htype, Option.map_some] at htypes
  obtain ⟨p, hp, htype⟩ := Option.map_eq_some_iff.1 htypes
  rw [List.getElem?_take] at hp
  split at hp
  · exact ⟨p, hp, htype, hbinding.symm⟩
  · cases hp

end EntryCode

open EntryCode in
/-- The data flow of the entry point of every kernel that is found and accepted. -/
theorem Module.addEntry_flow {k : Kernel} {m m' : Module} {f : FunctionDef}
    {outcome : EntryOutcome} (hm : m.Interns) (hf : m.findFunction? k.name = some f)
    (hrun : Runs (addEntry k) m outcome m') :
    outcome = .synthesized ("entry_" ++ k.name) ∧
      ∃ code inputs output passed, EntryFlow k f m m' code inputs output passed := by
  obtain ⟨notes, entry, word, void, type, c, e, hname, hc, hentries, hword, hvoid, htype, hadded,
    hfits⟩ := addEntry_adds hm hf hrun
  refine ⟨hname, e.lines c, e.inputs, e.output,
    e.cell.elim [] fun cell => cell.cell.coordinates c.signature, ?_⟩
  obtain ⟨label, hfunctions⟩ := hadded.functions
  constructor
  case added =>
    refine ⟨entry, label, void, type, e.interface, hfunctions, hadded.isFunction.1,
      hadded.isFunction.2, hvoid, htype, hentries, ?_⟩
    rw [← hc.signature]
    exact hfits.isInterface
  case stated => exact fun l hl => ⟨hadded.fresh l hl, hadded.holds l hl⟩
  case inputCount =>
    have hlength := congrArg List.length hfits.inputs
    rw [List.length_map, List.length_map, List.length_zipIdx, hc.inputTypes_length] at hlength
    exact hlength
  case inputTypes => exact fun i a ha => hfits.inputType hc ha
  case isOutput =>
    have hsome := congrArg Option.isSome hfits.output
    rw [Option.isSome_map, hc.signature] at hsome
    rw [hsome]
    cases k.signature.contains .output <;> rfl
  case outputType =>
    intro a ha
    have hspec := hfits.output
    rw [Option.mem_def.1 ha, Option.map_some] at hspec
    split at hspec
    · obtain ⟨helement, hbinding⟩ := Prod.mk.inj (Option.some.inj hspec)
      exact ⟨helement ▸ hc.resultType, hbinding⟩
    · cases hspec
  case buffers =>
    refine ⟨notes, hadded.adds, fun a ha => ?_⟩
    obtain ⟨-, hfresh, hoperands⟩ := hfits.accesses a ha
    exact ⟨hfresh, hoperands.buffer, hoperands.type⟩
  case distinct => exact hfits.distinct
  case reads => exact reads_sublist e c
  case chains => exact linesOf_accessChain e c
  case coordinateCount =>
    rw [← hc.signature]
    cases hcell : e.cell with
    | some cell => exact length_coordinates _ _
    | none =>
        have hneeds := hfits.needsIndex
        rw [hcell, Option.isSome_none] at hneeds
        exact (coordinateCount_eq_zero (Bool.eq_false_iff.1 hneeds.symm)).symm
  case isCoordinate =>
    intro axis h hh
    cases hcell : e.cell with
    | some cell =>
        rw [hcell] at hh
        exact hfits.isCoordinate hcell hword hh
    | none =>
        rw [hcell] at hh
        cases hh
  case call =>
    have hcall := linesOf_call e c
    rw [hc.function] at hcall
    exact ⟨e.call, c.resultType, hc.resultType, hcall, linesOf_store e c⟩

namespace Module

def addingKernel : Module :=
  { empty with
    header := ⟨0x10000, 0, 6⟩
    insts := ⟨#[⟨none, some 1, .typeInt 32 false⟩, ⟨none, some 2, .typeFunction ⟨0⟩ [⟨0⟩, ⟨0⟩]⟩,
      ⟨some ⟨0⟩, some 3, .function 0 ⟨1⟩⟩, ⟨some ⟨0⟩, some 4, .functionParameter⟩,
      ⟨some ⟨0⟩, some 5, .functionParameter⟩, .plain (.debugName ⟨2⟩ "add")]⟩
    debug := [⟨5⟩]
    globals := [⟨0⟩, ⟨1⟩]
    functions := [⟨⟨2⟩, [⟨3⟩, ⟨4⟩], []⟩]
    interned := [(⟨none, .typeInt 32 false⟩, ⟨0⟩)] }

/-- Both words come from buffers, and the sum goes to one. -/
theorem addEntry_flow_addingKernel :
    ∃ m', Runs (addEntry ⟨"add", ⟨0x23⟩, 2⟩) addingKernel (.synthesized "entry_add") m' ∧
      ∃ code inputs output passed,
      EntryFlow ⟨"add", ⟨0x23⟩, 2⟩ ⟨⟨2⟩, [⟨3⟩, ⟨4⟩], []⟩ addingKernel m'
        code inputs output passed := by
  have hinterns : addingKernel.Interns := by
    intro d h hd
    obtain ⟨rfl, rfl⟩ := Prod.mk.inj (List.mem_singleton.1 hd)
    rfl
  have hok : (addEntry ⟨"add", ⟨0x23⟩, 2⟩ addingKernel).1 = .ok (.synthesized "entry_add") := by
    decide +kernel
  have hrun := runs_of_fst_eq hok
  exact ⟨_, hrun, (addEntry_flow hinterns (by decide +kernel) hrun).2⟩

end Module

end KernelGrid
