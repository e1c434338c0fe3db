import KernelGrid.Proofs.Kernel.CodeRules
import KernelGrid.Proofs.Kernel.DataFlow
import KernelGrid.Proofs.Module.Editing
import KernelGrid.Proofs.Module.Soundness

/-!
# Types of calls

An entry point passes to its kernel an element of each input, of the type of its parameter, and
then words for the coordinates that the signature asks for.  What the function takes behind its
inputs is not looked at, so that the call suits the function only if those parameters are
words, and as many.
-/

namespace KernelGrid

open KernelGrid.Module (Line)

structure Call where
  type : Option Handle
  function : Handle
  arguments : List Handle
deriving DecidableEq, Repr

/-- Whether a function takes as many values as are passed, and each is of the type of its
parameter. -/
def Call.Suits (c : Call) (m : Module) (f : FunctionDef) : Prop :=
  c.arguments.map m.typeOf? = f.parameters.map m.typeOf?

namespace Module

def call? (m : Module) (h : Handle) : Option Call :=
  match m.kindOf h with
  | .functionCall function arguments => some ⟨m.typeOf? h, function, arguments⟩
  | _ => none

def calls (m : Module) (f : FunctionDef) : List Call :=
  (f.blocks.flatMap Block.body).filterMap m.call?

/-! ## Lines -/

variable {m m' : Module} {l : Line}

def Line.call? (l : Line) : Option Call :=
  match l.kind with
  | .functionCall function arguments => some ⟨l.type, function, arguments⟩
  | _ => none

theorem Holds.typeOf?_eq (hl : m.Holds l) : m.typeOf? l.handle = l.type := by
  obtain ⟨id, -, hget⟩ := hl
  rw [typeOf?, inst_of_get? hget]

theorem Holds.call?_eq (hl : m.Holds l) : m.call? l.handle = l.call? := by
  rw [Module.call?, hl.kindOf_eq, hl.typeOf?_eq, Line.call?]

end Module

namespace EntryCode

variable {e : EntryCode} {c : Callee} {k : Kernel} {f : FunctionDef} {m m' : Module}
  {word entry void type : Handle} {notes : List (Kind Handle)}

theorem filterMap_call?_lines (e : EntryCode) (c : Callee) :
    (e.lines c).filterMap Line.call? =
      [⟨some c.resultType, c.function, e.arguments c.signature⟩] := by
  have hcell : (e.cell.elim [] CellCode.lines).filterMap Line.call? = [] := by
    cases e.cell <;> rfl
  have hinputs : (e.inputs.flatMap Access.readLines).filterMap Line.call? = [] := by
    rw [List.filterMap_flatMap]
    exact List.flatMap_eq_nil_iff.2 fun _ _ => rfl
  have houtput : (e.output.elim [] (Access.writeLines · e.call)).filterMap Line.call? = [] := by
    cases e.output <;> rfl
  simp only [lines, List.filterMap_append, hcell, hinputs, houtput]
  rfl

theorem Added.calls_eq (he : e.Added c entry void type m notes m') {label : Handle} :
    m'.calls ⟨entry, [], [⟨label, (e.lines c).map Line.handle⟩]⟩ =
      [⟨some c.resultType, c.function, e.arguments c.signature⟩] := by
  rw [Module.calls, List.flatMap_singleton, List.filterMap_map, ← filterMap_call?_lines e c]
  exact List.filterMap_congr fun l hl => (he.holds l hl).call?_eq

theorem Added.typeOf?_inputs (he : e.Added c entry void type m notes m')
    (hfits : e.Fits c word m notes m') :
    (e.inputs.map Access.transfer).map m'.typeOf? = c.inputTypes.map some := by
  have htypes : e.inputs.map Access.element = c.inputTypes := by
    have hspec := congrArg (List.map Prod.fst) hfits.inputs
    simpa [Function.comp_def] using hspec
  rw [← htypes, List.map_map, List.map_map]
  refine List.map_congr_left fun a ha => ?_
  have hmem : ⟨a.transfer, some a.element, .load a.pointer []⟩ ∈ e.lines c :=
    (reads_sublist e c).subset (List.mem_flatMap.2 ⟨a, ha, by simp [Access.readLines]⟩)
  exact (he.holds _ hmem).typeOf?_eq

theorem Added.typeOf?_coordinates (he : e.Added c entry void type m notes m')
    (hfits : e.Fits c word m notes m') :
    (e.cell.elim [] fun cell => cell.cell.coordinates c.signature).map m'.typeOf? =
      List.replicate c.signature.coordinateCount (some word) := by
  cases hcell : e.cell with
  | none =>
      have hneeds := hfits.needsIndex
      rw [hcell, Option.isSome_none] at hneeds
      rw [coordinateCount_eq_zero (Bool.eq_false_iff.1 hneeds.symm)]
      rfl
  | some cell =>
      obtain ⟨rfl, -⟩ := hfits.cell cell hcell
      refine List.eq_replicate_iff.2
        ⟨by rw [List.length_map, Option.elim, length_coordinates], ?_⟩
      refine List.forall_mem_map.2 fun h hh => ?_
      obtain ⟨axis, hindices⟩ : ∃ axis,
          ⟨h, some cell.word, .compositeExtract cell.position [axis]⟩ ∈ cell.lines := by
        obtain rfl | rfl | rfl := Cell.mem_of_mem_coordinates hh
        · exact ⟨0, by simp [CellCode.lines, CellCode.cell]⟩
        · exact ⟨1, by simp [CellCode.lines, CellCode.cell]⟩
        · exact ⟨2, by simp [CellCode.lines, CellCode.cell]⟩
      exact (he.holds _ (mem_lines_of_cell hcell hindices)).typeOf?_eq

end EntryCode

namespace Module

variable {m m' : Module} {k : Kernel} {w : List Word} {name : String}

theorem exists_findFunction?_of_addEntry (hrun : Runs (addEntry k) m (.synthesized name) m') :
    ∃ f, m.findFunction? k.name = some f := by
  obtain ⟨_, _, hget, hrun⟩ := runs_bind.1 hrun
  obtain ⟨rfl, rfl⟩ := runs_get.1 hget
  obtain ⟨r, _, hcallee, hrun⟩ := runs_bind.1 hrun
  obtain ⟨hr, rfl⟩ := runs_ofExcept.1 hcallee
  cases r with
  | none => cases (runs_pure.1 hrun).1
  | some c => exact Kernel.exists_findFunction? hr

/-- An entry point calls its kernel once, with the inputs and as many words as the signature
asks for.  The call suits the function exactly if those words are what it takes behind its
inputs. -/
theorem addEntry_call (hload : load w = .ok m)
    (hrun : Runs (addEntry k) m (.synthesized name) m') :
    ∃ f g call word, m.findFunction? k.name = some f ∧ m'.functions = m.functions ++ [g] ∧
      m'.calls g = [call] ∧ call.function = f.function ∧ call.type = m'.typeOf? f.function ∧
      m'.Describes word ⟨none, .typeInt 32 false⟩ ∧ k.inputs.toNat ≤ f.parameters.length ∧
      call.arguments.map m'.typeOf? = (f.parameters.take k.inputs.toNat).map m'.typeOf? ++
        List.replicate k.signature.coordinateCount (some word) ∧
      (call.Suits m' f ↔ (f.parameters.drop k.inputs.toNat).map m'.typeOf? =
        List.replicate k.signature.coordinateCount (some word)) := by
  have hm := sound_of_load hload
  obtain ⟨f, hf⟩ := exists_findFunction?_of_addEntry hrun
  obtain ⟨notes, entry, word, void, type, c, e, -, hc, -, hword, -, -, hadded, hfits⟩ :=
    addEntry_adds hm.interns hf hrun
  obtain ⟨label, hfunctions⟩ := hadded.functions
  have htype (h : Handle) (hh : h ∈ f.handles) : m'.typeOf? h = m.typeOf? h := by
    have hlisted := mem_listed.2 (.inr ⟨f, mem_functions_of_findFunction? hf, hh⟩)
    exact congrArg Inst.resultType (hadded.adds.inst_eq (hm.stored hlisted))
  have hinputs : (f.parameters.take k.inputs.toNat).map m'.typeOf? = c.inputTypes.map some := by
    rw [← mapM_eq_some.1 hc.inputTypes]
    exact List.map_congr_left fun h hh =>
      htype h (by simp [FunctionDef.handles, List.mem_of_mem_take hh])
  have hpassed : (e.arguments c.signature).map m'.typeOf? =
      (f.parameters.take k.inputs.toNat).map m'.typeOf? ++
        List.replicate k.signature.coordinateCount (some word) := by
    rw [EntryCode.arguments, List.map_append, hadded.typeOf?_inputs hfits,
      hadded.typeOf?_coordinates hfits, hinputs, hc.signature]
  refine ⟨f, _, _, word, hf, hfunctions, hadded.calls_eq, hc.function, ?_, hword, hc.parameters,
    hpassed, ?_⟩
  · rw [htype f.function (by simp [FunctionDef.handles]), hc.resultType]
  · rw [Call.Suits, hpassed]
    nth_rewrite 2 [← List.take_append_drop k.inputs.toNat f.parameters]
    rw [List.map_append, List.append_cancel_left_eq, eq_comm]

def twoWords : List Word :=
  [Stream.magic, 0x10000, 0, 7, 0, 0x30005, 4, 0x66, 0x40015, 1, 32, 0, 0x50021, 2, 1, 1, 1,
    0x50036, 1, 4, 0, 2, 0x30037, 1, 3, 0x30037, 1, 5, 0x200f8, 6, 0x200fe, 3, 0x10038]

/-- As a kernel with one input and one coordinate it is passed two values. -/
theorem addEntry_call_twoWords : ∃ m m' f g call word, load twoWords = .ok m ∧
    Runs (addEntry ⟨"f", ⟨0x2b⟩, 1⟩) m (.synthesized "entry_f") m' ∧
    m.findFunction? "f" = some f ∧ m'.functions = m.functions ++ [g] ∧ m'.calls g = [call] ∧
    m'.Describes word ⟨none, .typeInt 32 false⟩ ∧
    f.parameters.map m'.typeOf? = [some ⟨2⟩, some ⟨2⟩] ∧
    call.arguments.map m'.typeOf? = [some ⟨2⟩, some word] ∧ (call.Suits m' f ↔ word = ⟨2⟩) := by
  have hread : (load twoWords).toOption.map (fun m => ((addEntry ⟨"f", ⟨0x2b⟩, 1⟩ m).1,
      (m.findFunction? "f").map fun f =>
      f.parameters.map (addEntry ⟨"f", ⟨0x2b⟩, 1⟩ m).2.typeOf?)) =
      some (.ok (.synthesized "entry_f"), some [some ⟨2⟩, some ⟨2⟩]) := by
    decide +kernel
  obtain ⟨m, hload, hread⟩ := exists_of_map_toOption hread
  obtain ⟨hok, hparameters⟩ := Prod.mk.inj hread
  have hrun := runs_of_fst_eq hok
  obtain ⟨f, g, call, word, hf, hg, hcall, -, -, hword, -, hpassed, hsuits⟩ :=
    addEntry_call hload hrun
  obtain ⟨_, hf', hparameters⟩ := Option.map_eq_some_iff.1 hparameters
  obtain rfl := Option.some.inj (hf.symm.trans hf')
  rw [List.map_take, hparameters] at hpassed
  rw [List.map_drop, hparameters] at hsuits
  refine ⟨m, _, f, g, call, word, hload, hrun, hf, hg, hcall, hword, hparameters, hpassed, ?_⟩
  rw [hsuits, eq_comm]
  exact ⟨fun heq => Option.some.inj (List.singleton_inj.1 heq), fun heq => heq ▸ rfl⟩

/-- With a second coordinate it is passed more than it takes. -/
theorem not_suits_twoWords : ¬∀ (w : List Word) (k : Kernel) (name : String) (m m' : Module),
    load w = .ok m → Runs (addEntry k) m (.synthesized name) m' →
    ∀ f, m.findFunction? k.name = some f →
    ∀ call ∈ (m'.functions.drop m.functions.length).flatMap m'.calls, call.Suits m' f := by
  intro hall
  have hread : (load twoWords).toOption.map (fun m => ((addEntry ⟨"f", ⟨0x3b⟩, 1⟩ m).1,
      (m.findFunction? "f").map fun f => f.parameters.length,
      (((addEntry ⟨"f", ⟨0x3b⟩, 1⟩ m).2.functions.drop m.functions.length).flatMap
        (addEntry ⟨"f", ⟨0x3b⟩, 1⟩ m).2.calls).map fun call => call.arguments.length)) =
      some (.ok (.synthesized "entry_f"), some 2, [3]) := by
    decide +kernel
  obtain ⟨m, hload, hread⟩ := exists_of_map_toOption hread
  obtain ⟨hok, hrest⟩ := Prod.mk.inj hread
  obtain ⟨hparameters, hcalls⟩ := Prod.mk.inj hrest
  obtain ⟨f, hf, htwo⟩ := Option.map_eq_some_iff.1 hparameters
  obtain ⟨call, heq, hthree⟩ := List.map_eq_singleton_iff.1 hcalls
  have hsuits :=
    hall twoWords ⟨"f", ⟨0x3b⟩, 1⟩ "entry_f" m _ hload (runs_of_fst_eq hok) f hf call
      (by rw [heq]; exact List.mem_singleton_self call)
  have hlength := congrArg List.length hsuits
  rw [List.length_map, List.length_map, htwo, hthree] at hlength
  cases hlength

end Module

end KernelGrid
