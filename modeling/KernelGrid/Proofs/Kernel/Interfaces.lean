import KernelGrid.Proofs.Kernel.Output
import KernelGrid.Proofs.Kernel.Ports

/-!
# Interfaces of new entry points

The interface of a new entry point follows from the signature of its kernel alone: it has the
variables that the code of a cell reads.  Besides these the entry point uses what the kernel
uses, so that the interface is complete if the kernel uses nothing else.
-/

namespace KernelGrid

open KernelGrid.Module

theorem Kind.isPort_of_isCode {k : Kind Handle} (hk : k.isCode) :
    k.isPort = false ∧ k.unread = [] := by
  cases k
  case load | store | accessChain | compositeExtract | iAdd | iMul | functionCall | ret =>
    exact ⟨rfl, rfl⟩
  all_goals cases hk

/-! ## What the code of an entry point mentions -/

theorem CellCode.isCode {c : CellCode} {l : Line} (hl : l ∈ c.lines) : l.kind.isCode := by
  have hall : c.lines.Forall fun l => l.kind.isCode := by
    refine ⟨?_, ?_, ?_, ?_, ?_, ?_, ?_, ?_, ?_, ?_, ?_, ?_, ?_, ?_, ?_⟩
    all_goals rfl
  exact List.forall_iff_forall_mem.1 hall l hl

def CellCode.outside (c : CellCode) : List Handle :=
  [c.word, c.triple, c.groupSize, c.invocationId, c.numWorkgroups]

def Module.Line.references (l : Line) : List Handle := l.type.toList ++ l.kind.references

theorem Module.Holds.references_eq {m : Module} {l : Line} (hl : m.Holds l) :
    (m.inst l.handle).references = l.references := by
  obtain ⟨id, -, hget⟩ := hl
  rw [inst_of_get? hget]
  rfl

theorem CellCode.references_subset {c : CellCode} {l : Line} (hl : l ∈ c.lines) :
    l.references ⊆ c.outside ++ c.lines.map Line.handle := by
  have hall : c.lines.Forall fun l => l.references ⊆ c.outside ++ c.lines.map Line.handle := by
    refine ⟨?_, ?_, ?_, ?_, ?_, ?_, ?_, ?_, ?_, ?_, ?_, ?_, ?_, ?_, ?_⟩
    all_goals
      simp [Line.references, Kind.references, Kind.operands, outside, lines, List.filterMap_cons]
  exact List.forall_iff_forall_mem.1 hall l hl

theorem Module.IsBuffer.isPort_eq_false {m : Module} {notes : List (Kind Handle)}
    {var element : Handle} {binding : Word} (hvar : m.IsBuffer notes var element binding) :
    (m.kindOf var).isPort = false := by
  obtain ⟨block, array, stride, hblock, -⟩ := hvar.block
  obtain ⟨pointer, hstored, -⟩ := hblock.stored
  rw [hstored.kindOf_eq]
  decide

namespace EntryCode

variable {e : EntryCode} {c : Callee} {word entry void type r : Handle} {m m' : Module}
  {notes : List (Kind Handle)} {l : Line}

theorem mem_lines_cases (hl : l ∈ e.lines c) :
    (∃ cell, e.cell = some cell ∧ l ∈ cell.lines) ∨ (∃ a ∈ e.inputs, l ∈ a.readLines) ∨
      l = ⟨e.call, some c.resultType, .functionCall c.function (e.arguments c.signature)⟩ ∨
      (∃ a, e.output = some a ∧ l ∈ a.writeLines e.call) ∨ l = ⟨e.ret, none, .ret⟩ := by
  simp only [lines, List.mem_append, List.mem_flatMap, List.mem_singleton] at hl
  obtain (((hl | hl) | hl) | hl) | hl := hl
  · cases hcell : e.cell with
    | none =>
        rw [hcell] at hl
        cases hl
    | some cell =>
        rw [hcell] at hl
        exact .inl ⟨cell, rfl, hl⟩
  · exact .inr (.inl hl)
  · exact .inr (.inr (.inl hl))
  · cases houtput : e.output with
    | none =>
        rw [houtput] at hl
        cases hl
    | some a =>
        rw [houtput] at hl
        exact .inr (.inr (.inr (.inl ⟨a, rfl, hl⟩)))
  · exact .inr (.inr (.inr (.inr hl)))

theorem call_mem_lines (e : EntryCode) (c : Callee) :
    ⟨e.call, some c.resultType, .functionCall c.function (e.arguments c.signature)⟩ ∈
      e.lines c := by
  simp [lines]

theorem isCode_of_mem_lines (hl : l ∈ e.lines c) : l.kind.isCode := by
  obtain ⟨cell, -, hl⟩ | ⟨a, -, hl⟩ | rfl | ⟨a, -, hl⟩ | rfl := mem_lines_cases hl
  · exact CellCode.isCode hl
  · obtain rfl | rfl : l = a.chain ∨ l = _ := by simpa [Access.readLines] using hl
    all_goals rfl
  · rfl
  · obtain rfl | rfl : l = a.chain ∨ l = _ := by simpa [Access.writeLines] using hl
    all_goals rfl
  · rfl

variable (hfits : e.Fits c word m notes m') (hadded : e.Added c entry void type m notes m')

section

include hadded

theorem Added.isPort_line (hl : l ∈ e.lines c) : (m'.kindOf l.handle).isPort = false := by
  rw [(hadded.holds l hl).kindOf_eq]
  exact (Kind.isPort_of_isCode (isCode_of_mem_lines hl)).1

theorem Added.isPort_input {a : Access} (ha : a ∈ e.inputs) (hl : l ∈ a.readLines) :
    (m'.kindOf l.handle).isPort = false :=
  hadded.isPort_line ((reads_sublist e c).subset (List.mem_flatMap.2 ⟨a, ha, hl⟩))

end

include hfits hadded

theorem Fits.isPort_chain {a : Access} (ha : a ∈ e.accesses) (hr : r ∈ a.chain.references) :
    (m'.kindOf r).isPort = false := by
  obtain ⟨⟨cell, hcell, hindices⟩, -, hoperands⟩ := hfits.accesses a ha
  obtain rfl | rfl | rfl | rfl : r = a.type ∨ r = a.buffer ∨ r = e.zero ∨ r = cell.index := by
    simpa [Access.chain, Line.references, Kind.references, Kind.operands, hindices,
      List.filterMap_cons] using hr
  · rw [hoperands.type.kindOf_eq]
    rfl
  · exact hoperands.buffer.isPort_eq_false
  · rw [hfits.zero.kindOf_eq]
    rfl
  · refine hadded.isPort_line
      (l := ⟨cell.index, some cell.word, .iAdd cell.cellsBefore cell.x⟩) ?_
    exact mem_lines_of_cell hcell (by simp [CellCode.lines])

theorem Fits.isPort_argument (hword : m'.Describes word ⟨none, .typeInt 32 false⟩)
    {s : Signature} (hr : r ∈ e.arguments s) : (m'.kindOf r).isPort = false := by
  obtain hr | hr := List.mem_append.1 hr
  · obtain ⟨a, ha, rfl⟩ := List.mem_map.1 hr
    exact hadded.isPort_input ha (l := ⟨a.transfer, some a.element, .load a.pointer []⟩)
      (by simp [Access.readLines])
  · cases hcell : e.cell with
    | none =>
        rw [hcell] at hr
        cases hr
    | some cell =>
        rw [hcell] at hr
        obtain ⟨axis, haxis⟩ := List.mem_iff_getElem?.1 hr
        obtain ⟨_, _, _, _, hl, -⟩ := hfits.isCoordinate hcell hword haxis
        exact hadded.isPort_line hl

/-- Ports are mentioned only where a cell is computed, unless the kernel mentions them as
types. -/
theorem Fits.mem_of_isPort (hword : m'.Describes word ⟨none, .typeInt 32 false⟩)
    (hl : l ∈ e.lines c) (hr : r ∈ l.references) (hport : (m'.kindOf r).isPort) :
    r ∈ e.interface ∨ r ∈ c.handles := by
  have hnot {P : Prop} (h : (m'.kindOf r).isPort = false) : P := by
    rw [hport] at h
    cases h
  have hdescribed {d : Description} (h : m'.Describes r d) (hd : d.kind.isPort = false) :
      (m'.kindOf r).isPort = false := by rw [h.kindOf_eq, hd]
  obtain ⟨cell, hcell, hl⟩ | ⟨a, ha, hl⟩ | rfl | ⟨a, ha, hl⟩ | rfl := mem_lines_cases hl
  · obtain ⟨rfl, hoperands⟩ := hfits.cell cell hcell
    obtain hr | hr := List.mem_append.1 (CellCode.references_subset hl hr)
    · obtain rfl | rfl | rfl | hr : r = cell.word ∨ r = cell.triple ∨ r = cell.groupSize ∨
          r ∈ cell.cell.interface := by
        simpa [CellCode.outside, Cell.interface, CellCode.cell] using hr
      · exact hnot (hdescribed hword rfl)
      · exact hnot (hdescribed hoperands.triple rfl)
      · exact hnot (hdescribed hoperands.groupSize rfl)
      · left
        rw [interface, hcell]
        exact hr
    · obtain ⟨l', hl', rfl⟩ := List.mem_map.1 hr
      exact hnot (hadded.isPort_line (mem_lines_of_cell hcell hl'))
  · obtain rfl | rfl : l = a.chain ∨ l = ⟨a.transfer, some a.element, .load a.pointer []⟩ := by
      simpa [Access.readLines] using hl
    · exact hnot (hfits.isPort_chain hadded (List.mem_append_left _ ha) hr)
    · obtain rfl | rfl : r = a.element ∨ r = a.pointer := by
        simpa [Line.references, Kind.references, Kind.operands, List.filterMap_cons] using hr
      · have hmem := List.mem_map_of_mem (f := fun a : Access => (a.element, a.binding)) ha
        rw [hfits.inputs, List.mem_map] at hmem
        obtain ⟨⟨element, i⟩, hi, heq⟩ := hmem
        obtain ⟨rfl, -⟩ := Prod.mk.inj heq
        right
        exact List.mem_cons_of_mem _ (List.mem_cons_of_mem _ (List.fst_mem_of_mem_zipIdx hi))
      · exact hnot (hadded.isPort_input ha (l := a.chain) (by simp [Access.readLines]))
  · obtain rfl | rfl | hr : r = c.resultType ∨ r = c.function ∨ r ∈ e.arguments c.signature := by
      simpa [Line.references, Kind.references, Kind.operands, List.filterMap_cons] using hr
    · exact .inr (by simp [Callee.handles])
    · exact .inr (by simp [Callee.handles])
    · exact hnot (hfits.isPort_argument hadded hword hr)
  · obtain rfl | rfl : l = a.chain ∨ l = ⟨a.transfer, none, .store a.pointer e.call []⟩ := by
      simpa [Access.writeLines] using hl
    · refine hnot (hfits.isPort_chain hadded (List.mem_append_right _ ?_) hr)
      rw [ha]
      exact List.mem_singleton_self a
    · obtain rfl | rfl : r = a.pointer ∨ r = e.call := by
        simpa [Line.references, Kind.references, Kind.operands, List.filterMap_cons] using hr
      · refine hnot (hadded.isPort_line (l := a.chain) ?_)
        simp [lines, ha, Access.writeLines]
      · exact hnot (hadded.isPort_line (call_mem_lines e c))
  · cases hr

end EntryCode

/-! ## Entry points -/

theorem Kernel.Calls.mem_references {k : Kernel} {m : Module} {f : FunctionDef} {c : Callee}
    (hc : k.Calls m f c) {r : Handle} (hr : r ∈ c.handles) :
    r = f.function ∨ ∃ g ∈ f.handles, r ∈ (m.inst g).references := by
  have hmentions {g : Handle} (htype : m.typeOf? g = some r) : r ∈ (m.inst g).references :=
    Inst.mem_references.2 (.inl htype)
  obtain rfl | rfl | hr : r = c.function ∨ r = c.resultType ∨ r ∈ c.inputTypes := by
    simpa [Callee.handles] using hr
  · exact .inl hc.function
  · exact .inr ⟨f.function, List.mem_cons_self, hmentions hc.resultType⟩
  · have hmem := List.mem_map_of_mem (f := some) hr
    rw [← mapM_eq_some.1 hc.inputTypes, List.mem_map] at hmem
    obtain ⟨g, hg, htype⟩ := hmem
    exact .inr ⟨g, List.mem_append_left _ (List.mem_cons_of_mem _ (List.mem_of_mem_take hg)),
      hmentions htype⟩

namespace EntryCode

variable {code : EntryCode} {c : Callee} {word entry void type : Handle} {m m' : Module}
  {notes : List (Kind Handle)} {l : Line}

theorem Added.callee_eq (hadded : code.Added c entry void type m notes m')
    (hl : l ∈ code.lines c) {callee : Handle} {arguments : List Handle}
    (hkind : m'.kindOf l.handle = .functionCall callee arguments) : callee = c.function := by
  rw [(hadded.holds l hl).kindOf_eq] at hkind
  have hmem : l ∈ linesOf .functionCall (code.lines c) :=
    List.mem_filter.2 ⟨hl, by simp [hkind, Kind.opcode]⟩
  rw [linesOf_call, List.mem_singleton] at hmem
  subst hmem
  exact (Kind.functionCall.inj hkind).1.symm

theorem exists_load_of_mem_interface {v : Handle} (hv : v ∈ code.interface) :
    ∃ l ∈ code.lines c, v ∈ l.references := by
  cases hcell : code.cell with
  | none =>
      rw [interface, hcell] at hv
      cases hv
  | some cell =>
      have hload {h : Handle} (hl : ⟨h, some cell.triple, .load v []⟩ ∈ cell.lines) :
          ∃ l ∈ code.lines c, v ∈ l.references :=
        ⟨_, mem_lines_of_cell hcell hl,
          by simp [Line.references, Kind.references, Kind.operands]⟩
      rw [interface, hcell] at hv
      obtain rfl | rfl : v = cell.invocationId ∨ v = cell.numWorkgroups := by
        simpa [Cell.interface, CellCode.cell] using hv
      · exact hload (h := cell.position) (by simp [CellCode.lines])
      · exact hload (h := cell.groups) (by simp [CellCode.lines])

end EntryCode

namespace Module

variable {m m' : Module} {k : Kernel} {f : FunctionDef} {outcome : EntryOutcome}

structure Invokes (m : Module) (k : Kernel) (f : FunctionDef) (e : EntryPoint Handle) :
    Prop where
  name : e.name = entryName k.name
  interface : m.IsInterface k.signature e.interface
  forwards : ∃ w, m.Forwards w f e.interface ∧ w.function = e.function

theorem Invokes.continues {e : EntryPoint Handle} (he : m.Invokes k f e) (hm : m.Sound)
    (hmm : m.Continues m') : m'.Invokes k f e := by
  obtain ⟨w, hw, heq⟩ := he.forwards
  exact ⟨he.name, he.interface.mono fun _ _ hvar => hvar.continues hm hmm, w,
    hw.continues hm hmm, heq⟩

theorem Sound.invokes_addEntry (hm : m.Sound) (hf : m.findFunction? k.name = some f)
    (hrun : Runs (Module.addEntry k) m outcome m') :
    ∃ e, m'.entryPoints = m.entryPoints ++ [e] ∧ m'.Invokes k f e := by
  obtain ⟨notes, entry, word, void, type, c, code, -, hc, hentries, hword, hvoid, htype, hadded,
    hfits⟩ := addEntry_adds hm.interns hf hrun
  obtain ⟨label, hfunctions⟩ := hadded.functions
  have hm' := hm.of_runs_addEntry hrun
  have hfmem := mem_functions_of_findFunction? hf
  refine ⟨_, hentries, rfl, hc.signature ▸ hfits.isInterface,
    ⟨entry, [], [⟨label, (code.lines c).map Line.handle⟩]⟩, ?_, rfl⟩
  generalize hw : (⟨entry, [], [⟨label, (code.lines c).map Line.handle⟩]⟩ : FunctionDef) =
    w at hfunctions
  have hmem : w ∈ m'.functions ∧ f ∈ m'.functions := by simp [hfunctions, hfmem]
  have hcases {h : Handle} (hh : h ∈ w.handles) :
      h = entry ∨ h = label ∨ ∃ l ∈ code.lines c, l.handle = h := by
    simpa [← hw, FunctionDef.handles] using hh
  have hline {l : Line} (hl : l ∈ code.lines c) : l.handle ∈ w.handles := by
    rw [← hw]
    simp [FunctionDef.handles, List.mem_map_of_mem hl]
  have hentry := hadded.isFunction.2
  obtain ⟨hlabel, hlabelKind⟩ : (m'.inst label).references = [] ∧ m'.kindOf label = .label :=
    hm'.inst_label hmem.1 (b := ⟨label, (code.lines c).map Line.handle⟩) (by simp [← hw])
  have hkept {h : Handle} (hh : h ∈ f.handles) : m'.inst h = m.inst h :=
    hadded.adds.inst_eq (hm.stored_of_handles hfmem hh)
  refine ⟨hmem, ?_, ?_, ?_, ?_, ?_⟩
  · have hcall := EntryCode.call_mem_lines code c
    exact ⟨code.call, hline hcall, _, hc.function ▸ (hadded.holds _ hcall).kindOf_eq⟩
  · intro h hh callee arguments hkind
    obtain rfl | rfl | ⟨l, hl, rfl⟩ := hcases hh
    · cases hentry.kindOf_eq.symm.trans hkind
    · cases hlabelKind.symm.trans hkind
    · rw [hadded.callee_eq hl hkind, hc.function]
  · intro h hh
    obtain rfl | rfl | ⟨l, hl, rfl⟩ := hcases hh
    · rw [hentry.kindOf_eq]
      rfl
    · rw [hlabelKind]
      rfl
    · rw [(hadded.holds l hl).kindOf_eq]
      exact (Kind.isPort_of_isCode (EntryCode.isCode_of_mem_lines hl)).2
  · intro v hv
    obtain ⟨l, hl, hr⟩ := EntryCode.exists_load_of_mem_interface (c := c) hv
    exact ⟨l.handle, hline hl, by rwa [(hadded.holds l hl).references_eq]⟩
  · intro h hh v hr hport
    have hnot {d : Description} (hv : m'.Describes v d) (hd : d.kind.isPort = false) :
        False := by
      rw [hv.kindOf_eq, hd] at hport
      cases hport
    obtain rfl | rfl | ⟨l, hl, rfl⟩ := hcases hh
    · obtain ⟨id, hget⟩ := hentry
      obtain rfl | rfl : v = void ∨ v = type := by
        simpa [inst_of_get? hget, Inst.references, Kind.operands, List.filterMap_cons] using hr
      · exact (hnot hvoid rfl).elim
      · exact (hnot htype rfl).elim
    · rw [hlabel] at hr
      cases hr
    · rw [(hadded.holds l hl).references_eq] at hr
      refine (hfits.mem_of_isPort hadded hword hl hr hport).imp_right fun hv => ?_
      obtain rfl | ⟨g, hg, hr⟩ := hc.mem_references hv
      · rw [hm'.isPort_function hmem.2] at hport
        cases hport
      · exact ⟨g, hg, by rwa [hkept hg]⟩

end Module

theorem AddsEntries.invokes {ks : List Kernel} {m m' : Module} (hadds : AddsEntries ks m m')
    (hm : m.Sound) : ∃ es, m'.entryPoints = m.entryPoints ++ es ∧
      List.Forall₂ (fun k e => ∃ f, m.findFunction? k.name = some f ∧ m'.Invokes k f e)
        (ks.filter fun k => ¬k.Skipped m) es := by
  induction hadds with
  | nil m => exact ⟨[], (List.append_nil _).symm, .nil⟩
  | @cons k ks m m₁ m₂ outcome hrun hadds ih =>
      have hm₁ := hm.of_runs_addEntry hrun
      have hcontinues := (hm.wraps_addEntry hrun).continues
      obtain ⟨es, hentries, hes⟩ := ih hm₁
      simp only [hcontinues.skipped_iff hm, hcontinues.findFunction?_eq hm] at hes
      obtain ⟨hskipped, rfl⟩ | ⟨f, hf⟩ := addEntry_cases hrun
      · rw [List.filter_cons_of_neg (by simpa using hskipped)]
        exact ⟨es, hentries, hes⟩
      · obtain ⟨e, he, hinvokes⟩ := hm.invokes_addEntry hf hrun
        have hkept : ¬k.Skipped m := fun hskipped => by
          rw [hskipped.2] at hf
          cases hf
        refine ⟨e :: es, by rw [hentries, he, List.append_assoc, List.singleton_append], ?_⟩
        rw [List.filter_cons_of_pos (by simpa using hkept)]
        exact .cons ⟨f, hf, hinvokes.continues hm₁ (hadds.wraps hm₁).continues⟩ hes

/-! ## What is handed over -/

/-- How a new entry point of module `p` is connected to what surrounds it, where `f` is the
function of its kernel in the module `m` that was read. -/
structure Kernel.Connects (k : Kernel) (m p : Module) (f : FunctionDef) (e : EntryPoint Handle) :
    Prop where
  function : m.findFunction? k.name = some f
  name : e.name = entryName k.name
  interface : p.IsInterface k.signature e.interface
  uses : ∀ v, p.StaticallyUses e.function v ↔
    v ∈ e.interface ∧ (p.kindOf v).isPort ∨ p.StaticallyUses f.function v
  kept : ∀ v ∈ m.listed, (m.kindOf v).isPort →
    (p.StaticallyUses f.function v ↔ m.StaticallyUses f.function v)
  ports : m.BuiltInsArePorts → ∀ v ∈ e.interface, (p.kindOf v).isPort
  lists : p.Lists e ↔ (∀ v ∈ e.interface, (p.kindOf v).isPort) ∧
    ∀ v, p.StaticallyUses f.function v → v ∈ e.interface

theorem Kernel.connects_of_forall₂ {k : Kernel} {m p : Module} {f : FunctionDef}
    {es : List (EntryPoint Handle)} (hf : m.findFunction? k.name = some f)
    (hes : List.Forall₂ (fun k e => ∃ f, k.Connects m p f e)
      ([k].filter fun k => ¬k.Skipped m) es) :
    ∃ e, es = [e] ∧ k.Connects m p f e := by
  have hkept : ¬k.Skipped m := fun hskipped => by
    rw [hskipped.2] at hf
    cases hf
  rw [List.filter_cons_of_pos (by simpa using hkept), List.filter_nil,
    List.forall₂_cons_left_iff] at hes
  obtain ⟨e, es', ⟨f', hconnects⟩, hes', rfl⟩ := hes
  obtain rfl := List.forall₂_nil_left_iff.1 hes'
  obtain rfl := Option.some.inj (hconnects.function.symm.trans hf)
  exact ⟨e, rfl, hconnects⟩

namespace Job

variable {job : Job} {m p : Module} {t : Transforms}

theorem Prepares.connects (hp : job.Prepares m p) (hm : m.Sound) :
    ∃ es, p.entryPoints = m.entryPoints ++ es ∧ List.Forall₂ (fun k e => ∃ f, k.Connects m p f e)
      (job.kernels.filter fun k => ¬k.Skipped m) es := by
  obtain ⟨outcome, m₂, m₃, m₄, hreadied, hsound₂, hdecorate, hadds, rfl⟩ := hp.exists_readied hm
  have hedited := hsound₂.decorateGlobalBlock hdecorate
  have hsound₄ := hadds.sound hedited.sound
  have hcontinues := hedited.continues.trans (hadds.wraps hedited.sound).continues
  obtain ⟨es, hentries, hes⟩ := hadds.invokes hedited.sound
  have hfind (name : String) : m₃.findFunction? name = m.findFunction? name :=
    (hedited.continues.findFunction?_eq hsound₂ name).trans (hreadied.functions name)
  simp only [Kernel.Skipped, hfind] at hes
  refine ⟨es, ?_, hes.imp fun k e => ?_⟩
  · change m₄.entryPoints = _
    rw [hentries, hedited.code.entryPoints, hreadied.code.entryPoints]
  rintro ⟨f, hf, hinvokes⟩
  obtain ⟨w, hw, heq⟩ := hinvokes.forwards
  refine ⟨f, hf, hinvokes.name, hinvokes.interface.mono fun _ _ => isBuiltInVar_consolidate.2,
    fun v => ?_, fun v hv hvport => ?_, fun hports v hv => ?_, hw.lists_iff hsound₄ heq⟩
  · rw [← heq]
    exact hw.staticallyUses_iff hsound₄
  · have hkept : m.KeepsFunctions m₄ :=
      hreadied.keepsFunctions.trans (hcontinues.keepsFunctions hsound₂) hreadied.keepsIds
    have hport := hreadied.isPort_eq hm hv
    have hstored := isSome_of_isVar (Kind.isVar_of_isPort (hport.trans hvport))
    have hid :=
      (hm.writable v hv).isSome_resultId .var (Kind.opcode_of_isPort hvport) (by decide)
    refine hkept.staticallyUses_iff hm (mem_functions_of_findFunction? hf) ?_ ?_
    · rw [hcontinues.kindOf_eq hstored, hport]
    · rw [hcontinues.keepsIds.idOf_eq (hreadied.keepsIds.isSome hid),
        hreadied.keepsIds.idOf_eq hid]
  · have hported :=
      (hsound₂.ported (hreadied.builtInsArePorts hports)).decorateGlobalBlock hdecorate
    obtain ⟨builtIn, hbuiltIn, hvar⟩ := hinvokes.interface.isBuiltInVar hv
    exact (hadds.ported hported).ports v builtIn hbuiltIn hvar

/-- Each kernel that is not passed over gets an entry point, which uses what it lists and what
the kernel uses: built-in variables are listed as the signature says, and nothing else of what
the kernel uses is. -/
theorem connects_handedOver (hload : Module.load job.words = .ok m)
    (hp : (job.lower t).2.toBuiltIns = some p) :
    ∃ es, p.entryPoints = m.entryPoints ++ es ∧ List.Forall₂ (fun k e => ∃ f, k.Connects m p f e)
      (job.kernels.filter fun k => ¬k.Skipped m) es := by
  obtain ⟨_, hload', hprepares⟩ := prepares_of_toBuiltIns hp
  obtain rfl := Except.ok.inj (hload.symm.trans hload')
  exact hprepares.connects (sound_of_load hload)

def readingKernel (builtIn : Word) : Job where
  words := [Stream.magic, 0x10000, 0, 11, 0, 0x30005, 4, 0x66, 0x40047, 9, 11, builtIn, 0x40015,
    1, 32, 0, 0x20013, 2, 0x40021, 10, 2, 1, 0x40017, 5, 1, 3, 0x40020, 6, 1, 5, 0x4003b,
    6, 9, 1, 0x50036, 2, 4, 0, 10, 0x30037, 1, 3, 0x200f8, 7, 0x4003d, 5, 8, 9, 0x100fd, 0x10038]
  kernels := [⟨"f", Signature.kernel.union .input, 1⟩]
  host := .bare
  validates := true

def readingFunction : FunctionDef := ⟨⟨0⟩, [⟨9⟩], [⟨⟨10⟩, [⟨11⟩, ⟨12⟩]⟩]⟩

/-- What the kernel reads is listed if entry points read it anyway. -/
theorem connects_handedOver_readingKernel :
    ∃ (k : Kernel) (m p : Module) (e : EntryPoint Handle),
    Module.load (readingKernel BuiltIn.globalInvocationId).words = .ok m ∧
    ((readingKernel BuiltIn.globalInvocationId).lower .passThrough).2.toBuiltIns = some p ∧
    p.entryPoints = m.entryPoints ++ [e] ∧ k.Connects m p readingFunction e ∧
    p.StaticallyUses readingFunction.function ⟨2⟩ ∧ p.Lists e := by
  have hread : (Module.load (readingKernel BuiltIn.globalInvocationId).words).toOption.map
      (fun m => (m.entryPoints.isEmpty, m.findFunction? "f")) =
      some (true, some readingFunction) := by
    decide +kernel
  have hhanded : ((readingKernel BuiltIn.globalInvocationId).lower .passThrough).2.toBuiltIns.map
      (fun p => (p.functions.head?, p.kindOf ⟨11⟩,
        p.entryPoints.map fun e =>
        (e.interface, e.interface.all fun v => (p.kindOf v).isPort))) =
      some (some readingFunction, .load ⟨2⟩ [], [([⟨2⟩, ⟨32⟩], true)]) := by
    decide +kernel
  have hcode : ((readingKernel BuiltIn.globalInvocationId).lower .passThrough).2.toBuiltIns.map
      (fun p => readingFunction.handles.map fun h =>
        (p.kindOf h, (p.inst h).references.filter fun r => (p.kindOf r).isPort)) =
      some [(.function 0 ⟨6⟩, []), (.functionParameter, []), (.label, []), (.load ⟨2⟩ [], [⟨2⟩]),
        (.ret, [])] := by
    decide +kernel
  cases hload : Module.load (readingKernel BuiltIn.globalInvocationId).words with
  | error e =>
      rw [hload] at hread
      cases hread
  | ok m =>
      rw [hload] at hread
      obtain ⟨hentries, hfind⟩ := by
        simpa only [Except.toOption, Option.map_some, Option.some.injEq,
          Prod.mk.injEq] using hread
      obtain ⟨p, hp, hhanded⟩ := Option.map_eq_some_iff.1 hhanded
      obtain ⟨hfunctions, hreads, hlisted⟩ := by simpa only [Prod.mk.injEq] using hhanded
      obtain ⟨es, hes, hforall⟩ := connects_handedOver hload hp
      obtain ⟨e, rfl, hconnects⟩ := Kernel.connects_of_forall₂ hfind hforall
      obtain ⟨_, hload', hprepares⟩ := prepares_of_toBuiltIns hp
      obtain rfl := Except.ok.inj (hload.symm.trans hload')
      rw [hes, List.isEmpty_iff.1 hentries, List.nil_append, List.map_singleton] at hlisted
      obtain ⟨hinterface, hports⟩ := Prod.mk.inj (List.cons.inj hlisted).1
      rw [List.all_eq_true] at hports
      rw [hp, Option.map_some, Option.some.injEq] at hcode
      have hmentions {h : Handle} (hh : h ∈ readingFunction.handles) :
          (∀ callee arguments, p.kindOf h ≠ .functionCall callee arguments) ∧
            (p.kindOf h).unread = [] ∧
            ∀ r ∈ (p.inst h).references, (p.kindOf r).isPort → r = ⟨2⟩ := by
        have hmem := List.mem_map_of_mem (f := fun h =>
          (p.kindOf h, (p.inst h).references.filter fun r => (p.kindOf r).isPort)) hh
        rw [hcode] at hmem
        have hport (r : Handle) (hr : r ∈ (p.inst h).references) (hport : (p.kindOf r).isPort) :
            r ∈ (p.inst h).references.filter fun r => (p.kindOf r).isPort :=
              List.mem_filter.2 ⟨hr, hport⟩
        simp only [List.mem_cons, Prod.mk.injEq, List.not_mem_nil, or_false] at hmem
        obtain ⟨hk, hr⟩ | ⟨hk, hr⟩ | ⟨hk, hr⟩ | ⟨hk, hr⟩ | ⟨hk, hr⟩ := hmem
        all_goals
          rw [hr] at hport
          refine ⟨by simp [hk], by rw [hk]; rfl, fun r href hvar => ?_⟩
          simpa using hport r href hvar
      have hleaf (v : Handle) :=
        ((hprepares.sound (sound_of_load hload)).staticallyUses_leaf (v := v)
        (List.mem_of_mem_head? hfunctions) fun h hh => (hmentions hh).1)
      have htwo : ⟨2⟩ ∈ e.interface := by
        rw [hinterface]
        exact List.mem_cons_self
      refine ⟨_, m, p, e, rfl, hp, hes, hconnects,
        (hleaf _).2 ⟨hports _ htwo, ⟨11⟩, by decide, ?_⟩,
        hconnects.lists.2 ⟨hports, fun v hv => ?_⟩⟩
      · refine .inl (Inst.mem_references.2 (.inr ?_))
        change _ ∈ (p.kindOf ⟨11⟩).references
        rw [hreads]
        decide
      · obtain ⟨hport, h, hh, hr | hr⟩ := (hleaf v).1 hv
        · rwa [(hmentions hh).2.2 v hr hport]
        · rw [(hmentions hh).2.1] at hr
          cases hr

/-- A kernel may read what entry points do not list: the position of the invocation in its
group. -/
theorem not_lists_readingKernel : ¬∀ (job : Job) (m : Module), Module.load job.words = .ok m →
    ∀ t p, (job.lower t).2.toBuiltIns = some p →
      ∀ e ∈ p.entryPoints.drop m.entryPoints.length, p.Lists e := by
  intro hall
  have hread : (Module.load (readingKernel 27).words).toOption.map
      (fun m => (m.entryPoints.isEmpty, m.findFunction? "f", m.kindOf ⟨2⟩, m.kindOf ⟨11⟩)) =
        some (true, some readingFunction, .var .input none, .load ⟨2⟩ []) := by
    decide +kernel
  have hhanded : ((readingKernel 27).lower .passThrough).2.toBuiltIns.map
      (fun p => p.entryPoints.map EntryPoint.interface) = some [[⟨24⟩, ⟨34⟩]] := by
    decide +kernel
  cases hload : Module.load (readingKernel 27).words with
  | error e =>
      rw [hload] at hread
      cases hread
  | ok m =>
      rw [hload] at hread
      obtain ⟨hentries, hfind, hvar, hread⟩ := by
        simpa only [Except.toOption, Option.map_some, Option.some.injEq,
          Prod.mk.injEq] using hread
      obtain ⟨p, hp, hinterfaces⟩ := Option.map_eq_some_iff.1 hhanded
      obtain ⟨_, hload', hprepares⟩ := prepares_of_toBuiltIns hp
      obtain rfl := Except.ok.inj (hload.symm.trans hload')
      have hm := sound_of_load hload
      obtain ⟨es, hes, hforall⟩ := hprepares.connects hm
      obtain ⟨e, rfl, hconnects⟩ := Kernel.connects_of_forall₂ hfind hforall
      have hentries := List.isEmpty_iff.1 hentries
      rw [hentries, List.nil_append] at hes
      have hlists : p.Lists e :=
        hall (readingKernel 27) m hload .passThrough p hp e (by simp [hes, hentries])
      have hmention : ⟨2⟩ ∈ (m.kindOf ⟨11⟩).references := by
        rw [hread]
        decide
      have hlisted : ⟨2⟩ ∈ m.listed :=
        (hm.usable_of_kindOf hmention).listed (header_bound_le_of_load hload)
      have hport : (m.kindOf ⟨2⟩).isPort := by
        rw [hvar]
        rfl
      have huses : m.StaticallyUses readingFunction.function ⟨2⟩ :=
        ⟨hport, readingFunction, mem_functions_of_findFunction? hfind, .refl, ⟨11⟩, by decide,
          .inl (Inst.mem_references.2 (.inr hmention))⟩
      have hmem := (hconnects.lists.1 hlists).2 ⟨2⟩ ((hconnects.kept ⟨2⟩ hlisted hport).2 huses)
      rw [hes, List.map_singleton] at hinterfaces
      rw [(List.cons.inj hinterfaces).1] at hmem
      revert hmem
      decide

end Job

end KernelGrid
