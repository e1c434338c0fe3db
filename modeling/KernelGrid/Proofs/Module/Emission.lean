import KernelGrid.Proofs.Module.SectionOrder

/-!
# Emitted items

What is written of a module, item by item, with the handles that the items stand for.  A module
that lists everything where it belongs writes records that may stand behind one another.
-/

namespace KernelGrid

open KernelGrid.Stream

def Item.isPlaceholder {ρ : Type} : Item ρ → Bool
  | inst i => i.isPlaceholder
  | _ => false

namespace Module

variable (m : Module)

def listed : List Handle :=
  m.capabilities ++ m.extensions ++ m.extInstImports ++
    m.memoryModel.toList ++ m.executionModes ++
    m.debug ++ m.annotations ++ m.globals ++ m.functions.flatMap FunctionDef.handles

/-- A module that lists every instruction where reading puts it, in the form that reading gives
it, and that mentions nothing but what it lists. -/
structure WellFormed : Prop where
  bound_pos : 1 ≤ m.header.bound
  bound_le : m.header.bound ≤ maxIdBound
  resultIds : ∀ h ∈ m.listed, ∀ id ∈ (m.inst h).resultId, IdBelow m.header.bound id
  distinctIds : (m.listed.filterMap fun h => (m.inst h).resultId).Nodup
  references : ∀ h ∈ m.listed, ∀ r ∈ (m.inst h).references,
    r ∈ m.listed ∧ (m.inst r).resultId.isSome
  entryReferences : ∀ e ∈ m.entryPoints, ∀ r ∈ e.references,
    r ∈ m.listed ∧ (m.inst r).resultId.isSome
  genuine : ∀ h ∈ m.listed, (m.kindOf h).Genuine
  layouts : ∀ h ∈ m.listed, (m.inst h).HasLayout
  strings : ∀ h ∈ m.listed, ∀ s, .string s ∈ (m.kindOf h).operands → '\x00' ∉ s.toList
  entryNames : ∀ e ∈ m.entryPoints, '\x00' ∉ e.name.toList
  sections : ∀ s : Section, ∀ h ∈ s.handles m,
    Section.ofOpcode (m.kindOf h).opcode = s ∧ (m.kindOf h).opcode ∉ FunctionDef.outlineOpcodes
  functions : ∀ f ∈ m.functions, f.Shaped fun h => (m.kindOf h).opcode
  bodies : ∀ f ∈ m.functions, ∀ b ∈ f.blocks, ∀ h ∈ b.body,
    (m.kindOf h).opcode ≠ Form.executionMode.opcode
  distinctEntries : (m.entryPoints.map (·.function)).Nodup
  sizes : ∀ h ∈ m.executionModes, ∀ function x y z,
    m.kindOf h = .executionMode function .localSize [x, y, z] →
      ∀ e ∈ m.entryPoints, e.function ≠ function

def enteredIds : List ResultId := m.entryPoints.map fun e => m.idOf e.function

/-- Whether no size of a work group stands apart from the entry point that it belongs to. -/
def Settled : Prop := ∀ h ∈ m.executionModes, ∀ function x y z,
  m.kindOf h = .executionMode function .localSize [x, y, z] →
    ∀ e ∈ m.entryPoints, e.function ≠ function

structure Legible : Prop where
  bound_pos : 1 ≤ m.header.bound
  bound_le : m.header.bound ≤ maxIdBound
  resultIds : ∀ h ∈ m.listed, ∀ id ∈ (m.inst h).resultId, IdBelow m.header.bound id
  distinctIds : (m.listed.filterMap fun h => (m.inst h).resultId).Nodup
  insts : ∀ h ∈ m.listed, (m.wire h).Readable m.header.bound
  entries : ∀ e ∈ m.entryPoints, ((e.map m.idOf).withSize none).Readable m.header.bound
  sections : ∀ s : Section, ∀ h ∈ s.handles m,
    Section.ofOpcode (m.kindOf h).opcode = s ∧ (m.kindOf h).opcode ∉ FunctionDef.outlineOpcodes
  functions : ∀ f ∈ m.functions, f.Shaped fun h => (m.kindOf h).opcode
  bodies : ∀ f ∈ m.functions, ∀ b ∈ f.blocks, ∀ h ∈ b.body,
    (m.kindOf h).opcode ≠ Form.executionMode.opcode

/-- A legible module in which the size of a work group stands at the first entry point of its
function. -/
structure Regular : Prop extends m.Legible where
  sized : EntryPoint.SizedOnce (m.entryPoints.map (EntryPoint.map m.idOf))
  sizes : ∀ h ∈ m.executionModes, ∀ function x y z,
    m.kindOf h = .executionMode function .localSize [x, y, z] → m.idOf function ∉ m.enteredIds

theorem listed_eq (m : Module) :
    m.listed =
      ([.capabilities, .extensions, .extInstImports, .memoryModel, .executionModes, .debug,
      .annotations, .globals] : List Section).flatMap (fun s => s.handles m) ++
        m.functions.flatMap FunctionDef.handles := by
  simp [listed, Section.handles]

theorem mem_listed {m : Module} {h : Handle} :
    h ∈ m.listed ↔ (∃ s : Section, h ∈ s.handles m) ∨ ∃ f ∈ m.functions, h ∈ f.handles := by
  constructor
  · intro hh
    simp only [listed, List.mem_append, List.mem_flatMap] at hh
    obtain (((((((hh | hh) | hh) | hh) | hh) | hh) | hh) | hh) | hh := hh
    · exact .inl ⟨.capabilities, hh⟩
    · exact .inl ⟨.extensions, hh⟩
    · exact .inl ⟨.extInstImports, hh⟩
    · exact .inl ⟨.memoryModel, hh⟩
    · exact .inl ⟨.executionModes, hh⟩
    · exact .inl ⟨.debug, hh⟩
    · exact .inl ⟨.annotations, hh⟩
    · exact .inl ⟨.globals, hh⟩
    · exact .inr hh
  · rintro (⟨s, hh⟩ | ⟨f, hf, hh⟩)
    · simp only [listed, List.mem_append]
      cases s <;> simp only [Section.handles] at hh <;> simp [hh]
    · simp only [listed, List.mem_append, List.mem_flatMap]
      exact .inr ⟨f, hf, hh⟩

/-! ## Items with handles -/

def emitInst (h : Handle) : Item ResultId × Handle := (.inst (m.wire h), h)

def emitEntry (e : EntryPoint Handle) : Item ResultId × Handle :=
  (.entryPoint ((e.map m.idOf).withSize none), e.function)

def emitSize? (e : EntryPoint Handle) : Option (Item ResultId × Handle) :=
  e.localSize.map fun size =>
    (.inst (.plain (.executionMode (m.idOf e.function) .localSize size.toList)), e.function)

def emitFunction (f : FunctionDef) : List (Item ResultId × Handle) :=
  f.handles.map m.emitInst ++ [(.functionEnd, f.function)]

def emitSections (ss : List Section) : List (Item ResultId × Handle) :=
  (ss.flatMap fun s => s.handles m).map m.emitInst

def emitted : List (Item ResultId × Handle) :=
  m.emitSections [.capabilities, .extensions, .extInstImports, .memoryModel] ++
    m.entryPoints.map m.emitEntry ++ m.entryPoints.filterMap m.emitSize? ++
    m.emitSections [.executionModes, .debug, .annotations, .globals] ++
    m.functions.flatMap m.emitFunction

/-! ## Statements of items -/

/-- The items that are written as records: placeholders are not. -/
def recorded (xs : List (Item ResultId × Handle)) : List (Item ResultId) :=
  (xs.map Prod.fst).filter fun x => !x.isPlaceholder

def written : List (Item ResultId) := recorded m.emitted

theorem recorded_append (xs ys : List (Item ResultId × Handle)) :
    recorded (xs ++ ys) = recorded xs ++ recorded ys := by
  simp only [recorded, List.map_append, List.filter_append]

theorem recorded_eq_map {xs : List (Item ResultId × Handle)}
    (hxs : ∀ x ∈ xs, x.1.isPlaceholder = false) : recorded xs = xs.map Prod.fst := by
  rw [recorded, List.filter_eq_self.2]
  intro x hx
  obtain ⟨y, hy, rfl⟩ := List.mem_map.1 hx
  rw [hxs y hy]
  rfl

theorem isPlaceholder_emitInst (h : Handle) :
    (m.emitInst h).1.isPlaceholder = (m.inst h).isPlaceholder :=
  Kind.isPlaceholder_map m.idOf (m.inst h).kind

theorem isPlaceholder_of_mem_emitSize? {x : Item ResultId × Handle}
    (hx : x ∈ m.entryPoints.filterMap m.emitSize?) : x.1.isPlaceholder = false := by
  obtain ⟨e, -, he⟩ := List.mem_filterMap.1 hx
  obtain ⟨size, -, rfl⟩ := Option.map_eq_some_iff.1 he
  rfl

theorem isPlaceholder_of_mem_emitEntry {x : Item ResultId × Handle}
    (hx : x ∈ m.entryPoints.map m.emitEntry) : x.1.isPlaceholder = false := by
  obtain ⟨e, -, rfl⟩ := List.mem_map.1 hx
  rfl

theorem sectionStatements_eq_recorded (hs : List Handle) :
    m.sectionStatements hs = (recorded (hs.map m.emitInst)).map Item.statement := by
  rw [sectionStatements, recorded, List.map_map, List.filter_map, List.map_map]
  have hfilter (h : Handle) : (!(m.inst h).isPlaceholder) =
      ((fun x : Item ResultId => !x.isPlaceholder) ∘ (Prod.fst ∘ m.emitInst)) h :=
    congrArg not (m.isPlaceholder_emitInst h).symm
  rw [List.filter_congr fun h _ => hfilter h]
  apply List.map_congr_left
  intro h _
  exact m.statement_eq_wire h

theorem functionStatements_eq_recorded (f : FunctionDef) :
    m.functionStatements f = (recorded (m.emitFunction f)).map Item.statement := by
  rw [emitFunction, recorded_append, List.map_append, ← sectionStatements_eq_recorded]
  rfl

/-- What is written are the statements of what is emitted, without the placeholders. -/
theorem statements_eq_written : m.statements = m.written.map Item.statement := by
  have hentries : m.entryPoints.map (·.statement m.idOf) =
      (recorded (m.entryPoints.map m.emitEntry)).map Item.statement := by
    rw [recorded_eq_map fun _ => m.isPlaceholder_of_mem_emitEntry, List.map_map, List.map_map]
    apply List.map_congr_left
    intro e _
    exact (EntryPoint.statement_map m.idOf id e).symm
  have hsizes : m.entryPoints.filterMap (·.sizeStatement? m.idOf) =
      (recorded (m.entryPoints.filterMap m.emitSize?)).map Item.statement := by
    rw [recorded_eq_map fun _ => m.isPlaceholder_of_mem_emitSize?, List.map_map,
      List.map_filterMap]
    congr 1
    funext e
    rw [EntryPoint.sizeStatement?, emitSize?, Option.map_map]
    rfl
  have hfunctions : m.functions.flatMap m.functionStatements =
      (recorded (m.functions.flatMap m.emitFunction)).map Item.statement := by
    rw [recorded, List.map_flatMap, List.filter_flatMap, List.map_flatMap]
    apply List.flatMap_congr
    intro f _
    exact m.functionStatements_eq_recorded f
  have hsections (ss : List Section) : m.sectionStatements (ss.flatMap fun s => s.handles m) =
      (recorded (m.emitSections ss)).map Item.statement := m.sectionStatements_eq_recorded _
  have hfirst := hsections [.capabilities, .extensions, .extInstImports, .memoryModel]
  have hlast := hsections [.executionModes, .debug, .annotations, .globals]
  simp only [List.flatMap_cons, List.flatMap_nil, List.append_nil, Section.handles,
    ← List.append_assoc] at hfirst hlast
  rw [statements, hfirst, hentries, hsizes, hlast, hfunctions, written, emitted]
  simp only [recorded_append, List.map_append]

variable {m}

theorem Legible.isPlaceholder_eq (hm : m.Legible) {h : Handle} (hh : h ∈ m.listed) :
    (m.inst h).isPlaceholder = false := by
  rw [Inst.isPlaceholder, ← Kind.isPlaceholder_map m.idOf]
  exact (hm.insts h hh).genuine.isPlaceholder

theorem Legible.isPlaceholder_of_mem_emitted (hm : m.Legible) {x : Item ResultId × Handle}
    (hx : x ∈ m.emitted) : x.1.isPlaceholder = false := by
  have hinst {hs : List Handle} (hlisted : ∀ h ∈ hs, h ∈ m.listed) :
      ∀ x ∈ hs.map m.emitInst, x.1.isPlaceholder = false := by
    intro x hx
    obtain ⟨h, hh, rfl⟩ := List.mem_map.1 hx
    rw [isPlaceholder_emitInst, hm.isPlaceholder_eq (hlisted h hh)]
  have hsections (ss : List Section) : ∀ x ∈ m.emitSections ss, x.1.isPlaceholder = false := by
    apply hinst
    intro h hh
    obtain ⟨s, -, hs⟩ := List.mem_flatMap.1 hh
    exact mem_listed.2 (.inl ⟨s, hs⟩)
  rw [emitted, List.mem_append, List.mem_append, List.mem_append, List.mem_append] at hx
  obtain (((hx | hx) | hx) | hx) | hx := hx
  · exact hsections _ x hx
  · exact m.isPlaceholder_of_mem_emitEntry hx
  · exact m.isPlaceholder_of_mem_emitSize? hx
  · exact hsections _ x hx
  · obtain ⟨f, hf, hx⟩ := List.mem_flatMap.1 hx
    obtain hx | hx := List.mem_append.1 hx
    · exact hinst (fun h hh => mem_listed.2 (.inr ⟨f, hf, hh⟩)) x hx
    · obtain rfl := List.mem_singleton.1 hx
      rfl

theorem Legible.statements_eq (hm : m.Legible) :
    m.statements = m.emitted.map fun x => x.1.statement := by
  rw [statements_eq_written, written, recorded_eq_map fun _ => hm.isPlaceholder_of_mem_emitted,
    List.map_map]
  rfl

/-! ## Marks of emitted items -/

def emittedMark (x : Item ResultId × Handle) : Mark := x.1.mark

/-- A written instruction states the size of a work group, or all that counts is its opcode. -/
theorem emittedMark_emitInst (m : Module) (h : Handle) :
    (∃ function x y z, m.kindOf h = .executionMode function .localSize [x, y, z] ∧
        emittedMark (m.emitInst h) = .size (m.idOf function)) ∨
      emittedMark (m.emitInst h) = .inst (m.kindOf h).opcode := by
  have hmark : emittedMark (m.emitInst h) = _ := Item.mark_map m.idOf (m.inst h)
  rw [hmark]
  split
  · rename_i function mode x y z hkind
    split
    · rename_i hmode
      exact .inl ⟨function, x, y, z, hmode ▸ hkind, rfl⟩
    · exact .inr rfl
  · exact .inr rfl

theorem emittedMark_of_opcode_ne {h : Handle}
    (hmode : (m.kindOf h).opcode ≠ Form.executionMode.opcode) :
    emittedMark (m.emitInst h) = .inst (m.kindOf h).opcode := by
  obtain ⟨function, x, y, z, hkind, -⟩ | hmark := m.emittedMark_emitInst h
  · exact absurd (by rw [hkind]; rfl) hmode
  · exact hmark

/-- What is listed in a section goes back to it, or it states a size for an entry point in
front. -/
theorem Legible.section_place (hm : m.Legible) {c : Context} (hposition : c.position = .outside)
    {s : Section} {h : Handle} (hh : h ∈ s.handles m) :
    c.Allows (emittedMark (m.emitInst h)) ∧ c.next (emittedMark (m.emitInst h)) = c ∧
      (c.place (emittedMark (m.emitInst h)) = .listed s ∨ s = .executionModes ∧
        ∃ function x y z, m.kindOf h = .executionMode function .localSize [x, y, z] ∧
          m.idOf function ∈ c.entered ∧
          c.place (emittedMark (m.emitInst h)) = .size (m.idOf function)) := by
  obtain ⟨hsection, houtline⟩ := hm.sections s h hh
  simp only [FunctionDef.outlineOpcodes, List.mem_cons, List.not_mem_nil, or_false, not_or]
    at houtline
  obtain ⟨function, x, y, z, hkind, hmark⟩ | hmark := m.emittedMark_emitInst h
  · have hmode : (m.kindOf h).opcode = Form.executionMode.opcode := by
      rw [hkind]
      rfl
    obtain rfl : Section.executionModes = s := by
      rw [← hsection, hmode]
      rfl
    rw [hmark]
    refine ⟨trivial, rfl, ?_⟩
    by_cases hentered : m.idOf function ∈ c.entered
    · exact .inr ⟨rfl, function, x, y, z, hkind, hentered, if_pos hentered⟩
    · exact .inl (if_neg hentered)
  · rw [hmark]
    refine ⟨?_, ?_, .inl ?_⟩
    · simp only [Context.Allows, hposition]
      exact .inr ⟨houtline.2.1, houtline.2.2⟩
    · rw [Context.next, if_neg houtline.1, if_neg houtline.2.2]
    · by_cases hmode : (m.kindOf h).opcode = Form.executionMode.opcode
      · rw [Context.place, if_pos hmode, ← hsection, hmode]
        rfl
      · rw [Context.place, if_neg hmode, if_neg (by simp [hposition, houtline.1]), hsection]

theorem Regular.stretch_section (hm : m.Regular) {c : Context}
    (hposition : c.position = .outside) (hentered : ∀ id ∈ c.entered, id ∈ m.enteredIds)
    (s : Section) :
    Stretch (.listed s) c (((s.handles m).map m.emitInst).map emittedMark) c := by
  apply Stretch.of_stable
  intro k hk
  rw [List.map_map, List.mem_map] at hk
  obtain ⟨h, hh, rfl⟩ := hk
  obtain ⟨hallow, hnext, hplace | ⟨rfl, function, x, y, z, hkind, hmem, -⟩⟩ :=
    hm.section_place hposition hh
  · exact ⟨hallow, hplace, hnext⟩
  · exact absurd (hentered _ hmem) (hm.sizes h hh function x y z hkind)

theorem stretch_parameters {c : Context} (hposition : c.position = .header) {ps : List Handle}
    (hps : ∀ p ∈ ps, (m.kindOf p).opcode = Form.functionParameter.opcode) :
    Stretch .function c ((ps.map m.emitInst).map emittedMark) c := by
  apply Stretch.of_stable
  intro k hk
  rw [List.map_map, List.mem_map] at hk
  obtain ⟨p, hp, rfl⟩ := hk
  have hop := hps p hp
  have hmode : (m.kindOf p).opcode ≠ Form.executionMode.opcode := by
    rw [hop]
    decide
  rw [Function.comp_apply, emittedMark_of_opcode_ne hmode, hop]
  refine ⟨?_, ?_, rfl⟩
  · simp only [Context.Allows, hposition]
    exact .inr (.inl trivial)
  · rw [Context.place, if_neg (by decide), if_pos (.inl (by simp [hposition]))]

theorem stretch_body {c : Context} (hposition : c.position = .blocks) {hs : List Handle}
    (houtline : ∀ h ∈ hs, (m.kindOf h).opcode ∉ FunctionDef.outlineOpcodes)
    (hmodes : ∀ h ∈ hs, (m.kindOf h).opcode ≠ Form.executionMode.opcode) :
    Stretch .function c ((hs.map m.emitInst).map emittedMark) c := by
  apply Stretch.of_stable
  intro k hk
  rw [List.map_map, List.mem_map] at hk
  obtain ⟨h, hh, rfl⟩ := hk
  have hop := houtline h hh
  simp only [FunctionDef.outlineOpcodes, List.mem_cons, List.not_mem_nil, or_false,
    not_or] at hop
  rw [Function.comp_apply, emittedMark_of_opcode_ne (hmodes h hh)]
  refine ⟨?_, ?_, ?_⟩
  · simp only [Context.Allows, hposition]
    exact .inr ⟨hop.1, hop.2.1⟩
  · rw [Context.place, if_neg (hmodes h hh), if_pos (.inl (by simp [hposition]))]
  · rw [Context.next, if_neg hop.1, if_neg hop.2.2]

theorem stretch_block {c : Context} (hposition : c.position ≠ .outside) {b : Block}
    (hlabel : (m.kindOf b.label).opcode = Form.label.opcode)
    (houtline : ∀ h ∈ b.body, (m.kindOf h).opcode ∉ FunctionDef.outlineOpcodes)
    (hmodes : ∀ h ∈ b.body, (m.kindOf h).opcode ≠ Form.executionMode.opcode) :
    Stretch .function c (((b.label :: b.body).map m.emitInst).map emittedMark)
      { c with position := .blocks } := by
  have hmode : (m.kindOf b.label).opcode ≠ Form.executionMode.opcode := by
    rw [hlabel]
    decide
  rw [List.map_cons, List.map_cons, emittedMark_of_opcode_ne hmode, hlabel]
  refine .cons ?_ ?_ (stretch_body rfl houtline hmodes)
  · refine .inr ?_
    cases hc : c.position with
    | outside => exact absurd hc hposition
    | header => exact .inr rfl
    | blocks => exact ⟨by decide, by decide⟩
  · rw [Context.place, if_neg (by decide), if_pos (.inl hposition)]

theorem stretch_blocks {c : Context} (hposition : c.position ≠ .outside) {bs : List Block}
    (hlabels : ∀ b ∈ bs, (m.kindOf b.label).opcode = Form.label.opcode)
    (houtline : ∀ b ∈ bs, ∀ h ∈ b.body, (m.kindOf h).opcode ∉ FunctionDef.outlineOpcodes)
    (hmodes : ∀ b ∈ bs, ∀ h ∈ b.body, (m.kindOf h).opcode ≠ Form.executionMode.opcode) :
    ∃ position ≠ .outside, Stretch .function c
      (((bs.flatMap fun b => b.label :: b.body).map m.emitInst).map emittedMark)
      { c with position } := by
  induction bs generalizing c with
  | nil => exact ⟨c.position, hposition, .nil c⟩
  | cons b bs ih =>
      rw [List.forall_mem_cons] at hlabels houtline hmodes
      have hb := stretch_block hposition hlabels.1 houtline.1 hmodes.1
      obtain ⟨position, hne, hbs⟩ := ih (c := { c with position := .blocks }) (by simp) hlabels.2
        houtline.2 hmodes.2
      refine ⟨position, hne, ?_⟩
      rw [List.flatMap_cons, List.map_append, List.map_append]
      exact hb.append hbs

/-- A function is written in one stretch. -/
theorem Legible.stretch_function (hm : m.Legible) {c : Context}
    (hposition : c.position = .outside) {f : FunctionDef} (hf : f ∈ m.functions) :
    Stretch .function c ((m.emitFunction f).map emittedMark) c := by
  have hshaped := hm.functions f hf
  have hfunction : (m.kindOf f.function).opcode = Form.function.opcode := hshaped.function
  have hmode : (m.kindOf f.function).opcode ≠ Form.executionMode.opcode := by
    rw [hfunction]
    decide
  have hparameters := stretch_parameters (c := { c with position := .header }) rfl
    hshaped.parameters
  obtain ⟨position, hne, hblocks⟩ := stretch_blocks (c := { c with position := .header })
    (by simp) hshaped.labels hshaped.bodies (hm.bodies f hf)
  have hend :
      Stretch .function { c with position } [emittedMark (.functionEnd, f.function)] c := by
    refine .cons hne rfl ?_
    obtain ⟨_, entered⟩ := c
    obtain rfl : _ = Position.outside := hposition
    exact .nil _
  rw [emitFunction, FunctionDef.handles, List.map_append, List.cons_append, List.map_cons,
    List.map_cons, emittedMark_of_opcode_ne hmode, hfunction, List.map_append, List.map_append]
  refine .cons ?_ ?_ ((hparameters.append hblocks).append hend)
  · simp only [Context.Allows, hposition]
    exact .inr ⟨by decide, by decide⟩
  · rw [Context.place, if_neg (by decide), if_pos (.inr rfl)]

theorem Legible.stretch_functions (hm : m.Legible) {c : Context}
    (hposition : c.position = .outside)
    {fs : List FunctionDef} (hfs : ∀ f ∈ fs, f ∈ m.functions) :
    Stretch .function c ((fs.flatMap m.emitFunction).map emittedMark) c := by
  induction fs with
  | nil => exact .nil c
  | cons f fs ih =>
      rw [List.forall_mem_cons] at hfs
      rw [List.flatMap_cons, List.map_append]
      exact (hm.stretch_function hposition hfs.1).append (ih hfs.2)

theorem stretch_entries (m : Module) (c : Context) (es : List (EntryPoint Handle)) :
    Stretch .entryPoint c ((es.map m.emitEntry).map emittedMark)
      { c with entered := c.entered ++ es.map fun e => m.idOf e.function } := by
  induction es generalizing c with
  | nil =>
      simp only [List.map_nil, List.append_nil]
      exact .nil c
  | cons e es ih =>
      have hrest := ih { c with entered := c.entered ++ [m.idOf e.function] }
      rw [List.append_assoc, List.singleton_append] at hrest
      exact .cons trivial rfl hrest

end Module

end KernelGrid
