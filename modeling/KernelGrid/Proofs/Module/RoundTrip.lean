import KernelGrid.Proofs.Module.Rereading

/-!
# Round trips

Reading what was written of a well-formed module gives that module again, with other handles.
-/

namespace KernelGrid

/-! ## Functions -/

def Block.map (g : Handle → Handle) (b : Block) : Block := ⟨g b.label, b.body.map g⟩

namespace FunctionDef

def map (g : Handle → Handle) (f : FunctionDef) : FunctionDef :=
  ⟨g f.function, f.parameters.map g, f.blocks.map (Block.map g)⟩

theorem handles_map (g : Handle → Handle) (f : FunctionDef) :
    (f.map g).handles = f.handles.map g := by
  simp [handles, map, Block.map, List.flatMap_map, List.map_flatMap]

variable {op op' : Handle → Opcode}

theorem Shaped.map {f : FunctionDef} (hf : f.Shaped op) {g : Handle → Handle}
    (hop : ∀ h ∈ f.handles, op' (g h) = op h) : (f.map g).Shaped op' := by
  have hshaped : f.Shaped (op' ∘ g) := hf.congr hop
  constructor
  · exact hshaped.function
  · intro p hmem
    obtain ⟨p, hp, rfl⟩ := List.mem_map.1 hmem
    exact hshaped.parameters p hp
  · intro b hmem
    obtain ⟨b, hb, rfl⟩ := List.mem_map.1 hmem
    exact hshaped.labels b hb
  · intro b hmem h hmem'
    obtain ⟨b, hb, rfl⟩ := List.mem_map.1 hmem
    obtain ⟨h, hh, rfl⟩ := List.mem_map.1 hmem'
    exact hshaped.bodies b hb h hh

theorem blocks_inj {bs bs' : List Block} (hlabels : ∀ b ∈ bs, op b.label = Form.label.opcode)
    (hlabels' : ∀ b ∈ bs', op b.label = Form.label.opcode)
    (hbodies : ∀ b ∈ bs, ∀ h ∈ b.body, op h ∉ outlineOpcodes)
    (hbodies' : ∀ b ∈ bs', ∀ h ∈ b.body, op h ∉ outlineOpcodes)
    (heq : (bs.flatMap fun b => b.label :: b.body) = bs'.flatMap fun b => b.label :: b.body) :
    bs = bs' := by
  have hhead {cs : List Block} (hcs : ∀ b ∈ cs, op b.label = Form.label.opcode) :
      ∀ h ∈ (cs.flatMap fun b => b.label :: b.body).head?, ¬op h ∉ outlineOpcodes := by
    cases cs with
    | nil => simp
    | cons c cs =>
        rintro h ⟨⟩
        rw [hcs c List.mem_cons_self]
        simp [outlineOpcodes]
  induction bs generalizing bs' with
  | nil =>
      cases bs' with
      | nil => rfl
      | cons b' bs' => cases heq
  | cons b bs ih =>
      cases bs' with
      | nil => cases heq
      | cons b' bs' =>
          rw [List.flatMap_cons, List.flatMap_cons, List.cons_append, List.cons_append,
            List.cons.injEq] at heq
          rw [List.forall_mem_cons] at hlabels hlabels' hbodies hbodies'
          obtain ⟨hbody, hrest⟩ := append_inj_of_head (p := fun h => op h ∉ outlineOpcodes)
            hbodies.1 hbodies'.1 (hhead hlabels.2) (hhead hlabels'.2) heq.2
          obtain ⟨label, body⟩ := b
          obtain ⟨label', body'⟩ := b'
          obtain rfl : label = label' := heq.1
          obtain rfl : body = body' := hbody
          rw [ih hlabels.2 hlabels'.2 hbodies.2 hbodies'.2 hrest]

/-- A function is known from what it lists. -/
theorem Shaped.eq_of_handles {f f' : FunctionDef} (hf : f.Shaped op) (hf' : f'.Shaped op)
    (heq : f.handles = f'.handles) : f = f' := by
  have hhead {g : FunctionDef} (hg : g.Shaped op) :
      ∀ h ∈ (g.blocks.flatMap fun b => b.label :: b.body).head?,
        ¬op h = Form.functionParameter.opcode := by
    cases hblocks : g.blocks with
    | nil => simp
    | cons b bs =>
        rintro h ⟨⟩
        rw [hg.labels b (by rw [hblocks]; exact List.mem_cons_self)]
        decide
  rw [handles, handles, List.cons_append, List.cons_append, List.cons.injEq] at heq
  obtain ⟨hparameters, hrest⟩ := append_inj_of_head hf.parameters hf'.parameters (hhead hf)
    (hhead hf') heq.2
  have hblocks := blocks_inj hf.labels hf'.labels hf.bodies hf'.bodies hrest
  obtain ⟨function, parameters, blocks⟩ := f
  obtain ⟨function', parameters', blocks'⟩ := f'
  obtain rfl : function = function' := heq.1
  obtain rfl : parameters = parameters' := hparameters
  obtain rfl : blocks = blocks' := hblocks
  rfl

theorem eq_of_map_handles {fs fs' : List FunctionDef} (hfs : ∀ f ∈ fs, f.Shaped op)
    (hfs' : ∀ f ∈ fs', f.Shaped op) (heq : fs.map handles = fs'.map handles) : fs = fs' := by
  induction fs generalizing fs' with
  | nil =>
      cases fs' with
      | nil => rfl
      | cons f' fs' => cases heq
  | cons f fs ih =>
      cases fs' with
      | nil => cases heq
      | cons f' fs' =>
          rw [List.map_cons, List.map_cons, List.cons.injEq] at heq
          rw [List.forall_mem_cons] at hfs hfs'
          rw [hfs.1.eq_of_handles hfs'.1 heq.1, ih hfs.2 hfs'.2 heq.2]

end FunctionDef

namespace Module

/-! ## Renaming -/

/-- One module is another with new handles: `g` gives the handles in the other. -/
structure Renames (g : Handle → Handle) (m m' : Module) : Prop where
  header : m.header = m'.header
  sections : ∀ s : Section, (s.handles m).map g = s.handles m'
  entryPoints : m.entryPoints.map (EntryPoint.map g) = m'.entryPoints
  functions : m.functions.map (FunctionDef.map g) = m'.functions
  insts : ∀ h ∈ m.listed, (m.inst h).map g = m'.inst (g h)
  distinct : ∀ h ∈ m.listed, ∀ h' ∈ m.listed, (m.inst h).resultId.isSome → g h = g h' → h = h'

/-! ## Handles of a module that was read -/

def definer (m : Module) (id : ResultId) : Handle :=
  (m.listed.find? fun h => (m.inst h).resultId = some id).getD ⟨0⟩

variable {m : Module} {a : Assembly} {origin : Handle → Option (Item ResultId × Handle)}

theorem WellFormed.definer_idOf (hm : m.WellFormed) {h : Handle}
    (hh : h ∈ m.listed ∧ (m.inst h).resultId.isSome) : m.definer (m.idOf h) = h := by
  obtain ⟨id, hid⟩ := Option.isSome_iff_exists.1 hh.2
  rw [idOf_eq hid, definer]
  cases hfind : m.listed.find? fun h => (m.inst h).resultId = some id with
  | none =>
      rw [List.find?_eq_none] at hfind
      exact absurd (by simpa using hid) (hfind h hh.1)
  | some g =>
      have hg : (m.inst g).resultId = some id := by simpa using List.find?_some hfind
      exact hm.eq_of_resultId (List.mem_of_find?_eq_some hfind) hh.1 hg hid

namespace ReadFrom

variable (hA : m.ReadFrom m.Defines a origin)

include hA

theorem origin_eq {h : Handle} (hid : (a.module.inst h).resultId.isSome) :
    ∃ g ∈ m.listed, origin h = some (m.emitInst g) ∧ m.wire g = a.module.wire h := by
  obtain ⟨x, hx, horigin, hitem⟩ := hA.stores.stored h (hA.isPlaceholder_eq hid)
  obtain ⟨g, hg, rfl⟩ | ⟨e, -, rfl⟩ | ⟨e, -, size, -, rfl⟩ | hend := mem_emitted hx
  · exact ⟨g, hg, horigin, Item.inst.inj hitem⟩
  · cases hitem
  · have hresult := congrArg Item.result? hitem
    change none = (a.module.inst h).resultId at hresult
    rw [← hresult] at hid
    cases hid
  · rw [hend] at hitem
    cases hitem

theorem source_eq_definer {r : Handle} (hid : (a.module.inst r).resultId.isSome)
    (hm : m.WellFormed) : source origin r = m.definer (a.module.idOf r) := by
  obtain ⟨g, hg, horigin, hwire⟩ := hA.origin_eq hid
  have hresult : (m.wire g).resultId = (a.module.wire r).resultId := by rw [hwire]
  rw [wire, wire, Inst.resultId_map, Inst.resultId_map] at hresult
  have hidOf : a.module.idOf r = m.idOf g := by rw [idOf, idOf, hresult]
  rw [source_eq horigin, hidOf, hm.definer_idOf ⟨hg, hresult ▸ hid⟩]
  rfl

theorem inst_map {h g : Handle} (hm : m.WellFormed) (hg : g ∈ m.listed)
    (hwire : m.wire g = a.module.wire h) : (a.module.inst h).map (source origin) = m.inst g :=
  calc (a.module.inst h).map (source origin)
    _ = (a.module.inst h).map (m.definer ∘ a.module.idOf) :=
        Inst.map_congr fun r hr => hA.source_eq_definer (hA.stores.closed h r hr) hm
    _ = (a.module.wire h).map m.definer := (Inst.map_map ..).symm
    _ = (m.wire g).map m.definer := by rw [hwire]
    _ = (m.inst g).map (m.definer ∘ m.idOf) := Inst.map_map ..
    _ = (m.inst g).map id := Inst.map_congr fun r hr => hm.definer_idOf (hm.references g hg r hr)
    _ = m.inst g := Inst.map_id _

/-! ### Functions and entry points -/

theorem functions_map (hm : m.WellFormed) (hcurrent : a.current = none) :
    a.module.functions.map (FunctionDef.map (source origin)) = m.functions := by
  have hhandles : (a.module.functions.map (FunctionDef.map (source origin))).map
      FunctionDef.handles = m.functions.map FunctionDef.handles := by
    rw [List.map_map, ← hA.function_handles_source hm.regular.toLegible hcurrent]
    exact List.map_congr_left fun f _ => FunctionDef.handles_map _ f
  refine FunctionDef.eq_of_map_handles ?_ hm.functions hhandles
  intro f hmem
  obtain ⟨f, hf, rfl⟩ := List.mem_map.1 hmem
  apply (hA.frames.functions f hf).map
  intro h hh
  obtain ⟨g, hg, horigin, hwire⟩ :=
    hA.origin_listed hm.regular hcurrent (mem_listed.2 (.inr ⟨f, hf, hh⟩))
  have hinst := hA.inst_map hm hg hwire
  rw [source_eq horigin]
  change (m.inst g).opcode = _
  rw [← hinst, Inst.opcode_map]

theorem entryPoints_map (hm : m.WellFormed) :
    a.module.entryPoints.map (EntryPoint.map (source origin)) = m.entryPoints := by
  calc a.module.entryPoints.map (EntryPoint.map (source origin))
    _ = (a.module.entryPoints.map (EntryPoint.map a.module.idOf)).map
          (EntryPoint.map m.definer) := by
        rw [List.map_map]
        apply List.map_congr_left
        intro e he
        rw [Function.comp_apply, EntryPoint.map_map]
        exact EntryPoint.map_congr fun r hr =>
          hA.source_eq_definer (hA.enters.linked e he r hr) hm
    _ = (m.entryPoints.map (EntryPoint.map m.idOf)).map (EntryPoint.map m.definer) := by
        rw [hA.entryPoints_idOf hm.regular]
    _ = m.entryPoints := by
        rw [List.map_map]
        refine (List.map_congr_left fun e he => ?_).trans (List.map_id _)
        rw [Function.comp_apply, EntryPoint.map_map]
        exact (EntryPoint.map_congr fun r hr =>
          hm.definer_idOf (hm.entryReferences e he r hr)).trans (EntryPoint.map_id e)

/-- What was read is what was written, with other handles. -/
theorem renames (hm : m.WellFormed) (hcurrent : a.current = none) :
    a.module.Renames (source origin) m := by
  have hlisted {h : Handle} (hh : h ∈ a.module.listed) :
      (a.module.inst h).map (source origin) = m.inst (source origin h) := by
    obtain ⟨g, hg, horigin, hwire⟩ := hA.origin_listed hm.regular hcurrent hh
    rw [source_eq horigin, hA.inst_map hm hg hwire]
    rfl
  refine ⟨hA.header, hA.handles_source hm.regular, hA.entryPoints_map hm,
    hA.functions_map hm hcurrent, fun h hh => hlisted hh, ?_⟩
  intro h hh h' hh' hid heq
  obtain ⟨id, hid⟩ := Option.isSome_iff_exists.1 hid
  have hresult : (m.inst (source origin h)).resultId = some id := by
    rw [← hlisted hh, Inst.resultId_map, hid]
  rw [heq, ← hlisted hh', Inst.resultId_map] at hresult
  have hbyId := (hA.stores.indexed id h).2 hid
  rw [(hA.stores.indexed id h').2 hresult, Option.some.injEq] at hbyId
  exact hbyId.symm

end ReadFrom

/-- Decoding undoes encoding, up to handles. -/
theorem decode_of_encode {m : Module} (hm : m.WellFormed) {w : List Word}
    (hencode : m.encode = .ok w) :
    ∃ d r, decode w = .ok d ∧ d.resolve = .ok r ∧ ∃ g, r.Renames g m := by
  obtain ⟨a, origin, hA, hcurrent, hdecode⟩ := hm.exists_assembled hencode
  have hresolve : a.module.resolve = .ok a.module.reintern := by
    rw [resolve, ReadFrom.undefinedIds_eq hA]
    rfl
  obtain ⟨hheader, hsections, hentries, hfunctions, hinsts, hdistinct⟩ :=
    ReadFrom.renames hA hm hcurrent
  refine ⟨a.module, a.module.reintern, hdecode, hresolve, source origin, hheader, ?_, hentries,
    hfunctions, hinsts, hdistinct⟩
  intro s
  rw [← hsections s]
  cases s <;> rfl

def bareKernel : Module :=
  { empty with
    header := ⟨0x10000, 0, 5⟩
    insts := ⟨#[.plain (.capability .shader), .plain (.memoryModel .physical32 .glsl450),
      .plain (.debugName ⟨5⟩ "main"), ⟨none, some 1, .typeVoid⟩,
      ⟨none, some 2, .typeFunction ⟨3⟩ []⟩, ⟨some ⟨3⟩, some 3, .function 0 ⟨4⟩⟩,
      ⟨none, some 4, .label⟩, .plain .ret]⟩
    ids := .ofList ([(1, ⟨3⟩), (2, ⟨4⟩), (3, ⟨5⟩), (4, ⟨6⟩)] : List (ResultId × Handle))
    capabilities := [⟨0⟩]
    memoryModel := some ⟨1⟩
    entryPoints := [⟨.compute, ⟨5⟩, "main", [], some ⟨4, 2, 1⟩⟩]
    debug := [⟨2⟩]
    globals := [⟨3⟩, ⟨4⟩]
    functions := [⟨⟨5⟩, [], [⟨⟨6⟩, [⟨7⟩]⟩]⟩] }

theorem forall_listed_bareKernel {p : Handle → Prop} :
    (∀ h ∈ bareKernel.listed, p h) ↔
      p ⟨0⟩ ∧ p ⟨1⟩ ∧ p ⟨2⟩ ∧ p ⟨3⟩ ∧ p ⟨4⟩ ∧ p ⟨5⟩ ∧ p ⟨6⟩ ∧ p ⟨7⟩ := by
  have hlisted : bareKernel.listed = [⟨0⟩, ⟨1⟩, ⟨2⟩, ⟨3⟩, ⟨4⟩, ⟨5⟩, ⟨6⟩, ⟨7⟩] := rfl
  simp [hlisted]

theorem wellFormed_bareKernel : bareKernel.WellFormed where
  bound_pos := by decide
  bound_le := by decide
  resultIds := by
    rw [forall_listed_bareKernel]
    simp [bareKernel, inst, Arena.get?, Inst.plain, IdBelow]
  distinctIds := by decide
  references := by decide
  entryReferences := by decide
  genuine := forall_listed_bareKernel.2
    ⟨trivial, trivial, trivial, trivial, trivial, trivial, trivial, trivial⟩
  layouts := by
    rw [forall_listed_bareKernel]
    refine ⟨?_, ?_, ?_, ?_, ?_, ?_, ?_, ?_⟩
    · rw [Inst.hasLayout_iff .capability rfl]
      exact ⟨rfl, rfl⟩
    · rw [Inst.hasLayout_iff .memoryModel rfl]
      exact ⟨rfl, rfl⟩
    · rw [Inst.hasLayout_iff .debugName rfl]
      exact ⟨rfl, rfl⟩
    · rw [Inst.hasLayout_iff .typeVoid rfl]
      exact ⟨rfl, .inl rfl⟩
    · rw [Inst.hasLayout_iff .typeFunction rfl]
      exact ⟨rfl, .inl rfl⟩
    · rw [Inst.hasLayout_iff .function rfl]
      exact .inl ⟨rfl, rfl⟩
    · rw [Inst.hasLayout_iff .label rfl]
      exact ⟨rfl, .inl rfl⟩
    · rw [Inst.hasLayout_iff .ret rfl]
      exact ⟨rfl, rfl⟩
  strings := by
    rw [forall_listed_bareKernel]
    simp [bareKernel, kindOf, inst, Arena.get?, Inst.plain, Kind.operands, Enumerant.operand]
  entryNames := by decide
  sections := by
    intro s
    cases s <;> decide
  functions := by
    intro f hf
    obtain rfl := List.mem_singleton.1 hf
    exact ⟨by decide, by decide, by decide, by decide⟩
  bodies := by decide
  distinctEntries := by decide
  sizes := by
    intro h hh
    cases hh

/-- Written and read again, the kernel is the same. -/
theorem decode_of_encode_bareKernel :
    bareKernel.WellFormed ∧ ∃ w, bareKernel.encode = .ok w ∧
      ∃ d r, decode w = .ok d ∧ d.resolve = .ok r ∧ ∃ g, r.Renames g bareKernel := by
  have hfits : ∀ s ∈ bareKernel.statements, s.record.Fits := by
    simp only [Stream.Record.Fits]
    decide +kernel
  have hencode := encode_eq_ok hfits
  exact ⟨wellFormed_bareKernel, _, hencode, decode_of_encode wellFormed_bareKernel hencode⟩

end Module

end KernelGrid
