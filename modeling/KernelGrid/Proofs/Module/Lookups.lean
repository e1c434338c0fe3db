import KernelGrid.Module.Listing
import KernelGrid.Proofs.Module.Containment

/-!
# Lookups

In a contained module nothing is looked up that is not there: whatever stands behind its
instructions, all that is written, listed, found or measured stays the same.
-/

namespace KernelGrid.Module

variable {m m' : Module} {h : Handle}

/-- The same module in a larger arena, in which anything may stand behind its own
instructions. -/
structure Pads (m m' : Module) : Prop where
  frame : ∃ insts, m' = { m with insts }
  inst_eq : ∀ h, m.Owns h → m'.inst h = m.inst h
  size_le : m.insts.size ≤ m'.insts.size

namespace Pads

variable (hp : m.Pads m')

include hp

theorem kindOf_eq (hh : m.Owns h) : m'.kindOf h = m.kindOf h :=
  congrArg Inst.kind (hp.inst_eq h hh)

theorem idOf_eq (hh : m.Owns h) : m'.idOf h = m.idOf h := by rw [idOf, hp.inst_eq h hh, idOf]

theorem handles_eq (s : Section) : s.handles m' = s.handles m := by
  obtain ⟨insts, rfl⟩ := hp.frame
  cases s <;> rfl

theorem entryPoints_eq : m'.entryPoints = m.entryPoints := by
  obtain ⟨insts, rfl⟩ := hp.frame
  rfl

theorem functions_eq : m'.functions = m.functions := by
  obtain ⟨insts, rfl⟩ := hp.frame
  rfl

theorem continues : m.Continues m' := by
  refine ⟨?_, ?_, fun h i hi => ?_, fun s _ _ => hp.handles_eq s, ?_, ?_,
    ⟨[], by simp [hp.functions_eq], by simp⟩, hp.entryPoints_eq ▸ List.prefix_rfl⟩
  · obtain ⟨insts, rfl⟩ := hp.frame
    rfl
  · obtain ⟨insts, rfl⟩ := hp.frame
    rfl
  · have hown : m.Owns h := owns_iff.2 (by rw [hi]; rfl)
    have hown' : m'.Owns h := Nat.lt_of_lt_of_le hown hp.size_le
    obtain ⟨j, hj⟩ := Option.isSome_iff_exists.1 (owns_iff.1 hown')
    have heq := hp.inst_eq h hown
    rw [inst_of_get? hi, inst_of_get? hj] at heq
    rw [hj, heq]
  · have hannotations : m'.annotations = m.annotations := hp.handles_eq .annotations
    rw [hannotations]
  · have hglobals : m'.globals = m.globals := hp.handles_eq .globals
    rw [hglobals]

end Pads

/-! ## Writing -/

theorem Contained.owns_front (hm : m.Contained) :
    ∀ h ∈ m.capabilities ++ m.extensions ++ m.extInstImports ++ m.memoryModel.toList,
      m.Owns h := by
  simp only [List.forall_mem_append]
  exact ⟨⟨⟨hm.sections .capabilities, hm.sections .extensions⟩, hm.sections .extInstImports⟩,
    hm.sections .memoryModel⟩

theorem Contained.owns_back (hm : m.Contained) :
    ∀ h ∈ m.executionModes ++ m.debug ++ m.annotations ++ m.globals, m.Owns h := by
  simp only [List.forall_mem_append]
  exact ⟨⟨⟨hm.sections .executionModes, hm.sections .debug⟩, hm.sections .annotations⟩,
    hm.sections .globals⟩

section

variable (hm : m.Contained) (hp : m.Pads m')

include hm hp

theorem Contained.statement_eq (hh : m.Owns h) : m'.statement h = m.statement h := by
  have hmap : (m.inst h).map m'.idOf = (m.inst h).map m.idOf :=
    Inst.map_congr fun r hr => hp.idOf_eq (hm.references h r hr)
  rw [statement_eq_wire, statement_eq_wire, wire, wire, hp.inst_eq h hh, hmap]

theorem Contained.sectionStatements_eq {hs : List Handle} (hhs : ∀ h ∈ hs, m.Owns h) :
    m'.sectionStatements hs = m.sectionStatements hs := by
  have hfilter : (hs.filter fun h => !(m'.inst h).isPlaceholder) =
      hs.filter fun h => !(m.inst h).isPlaceholder :=
    List.filter_congr fun h hh => by rw [hp.inst_eq h (hhs h hh)]
  rw [sectionStatements, sectionStatements, hfilter]
  exact List.map_congr_left fun h hh => hm.statement_eq hp (hhs h (List.mem_of_mem_filter hh))

theorem Contained.entryStatement_eq {e : EntryPoint Handle} (he : e ∈ m.entryPoints) :
    e.statement m'.idOf = e.statement m.idOf ∧
      e.sizeStatement? m'.idOf = e.sizeStatement? m.idOf := by
  have hid : ∀ r ∈ e.references, m'.idOf r = m.idOf r := fun r hr =>
    hp.idOf_eq (hm.entryPoints e he r hr)
  rw [EntryPoint.references, List.forall_mem_cons] at hid
  have hinterface : e.interface.map (fun v => Operand.ref (m'.idOf v)) =
      e.interface.map fun v => .ref (m.idOf v) :=
    List.map_congr_left fun v hv => by rw [hid.2 v hv]
  exact ⟨by rw [EntryPoint.statement, EntryPoint.statement, hid.1, hinterface],
    by rw [EntryPoint.sizeStatement?, EntryPoint.sizeStatement?, hid.1]⟩

theorem Contained.statements_eq : m'.statements = m.statements := by
  have hfront := hm.sectionStatements_eq hp hm.owns_front
  have hback := hm.sectionStatements_eq hp hm.owns_back
  have hentries : m.entryPoints.map (·.statement m'.idOf) =
    m.entryPoints.map (·.statement m.idOf) :=
    List.map_congr_left fun e he => (hm.entryStatement_eq hp he).1
  have hsizes : m.entryPoints.filterMap (·.sizeStatement? m'.idOf) =
      m.entryPoints.filterMap (·.sizeStatement? m.idOf) :=
    List.filterMap_congr fun e he => (hm.entryStatement_eq hp he).2
  have hfunctions : m.functions.flatMap m'.functionStatements =
      m.functions.flatMap m.functionStatements :=
    List.flatMap_congr fun f hf =>
      congrArg (· ++ _) (hm.sectionStatements_eq hp (hm.functions f hf))
  obtain ⟨insts, rfl⟩ := hp.frame
  simp only [statements]
  rw [hfront, hback, hentries, hsizes, hfunctions]

theorem Contained.encode_eq : m'.encode = m.encode := by
  have hwords : m'.headerWords = m.headerWords := by
    obtain ⟨insts, rfl⟩ := hp.frame
    rfl
  rw [encode, encode, hm.statements_eq hp, hwords]

theorem Contained.lines_eq : m'.lines = m.lines := by
  have htext (h : Handle) (hh : m.Owns h) : m'.instText h = m.instText h := by
    rw [instText, instText, hm.statement_eq hp hh]
  have hsections {hs : List Handle} (hhs : ∀ h ∈ hs, m.Owns h) :
      hs.map m'.instText = hs.map m.instText :=
        List.map_congr_left fun h hh => htext h (hhs h hh)
  have hfront := hsections hm.owns_front
  have hback := hsections hm.owns_back
  have hentries : m.entryPoints.flatMap m'.entryPointLines =
      m.entryPoints.flatMap m.entryPointLines := by
    refine List.flatMap_congr fun e he => ?_
    obtain ⟨hentry, hsize⟩ := hm.entryStatement_eq hp he
    rw [entryPointLines, entryPointLines, hentry, hsize]
  have hfunctions : m.functions.flatMap m'.functionLines =
      m.functions.flatMap m.functionLines := by
    refine List.flatMap_congr fun f hf => ?_
    have howned := hm.functions f hf
    simp only [FunctionDef.handles, List.cons_append, List.forall_mem_cons,
      List.forall_mem_append] at howned
    obtain ⟨hfunction, hparameters, hblocks⟩ := howned
    have hlines : f.blocks.flatMap m'.blockLines = f.blocks.flatMap m.blockLines := by
      refine List.flatMap_congr fun b hb => ?_
      have hblock : ∀ h ∈ b.label :: b.body, m.Owns h := fun h hh =>
        hblocks h (List.mem_flatMap.2 ⟨b, hb, hh⟩)
      rw [List.forall_mem_cons] at hblock
      rw [blockLines, blockLines, htext _ hblock.1,
        List.map_congr_left fun h hh => congrArg ("    " ++ ·) (htext h (hblock.2 h hh))]
    rw [functionLines, functionLines, htext _ hfunction, hsections hparameters, hlines]
  obtain ⟨insts, rfl⟩ := hp.frame
  simp only [lines]
  rw [hfront, hback, hentries, hfunctions]

/-! ## Finding -/

theorem Contained.findKind?_eq (test : Kind Handle → Bool) (s : Section) :
    m'.findKind? test (s.handles m') = m.findKind? test (s.handles m) := by
  rw [hp.handles_eq s]
  have hall := hm.sections s
  generalize s.handles m = hs at hall
  induction hs with
  | nil => rfl
  | cons h hs ih =>
      rw [List.forall_mem_cons] at hall
      have hrest := ih hall.2
      simp only [findKind?] at hrest ⊢
      rw [List.find?_cons, List.find?_cons, hp.kindOf_eq hall.1, hrest]

theorem Contained.findBuiltIn?_eq (builtIn : Word) :
    m'.findBuiltIn? builtIn = m.findBuiltIn? builtIn := by
  have hannotations : m'.annotations = m.annotations := hp.handles_eq .annotations
  rw [findBuiltIn?_eq_findSome?, hannotations, hm.findSome?_notedVar? hp.continues.insts]

theorem Contained.pointeeStruct?_eq (hh : m.Owns h) :
    m'.pointeeStruct? h = m.pointeeStruct? h := by
  have htype : m'.typeOf? h = m.typeOf? h := congrArg Inst.resultType (hp.inst_eq h hh)
  simp only [pointeeStruct?, htype]
  cases ht : m.typeOf? h with
  | none => rfl
  | some t =>
      have hpointee : m'.pointee? t = m.pointee? t := by
        rw [pointee?, pointee?, hp.kindOf_eq (hm.owns_of_typeOf? ht)]
      simp only [Option.bind_eq_bind, Option.bind_some, hpointee]
      cases hb : m.pointee? t with
      | none => rfl
      | some block => simp only [Option.bind_some, hp.kindOf_eq (hm.owns_of_pointee? hb)]

theorem Contained.consolidate_eq : m'.consolidate.annotations = m.consolidate.annotations := by
  have hannotations : m'.annotations = m.annotations := hp.handles_eq .annotations
  change (m'.annotations.eraseDupsBy fun a b => m'.inst a = m'.inst b) = _
  rw [hannotations]
  refine eraseDupsBy_congr fun a ha b hb => ?_
  rw [hp.inst_eq a (hm.sections .annotations a ha), hp.inst_eq b (hm.sections .annotations b hb)]

theorem Contained.reintern_eq : m'.reintern.interned = m.reintern.interned := by
  have hglobals : m'.globals = m.globals := hp.handles_eq .globals
  have hdistinct : m'.distinct = m.distinct := by
    obtain ⟨insts, rfl⟩ := hp.frame
    rfl
  simp only [reintern, hglobals, hdistinct]
  exact List.filterMap_congr fun h hh => by rw [hp.inst_eq h (hm.sections .globals h hh)]

/-! ## Checking -/

theorem Contained.decorations_eq (target : Handle) (decoration : Decoration) :
    m'.decorations target decoration = m.decorations target decoration := by
  have hannotations : m'.annotations = m.annotations := hp.handles_eq .annotations
  rw [decorations, decorations, hannotations]
  exact List.filterMap_congr fun h hh => by rw [hp.kindOf_eq (hm.sections .annotations h hh)]

theorem Contained.memberDecorations_eq (target : Handle)
    (member : Word) (decoration : Decoration) :
    m'.memberDecorations target member decoration =
      m.memberDecorations target member decoration := by
  have hannotations : m'.annotations = m.annotations := hp.handles_eq .annotations
  rw [memberDecorations, memberDecorations, hannotations]
  exact List.filterMap_congr fun h hh => by rw [hp.kindOf_eq (hm.sections .annotations h hh)]

theorem Contained.globalFindings_eq (hh : m.Owns h) :
    m'.globalFindings h = m.globalFindings h := by
  have hdecorated (target : Handle) (decoration : Decoration) :
      m'.hasDecoration target decoration = m.hasDecoration target decoration := by
    rw [hasDecoration, hm.decorations_eq hp, hasDecoration]
  have hblock (block : Handle) (members : List Handle) (hb : m.Owns block) :
      m'.blockFindings h block members = m.blockFindings h block members := by
    have hplaced (count : Word) : m'.placedMembers block count =
        m.placedMembers block count := by
      simp only [placedMembers, memberOffset?, hm.memberDecorations_eq hp]
    simp only [blockFindings, offsetFindings, hdecorated, hplaced, hp.idOf_eq hb, hp.idOf_eq hh]
  simp only [globalFindings, hdecorated, hp.kindOf_eq hh, hm.pointeeStruct?_eq hp hh,
    hp.idOf_eq hh]
  cases hfound : m.pointeeStruct? h with
  | none => rfl
  | some found => simp only [hblock _ _ (hm.owns_of_pointeeStruct? hfound)]

theorem Contained.validate_eq : m'.validate = m.validate := by
  have hglobals : m'.globals = m.globals := hp.handles_eq .globals
  rw [validate, validate, hp.entryPoints_eq, hglobals]
  exact congrArg (_ ++ ·)
    (List.flatMap_congr fun h hh => hm.globalFindings_eq hp (hm.sections .globals h hh))

end

end KernelGrid.Module
