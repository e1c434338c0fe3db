import KernelGrid.Module.Listing
import KernelGrid.Proofs.Module.Contents
import KernelGrid.Proofs.Module.EmittedRecords
import KernelGrid.Proofs.Text.Visible

/-!
# Listings

A listing shows each record that is written of a module on a line of its own, in the order of
the records but for the sizes of work groups.  What texts a module holds has no influence on
how many lines there are.
-/

namespace KernelGrid

open KernelGrid.Stream Text

/-! ## Lines -/

def Statement.line (s : Statement) : String :=
  (match s.resultId with
    | some id => "%" ++ toString id ++ " = "
    | none => "")
    ++ s.opcode.name
    ++ (match s.resultType with
      | some id => " %" ++ toString id
      | none => "")
    ++ String.join ((s.operands.filterMap Operand.text?).map (" " ++ ·))

namespace Item

def ofEntry (e : EntryPoint ResultId) : Item ResultId := .entryPoint (e.withSize none)

def sizeOf? (e : EntryPoint ResultId) : Option (Item ResultId) :=
  e.localSize.map fun size => .inst (.plain (.executionMode e.function .localSize size.toList))

def indent (inBody : Bool) : String := if inBody then "    " else ""

/-- What is in the body of a block, from its label on, is indented.  An empty line stands in
front of each function. -/
def lines : Bool → List (Item ResultId) → List String
  | _, [] => []
  | inBody, x :: xs =>
    if x.statement.opcode = Form.function.opcode then "" :: x.statement.line :: lines false xs
    else if x.statement.opcode = Form.label.opcode then x.statement.line :: lines true xs
    else if x.statement.opcode = Opcode.functionEnd then x.statement.line :: lines false xs
    else (indent inBody ++ x.statement.line) :: lines inBody xs

end Item

theorem intercalate_cons (separator s : String) (ss : List String) :
    separator.intercalate (s :: ss) = s ++ String.join (ss.map (separator ++ ·)) := by
  induction ss generalizing s with
  | nil => rw [String.intercalate_singleton, List.map_nil, String.join_nil, String.append_empty]
  | cons t ss ih =>
      rw [String.intercalate_cons_cons, ih, List.map_cons, String.join_cons, String.append_assoc,
        String.append_assoc]

theorem Statement.text_eq_line (s : Statement) : s.text = s.line := by
  obtain ⟨opcode, resultType, resultId, operands⟩ := s
  cases resultType with
  | none =>
      rw [text, line, Option.toList_none, List.map_nil, List.cons_append, List.nil_append,
        intercalate_cons, String.append_empty, String.append_assoc]
      cases resultId <;> rfl
  | some type =>
      have hspace : " " ++ (toString "%" ++ toString type) = " %" ++ toString type := by
        rw [← String.append_assoc]
        rfl
      simp only [text, line, Option.toList_some, List.map_cons, List.map_nil, List.cons_append,
        List.nil_append, intercalate_cons, String.join_cons, hspace, String.append_assoc]
      cases resultId <;> rfl

/-! ## Visible lines -/

namespace Operand

def Labelled {ρ : Type} : Operand ρ → Prop
  | named _ label | remark label => Visible label
  | _ => True

theorem Labelled.visible {t : Operand ResultId} (ht : t.Labelled) :
    ∀ s ∈ t.text?, Visible s := by
  cases t
  case ref id =>
    rintro _ ⟨⟩
    exact (Plain.visible (by decide)).append (visible_word id)
  case literal w =>
    rintro _ ⟨⟩
    exact visible_word w
  case string text =>
    rintro _ ⟨⟩
    exact visible_quote text
  case named code label =>
    rintro _ ⟨⟩
    exact ht
  case hidden => exact nofun
  case remark label =>
    rintro _ ⟨⟩
    exact ht

theorem Labelled.map {ρ σ : Type} {f : ρ → σ} {t : Operand ρ} (ht : t.Labelled) :
    (t.map f).Labelled := by
  cases t <;> exact ht

section

variable {ρ : Type}

@[simp] theorem labelled_ref (r : ρ) : (ref r).Labelled := trivial

@[simp] theorem labelled_literal (w : Word) : (literal w : Operand ρ).Labelled := trivial

@[simp] theorem labelled_string (s : String) : (string s : Operand ρ).Labelled := trivial

@[simp] theorem labelled_hidden (w : Word) : (hidden w : Operand ρ).Labelled := trivial

@[simp] theorem labelled_enumerant {v : Vocabulary} [v.IsPlain] (e : Enumerant v) :
    (e.operand : Operand ρ).Labelled := e.visible_name

end

end Operand

theorem Kind.labelled_operands {ρ : Type} (k : Kind ρ) : ∀ t ∈ k.operands, t.Labelled := by
  cases k
  case placeholder => exact List.forall_mem_singleton.2 (Plain.visible (by decide))
  all_goals simp [operands]

theorem Statement.visible_line {s : Statement} (hs : ∀ t ∈ s.operands, t.Labelled) :
    Visible s.line := by
  obtain ⟨opcode, resultType, resultId, operands⟩ := s
  refine (((Visible.append ?_ opcode.visible_name).append ?_).append (.join ?_))
  · cases resultId with
    | none => exact visible_empty
    | some id =>
        exact ((Plain.visible (by decide)).append (visible_word id)).append
          (Plain.visible (by decide))
  · cases resultType with
    | none => exact visible_empty
    | some id => exact (Plain.visible (by decide)).append (visible_word id)
  · refine List.forall_mem_map.2 fun text htext => (Plain.visible (by decide)).append ?_
    obtain ⟨t, ht, heq⟩ := List.mem_filterMap.1 htext
    exact (hs t ht).visible text heq

theorem Item.visible_line (x : Item ResultId) : Visible x.statement.line := by
  refine Statement.visible_line ?_
  cases x with
  | entryPoint e => simp [statement, EntryPoint.statement, Statement.plain]
  | functionEnd => simp [statement, Statement.functionEnd, Statement.plain]
  | inst i =>
      refine List.forall_mem_map.2 fun t ht => ?_
      exact (i.kind.labelled_operands t ht).map

theorem Header.visible_text (h : Header) : Visible h.text := by
  have hversion := (Plain.visible (s := "; SPIR-V ") (by decide)).append
    (visible_word ((h.version >>> 16) &&& 0xff))
  have hminor := (hversion.append (Plain.visible (s := ".") (by decide))).append
    (visible_word ((h.version >>> 8) &&& 0xff))
  have hgenerator := (hminor.append (Plain.visible (s := ", generator 0x") (by decide))).append
    (visible_hexadecimal h.generator.toNat)
  exact (hgenerator.append (Plain.visible (s := ", bound ") (by decide))).append
    (visible_word h.bound)

/-! ## Lines of items -/

namespace Item

variable {inBody : Bool} {xs ys : List (Item ResultId)}

/-- The opcodes behind which something else than the body of a block may stand. -/
def turningOpcodes : List Opcode := [Form.function.opcode, Form.label.opcode, Opcode.functionEnd]

theorem lines_append (hxs : ∀ x ∈ xs, x.statement.opcode ∉ turningOpcodes) :
    lines inBody (xs ++ ys) =
      xs.map (fun x => indent inBody ++ x.statement.line) ++ lines inBody ys := by
  induction xs with
  | nil => rfl
  | cons x xs ih =>
      rw [List.forall_mem_cons] at hxs
      obtain ⟨hx, hxs⟩ := hxs
      simp only [turningOpcodes, List.mem_cons, List.not_mem_nil, or_false, not_or] at hx
      rw [List.cons_append, lines, if_neg hx.1, if_neg hx.2.1, if_neg hx.2.2, ih hxs]
      rfl

theorem lines_append_outside (hxs : ∀ x ∈ xs, x.statement.opcode ∉ turningOpcodes) :
    lines false (xs ++ ys) = xs.map (fun x => x.statement.line) ++ lines false ys := by
  rw [lines_append hxs]
  simp [indent]

theorem lines_function {x : Item ResultId} (hx : x.statement.opcode = Form.function.opcode) :
    lines inBody (x :: xs) = "" :: x.statement.line :: lines false xs := if_pos hx

theorem lines_label {x : Item ResultId} (hx : x.statement.opcode = Form.label.opcode) :
    lines inBody (x :: xs) = x.statement.line :: lines true xs := by
  rw [lines, if_neg (by rw [hx]; decide), if_pos hx]

theorem lines_functionEnd : lines inBody (functionEnd :: xs) =
    Statement.functionEnd.line :: lines false xs := rfl

theorem visible_lines : ∀ line ∈ lines inBody xs, Visible line := by
  have hindent (inBody : Bool) : Visible (indent inBody) := by
    cases inBody <;> exact Plain.visible (by decide)
  induction xs generalizing inBody with
  | nil => exact List.forall_mem_nil _
  | cons x xs ih =>
      rw [lines]
      split
      · exact List.forall_mem_cons.2 ⟨visible_empty, List.forall_mem_cons.2 ⟨x.visible_line, ih⟩⟩
      split
      · exact List.forall_mem_cons.2 ⟨x.visible_line, ih⟩
      split
      · exact List.forall_mem_cons.2 ⟨x.visible_line, ih⟩
      · exact List.forall_mem_cons.2 ⟨(hindent inBody).append x.visible_line, ih⟩

end Item

/-! ## Lines of modules -/

namespace Module

variable {m : Module}

theorem instText_eq_line (m : Module) (h : Handle) :
    m.instText h = (Item.inst (m.wire h)).statement.line := by
  rw [instText, Statement.text_eq_line, statement_eq_wire]
  rfl

theorem opcode_wire (m : Module) (h : Handle) :
    (Item.inst (m.wire h)).statement.opcode = (m.kindOf h).opcode := Inst.opcode_map ..

def wiredItems (m : Module) (hs : List Handle) : List (Item ResultId) :=
  hs.map fun h => .inst (m.wire h)

theorem wiredItems_append (m : Module) (hs gs : List Handle) :
    m.wiredItems (hs ++ gs) = m.wiredItems hs ++ m.wiredItems gs := List.map_append

theorem map_instText (m : Module) (hs : List Handle) :
    (m.wiredItems hs).map (fun x => x.statement.line) = hs.map m.instText := by
  rw [wiredItems, List.map_map]
  exact List.map_congr_left fun h _ => (m.instText_eq_line h).symm

theorem Legible.notMem_turningOpcodes (hm : m.Legible) {h : Handle} (hh : h ∈ m.listed)
    (hop : (m.kindOf h).opcode ∉ FunctionDef.outlineOpcodes) :
    (Item.inst (m.wire h)).statement.opcode ∉ Item.turningOpcodes := by
  simp only [FunctionDef.outlineOpcodes, Item.turningOpcodes, List.mem_cons, List.not_mem_nil,
    or_false, not_or] at hop ⊢
  rw [opcode_wire]
  refine ⟨hop.1, hop.2.2, fun hend => ?_⟩
  exact (hm.insts h hh).genuine.opcode_ne.2 ((m.opcode_wire h).trans hend)

theorem Legible.lines_blocks (hm : m.Legible) {inBody : Bool} {bs : List Block}
    {ys : List (Item ResultId)}
    (hlabels : ∀ b ∈ bs, (m.kindOf b.label).opcode = Form.label.opcode)
    (hbodies : ∀ b ∈ bs, ∀ h ∈ b.body, h ∈ m.listed ∧
      (m.kindOf h).opcode ∉ FunctionDef.outlineOpcodes) :
    Item.lines inBody
        (m.wiredItems (bs.flatMap fun b => b.label :: b.body) ++ .functionEnd :: ys) =
      bs.flatMap m.blockLines ++ Statement.functionEnd.line :: Item.lines false ys := by
  -- A label starts a body whether or not one is open, so the next block may stand in either.
  induction bs generalizing inBody with
  | nil => exact Item.lines_functionEnd
  | cons b bs ih =>
      rw [List.forall_mem_cons] at hlabels hbodies
      have hsplit : m.wiredItems ((b :: bs).flatMap fun b => b.label :: b.body) ++
          .functionEnd :: ys = .inst (m.wire b.label) :: (m.wiredItems b.body ++
            (m.wiredItems (bs.flatMap fun b => b.label :: b.body) ++ .functionEnd :: ys)) := by
        simp [wiredItems]
      have hbody : ∀ x ∈ m.wiredItems b.body, x.statement.opcode ∉ Item.turningOpcodes :=
        List.forall_mem_map.2 fun h hh =>
          hm.notMem_turningOpcodes (hbodies.1 h hh).1 (hbodies.1 h hh).2
      rw [hsplit, Item.lines_label ((m.opcode_wire _).trans hlabels.1), Item.lines_append hbody,
        ih hlabels.2 hbodies.2, ← instText_eq_line, wiredItems, List.map_map]
      simp only [Function.comp_def, ← instText_eq_line, List.flatMap_cons, List.append_assoc]
      rfl

/-- A function is listed behind an empty line, with the bodies of its blocks indented. -/
theorem Legible.lines_function (hm : m.Legible) {f : FunctionDef} (hf : f ∈ m.functions)
    (ys : List (Item ResultId)) :
    Item.lines false (m.wiredItems f.handles ++ .functionEnd :: ys) =
      m.functionLines f ++ Item.lines false ys := by
  have hshaped := hm.functions f hf
  have hlisted {h : Handle} (hh : h ∈ f.handles) : h ∈ m.listed :=
    mem_listed.2 (.inr ⟨f, hf, hh⟩)
  have hsplit : m.wiredItems f.handles ++ .functionEnd :: ys =
      .inst (m.wire f.function) :: (m.wiredItems f.parameters ++
        (m.wiredItems (f.blocks.flatMap fun b => b.label :: b.body) ++ .functionEnd :: ys)) := by
    simp [wiredItems, FunctionDef.handles]
  have hparameters : ∀ x ∈ m.wiredItems f.parameters, x.statement.opcode ∉ Item.turningOpcodes :=
    List.forall_mem_map.2 fun p hp => by
      rw [opcode_wire, hshaped.parameters p hp]
      decide
  have hbodies : ∀ b ∈ f.blocks, ∀ h ∈ b.body,
      h ∈ m.listed ∧ (m.kindOf h).opcode ∉ FunctionDef.outlineOpcodes := fun b hb h hh =>
    ⟨hlisted (List.mem_append_right _ (List.mem_flatMap.2 ⟨b, hb, List.mem_cons_of_mem _ hh⟩)),
      hshaped.bodies b hb h hh⟩
  rw [hsplit, Item.lines_function ((m.opcode_wire _).trans hshaped.function),
    Item.lines_append_outside hparameters, hm.lines_blocks hshaped.labels hbodies, map_instText,
    ← instText_eq_line, functionLines, Statement.text_eq_line]
  simp

def frontItems (m : Module) : List (Item ResultId) :=
  m.wiredItems (m.capabilities ++ m.extensions ++ m.extInstImports ++ m.memoryModel.toList)

def backItems (m : Module) : List (Item ResultId) :=
  m.wiredItems (m.executionModes ++ m.debug ++ m.annotations ++ m.globals)
    ++ m.functions.flatMap fun f => m.wiredItems f.handles ++ [.functionEnd]

theorem Legible.written_eq (hm : m.Legible) : m.written = m.frontItems ++
    m.wireEntries.map Item.ofEntry ++ m.wireEntries.filterMap Item.sizeOf? ++ m.backItems := by
  have hinsts (hs : List Handle) : (hs.map m.emitInst).map Prod.fst = m.wiredItems hs :=
    List.map_map
  have hentries : (m.entryPoints.map m.emitEntry).map Prod.fst =
      m.wireEntries.map Item.ofEntry := by
    rw [wireEntries, List.map_map, List.map_map]
    rfl
  have hsizes : (m.entryPoints.filterMap m.emitSize?).map Prod.fst =
      m.wireEntries.filterMap Item.sizeOf? := by
    rw [wireEntries, List.map_filterMap, List.filterMap_map]
    refine List.filterMap_congr fun e _ => ?_
    rw [emitSize?, Option.map_map]
    rfl
  have hfunctions : (m.functions.flatMap m.emitFunction).map Prod.fst =
      m.functions.flatMap fun f => m.wiredItems f.handles ++ [.functionEnd] := by
    rw [List.map_flatMap]
    refine List.flatMap_congr fun f _ => ?_
    rw [emitFunction, List.map_append, hinsts]
    rfl
  rw [written, recorded_eq_map fun _ => hm.isPlaceholder_of_mem_emitted, emitted]
  simp only [List.map_append, emitSections, hinsts, hentries, hsizes, hfunctions, frontItems,
    backItems, wiredItems_append, List.flatMap_cons, List.flatMap_nil, List.append_nil,
    Section.handles, List.append_assoc]

theorem Legible.lines_sections (hm : m.Legible) {hs : List Handle} {ys : List (Item ResultId)}
    (hhs : ∀ h ∈ hs, ∃ s : Section, h ∈ s.handles m) :
    Item.lines false (m.wiredItems hs ++ ys) = hs.map m.instText ++ Item.lines false ys := by
  have hplain : ∀ x ∈ m.wiredItems hs, x.statement.opcode ∉ Item.turningOpcodes := by
    refine List.forall_mem_map.2 fun h hh => ?_
    obtain ⟨s, hs⟩ := hhs h hh
    exact hm.notMem_turningOpcodes (mem_listed.2 (.inl ⟨s, hs⟩)) (hm.sections s h hs).2
  rw [Item.lines_append_outside hplain, map_instText]

theorem statement_ofEntry (m : Module) (e : EntryPoint Handle) :
    (Item.ofEntry (e.map m.idOf)).statement = e.statement m.idOf :=
      EntryPoint.statement_map m.idOf id e

theorem statement_sizeOf? (m : Module) (e : EntryPoint Handle) :
    (Item.sizeOf? (e.map m.idOf)).map Item.statement = e.sizeStatement? m.idOf :=
      Option.map_map ..

/-- The size of an entry point's work group is listed right behind it. -/
theorem lines_entries (m : Module) (ys : List (Item ResultId)) :
    Item.lines false
        (m.wireEntries.flatMap (fun e => .ofEntry e :: (Item.sizeOf? e).toList) ++ ys) =
      m.entryPoints.flatMap m.entryPointLines ++ Item.lines false ys := by
  have hplain : ∀ x ∈ m.wireEntries.flatMap fun e => .ofEntry e :: (Item.sizeOf? e).toList,
      x.statement.opcode ∉ Item.turningOpcodes := by
    intro x hx
    obtain ⟨e, -, hx⟩ := List.mem_flatMap.1 hx
    obtain rfl | hx := List.mem_cons.1 hx
    · exact (by decide : Opcode.entryPoint ∉ Item.turningOpcodes)
    · obtain ⟨size, -, rfl⟩ := Option.map_eq_some_iff.1 (Option.mem_toList.1 hx)
      exact (by decide : Form.executionMode.opcode ∉ Item.turningOpcodes)
  rw [Item.lines_append_outside hplain, wireEntries, List.flatMap_map, List.map_flatMap]
  refine congrArg (· ++ _) (List.flatMap_congr fun e _ => ?_)
  rw [entryPointLines, ← statement_sizeOf?, List.map_cons, statement_ofEntry,
    Statement.text_eq_line]
  cases Item.sizeOf? (e.map m.idOf) with
  | none => rfl
  | some x => exact congrArg _ (congrArg (fun s => [s]) x.statement.text_eq_line.symm)

theorem Legible.lines_functions (hm : m.Legible)
    {fs : List FunctionDef} (hfs : ∀ f ∈ fs, f ∈ m.functions) :
    Item.lines false (fs.flatMap fun f => m.wiredItems f.handles ++ [.functionEnd]) =
      fs.flatMap m.functionLines := by
  induction fs with
  | nil => rfl
  | cons f fs ih =>
      rw [List.forall_mem_cons] at hfs
      rw [List.flatMap_cons, List.append_assoc, List.singleton_append, hm.lines_function hfs.1,
        ih hfs.2, List.flatMap_cons]

theorem Legible.lines_eq (hm : m.Legible) :
    m.lines = m.header.text :: Item.lines false (m.frontItems ++
    m.wireEntries.flatMap (fun e => .ofEntry e :: (Item.sizeOf? e).toList) ++ m.backItems) := by
  rw [frontItems, backItems, List.append_assoc, hm.lines_sections, lines_entries,
    hm.lines_sections, hm.lines_functions fun _ => id, lines]
  · simp only [List.append_assoc, List.cons_append]
  · simp only [List.mem_append]
    rintro h (((hh | hh) | hh) | hh)
    · exact ⟨.executionModes, hh⟩
    · exact ⟨.debug, hh⟩
    · exact ⟨.annotations, hh⟩
    · exact ⟨.globals, hh⟩
  · simp only [List.mem_append]
    rintro h (((hh | hh) | hh) | hh)
    · exact ⟨.capabilities, hh⟩
    · exact ⟨.extensions, hh⟩
    · exact ⟨.extInstImports, hh⟩
    · exact ⟨.memoryModel, hh⟩

theorem Legible.visible_lines (hm : m.Legible) : ∀ line ∈ m.lines, Visible line := by
  rw [hm.lines_eq]
  exact List.forall_mem_cons.2 ⟨m.header.visible_text, Item.visible_lines⟩

theorem ne_entryPoint {x : Item ResultId} (hx : x ∈ m.frontItems ++ m.backItems)
    (e : EntryPoint ResultId) : x ≠ .entryPoint e := by
  rintro rfl
  simp [frontItems, backItems, wiredItems] at hx

theorem Legible.ofRecord_number (hm : m.Legible) :
    List.Forall₂ (fun r x => Item.ofRecord m.header.bound r = .ok x)
      (Record.number 5 (m.written.map Item.statement)) m.written := by
  have hwritten : m.written = m.emitted.map Prod.fst :=
    recorded_eq_map fun _ => hm.isPlaceholder_of_mem_emitted
  rw [hwritten, List.map_map, List.forall₂_map_right_iff]
  exact Record.ofRecord_number Prod.fst hm.readable_emitted 5

/-- What was read and is written again is listed record by record: a header line and a line for
what each record says, in the order of the records, except that the size of a work group stands
right behind its entry point.  Whatever texts the module holds, each line shows on one line. -/
theorem listing_shows {w : List Word} (hdecode : decode w = .ok m) :
    ∃ v records, m.encode = .ok v ∧ Record.split ⟨5, v.drop 5⟩ = (records, none) ∧
      ∃ (front : List (Item ResultId)) (entries : List (EntryPoint ResultId))
      (back : List (Item ResultId)),
        List.Forall₂ (fun r x => Item.ofRecord m.header.bound r = .ok x) records
          (front ++ entries.map Item.ofEntry ++ entries.filterMap Item.sizeOf? ++ back) ∧
        (∀ x ∈ front ++ back, ∀ e, x ≠ .entryPoint e) ∧
        m.lines = m.header.text :: Item.lines false
          (front ++ entries.flatMap (fun e => .ofEntry e :: (Item.sizeOf? e).toList) ++ back) ∧
        pieces '\n' m.listing.toList = m.lines.map String.toList ++ [[]] ∧
        ∀ line ∈ m.lines, Visible line := by
  obtain ⟨_, _, _, _, _, -, -, _, _, _, -, hD⟩ := exists_decoded hdecode
  have hm := hD.legible
  have hencode := encode_of_fits (fits_written_iff.1 (fits_of_decode hdecode))
  have hrecords := hm.ofRecord_number
  rw [hm.written_eq] at hrecords
  refine ⟨_, _, hencode, (split_of_encode hencode).2.1, m.frontItems, m.wireEntries,
    m.backItems, ?_, fun _ => ne_entryPoint, hm.lines_eq, pieces_join hm.visible_lines,
    hm.visible_lines⟩
  rwa [hm.written_eq]

def unevenTexts : List Word :=
  [magic, 0x10000, 0, 5, 0, 0x5000f, 5, 1, 0x62220a61, 0, 0x4000f, 5, 1, 0, 0x60010, 1, 17,
    4, 1, 1, 0x30005, 2, 0xa880e2, 0x20013, 2, 0x30021, 3, 2, 0x50036, 2, 1, 0, 3, 0x200f8, 4,
    0x100fd, 0x10038]

theorem listing_shows_unevenTexts : ∃ m v records, decode unevenTexts = .ok m ∧
    m.encode = .ok v ∧ Record.split ⟨5, v.drop 5⟩ = (records, none) ∧ m.lines = [
    "; SPIR-V 1.0, generator 0x0, bound 5", "OpEntryPoint GLCompute %1 \"a\\n\\\"b\"",
    "OpExecutionMode %1 LocalSize 4 1 1", "OpEntryPoint GLCompute %1 \"\"",
    "OpName %2 \"\\u\x7b2028\x7d\"", "%2 = OpTypeVoid", "%3 = OpTypeFunction %2", "",
    "%1 = OpFunction %2 0 %3", "%4 = OpLabel", "    OpReturn", "OpFunctionEnd"] ∧
    pieces '\n' m.listing.toList = m.lines.map String.toList ++ [[]] := by
  have hread : (decode unevenTexts).toOption.map Module.lines = some [
      "; SPIR-V 1.0, generator 0x0, bound 5", "OpEntryPoint GLCompute %1 \"a\\n\\\"b\"",
      "OpExecutionMode %1 LocalSize 4 1 1", "OpEntryPoint GLCompute %1 \"\"",
      "OpName %2 \"\\u\x7b2028\x7d\"", "%2 = OpTypeVoid", "%3 = OpTypeFunction %2", "",
      "%1 = OpFunction %2 0 %3", "%4 = OpLabel", "    OpReturn", "OpFunctionEnd"] := by
    decide +kernel
  obtain ⟨m, hdecode, hlines⟩ := exists_of_map_toOption hread
  obtain ⟨v, records, hencode, hsplit, _, _, _, -, -, -, hpieces, -⟩ := listing_shows hdecode
  exact ⟨m, v, records, hdecode, hencode, hsplit, hlines, hpieces⟩

end Module

end KernelGrid
