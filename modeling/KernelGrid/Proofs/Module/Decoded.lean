import KernelGrid.Proofs.Module.Rereading

/-!
# Modules that were read

Every record of a stream that is accepted may stand where it stands, and defines an id below the
bound.  So a module that was read lists each instruction once, where reading puts it.
-/

namespace KernelGrid

open KernelGrid.Stream

/-! ## Accepted records -/

theorem Context.allows_of_executionMode {i : Inst ResultId} (c : Context)
    (hmode : i.opcode = Form.executionMode.opcode) : c.Allows (Item.inst i).mark := by
  obtain ⟨f, size, hmark, -⟩ | hmark := Item.mark_cases i
  · rw [hmark]
    trivial
  · rw [hmark]
    exact .inl hmode

theorem Assembly.allows_of_place {op : Opcode} {h : Handle} {a a' : Assembly}
    (hplace : a.place op h = .ok a') {c : Context} (hposition : c.position = a.position) :
    c.Allows (.inst op) := by
  refine .inr ?_
  rw [hposition, position]
  unfold place at hplace
  cases hcurrent : a.current with
  | none =>
      simp only [hcurrent] at hplace
      split at hplace
      · rename_i hfunction
        rw [hfunction]
        exact ⟨by decide, by decide⟩
      · split at hplace
        · cases hplace
        · rename_i houtline
          exact not_or.1 houtline
  | some f =>
      simp only [hcurrent, bind, Except.bind, OpenFunction.add] at hplace
      split at hplace
      · cases hplace
      rename_i f' hadd
      split at hadd
      · cases hadd
      rename_i hfunction
      split at hadd
      · rename_i hparameter
        split at hadd
        · rename_i hempty
          cases hblock : f.block with
          | none => simp [OpenFunction.position, hblock, hparameter]
          | some b => simp [OpenFunction.close, hblock] at hempty
        · cases hadd
      rename_i hparameter
      split at hadd
      · rename_i hlabel
        cases hblock : f.block with
        | none => simp [OpenFunction.position, hblock, hlabel]
        | some b =>
            simp only [OpenFunction.position, hblock, hlabel]
            exact ⟨by decide, by decide⟩
      · cases hblock : f.block with
        | none => simp [hblock] at hadd
        | some b => simp [OpenFunction.position, hblock, hfunction, hparameter]

section

variable {α : Type} {item : α → Item ResultId} {known : ResultId → Prop} {header : Header}
  {bound : ResultId} {xs : List α} {x : α} {a a' : Assembly} {origin : Handle → Option α}

theorem Assembled.allows_of_accept {r : Record} (hA : Assembled item known header xs a origin)
    (hbound : bound ≤ header.bound) (hr : Item.ofRecord bound r = .ok (item x))
    (hacc : a.accept bound r = .ok a') :
    (after item xs).Allows (item x).mark ∧ ∀ id ∈ (item x).result?, IdBelow bound id := by
  have hread := (Item.readable_of_ofRecord hr).1
  have haccepts := hA.accepts hbound hr hacc
  generalize item x = y at hread haccepts
  cases haccepts with
  | entryPoint => exact ⟨trivial, by simp [Item.result?]⟩
  | functionEnd hclose =>
      refine ⟨?_, by simp [Item.result?]⟩
      change (after item xs).position ≠ .outside
      rw [hA.frames.position, Assembly.position]
      cases hcurrent : a.current with
      | none => simp [Assembly.close, hcurrent] at hclose
      | some f => exact f.position_ne_outside
  | claim _ hmode _ | mode _ _ _ hmode =>
      have hnone := (hread.plain_of_executionMode hmode).2
      exact ⟨Context.allows_of_executionMode _ hmode, by simp [Item.result?, hnone]⟩
  | place hl hs hmode hplace =>
      rw [Item.mark_of_opcode_ne hmode]
      exact ⟨Assembly.allows_of_place hplace hA.frames.position,
        fun id hid => hs.below id (hl.resultId ▸ hid)⟩

/-- An entry point comes from a record, which does not state its size. -/
theorem Assembled.exists_entry (hA : Assembled item known header xs a origin)
    {e : EntryPoint Handle} (he : e ∈ a.module.entryPoints) :
    ∃ x ∈ xs, ∃ d, item x = .entryPoint d ∧
      d.withSize none = (e.map a.module.idOf).withSize none := by
  have hmem : (e.map a.module.idOf).withSize none ∈
      (entries item xs).map (EntryPoint.withSize none) := by
    rw [← EntryPoint.map_withSize_sized, ← hA.enters.entryPoints]
    exact List.mem_map_of_mem (List.mem_map_of_mem he)
  obtain ⟨d, hd, heq⟩ := List.mem_map.1 hmem
  obtain ⟨x, hx, hitem⟩ := List.mem_filterMap.1 hd
  refine ⟨x, mem_of_mem_inPlace hx, d, ?_, heq⟩
  cases hxi : item x with
  | entryPoint d' =>
      rw [hxi] at hitem
      exact congrArg Item.entryPoint (Option.some.inj hitem)
  | functionEnd | inst =>
      rw [hxi] at hitem
      cases hitem

end

namespace Module

theorem EndOf.allowed {m : Module} {header : Header} {records : List Record}
    {item : Record → Item ResultId} (hm : m.EndOf header records item) :
    Context.start.AllowsAll (records.map (Item.mark ∘ item)) ∧
      ∀ r ∈ records, ∀ id ∈ (item r).result?, IdBelow header.bound id := by
  refine hm.induction (P := fun xs _ => Context.start.AllowsAll (xs.map (Item.mark ∘ item)) ∧
    ∀ x ∈ xs, ∀ id ∈ (item x).result?, IdBelow header.bound id) ⟨trivial, by simp⟩ ?_
  intro xs x a a' origin r hA hr hacc hxs
  obtain ⟨hallow, hbelow⟩ := hA.allows_of_accept (UInt32.le_refl _) hr hacc
  refine ⟨?_, List.forall_mem_append.2 ⟨hxs.2, by simpa using hbelow⟩⟩
  rw [List.map_append]
  exact Context.allowsAll_append hxs.1 ⟨hallow, trivial⟩

theorem EndOf.mentions_below {m : Module} {header : Header} {records : List Record}
    {item : Record → Item ResultId} (hm : m.EndOf header records item) :
    ∀ r ∈ records, ∀ id ∈ (item r).mentions, IdBelow header.bound id := by
  obtain ⟨-, hresults⟩ := hm.allowed
  intro r hr id hid
  have hreadable := (Item.readable_of_ofRecord (hm.read r hr)).1
  have hresult := hresults r hr id
  cases hitem : item r with
  | entryPoint e =>
      rw [hitem] at hid hreadable
      exact EntryPoint.Readable.references_below hreadable id hid
  | functionEnd =>
      rw [hitem] at hid
      cases hid
  | inst i =>
      rw [hitem] at hid hreadable hresult
      obtain hid | hid := List.mem_append.1 hid
      · exact Inst.Readable.references_below hreadable id hid
      · exact hresult (Option.mem_toList.1 hid)

structure Decoded (m : Module) (records : List Record) (item : Record → Item ResultId)
    (origin : Handle → Option Record) : Prop where
  bound_pos : 1 ≤ m.header.bound
  bound_le : m.header.bound ≤ maxIdBound
  distinct : records.Nodup
  read : ∀ r ∈ records, Item.ofRecord m.header.bound r = .ok (item r)
  allowed : Context.start.AllowsAll (records.map (Item.mark ∘ item))
  below : ∀ r ∈ records, ∀ id ∈ (item r).result?, IdBelow m.header.bound id
  assembled : Assembled item (fun _ => True) m.header records ⟨m, none⟩ origin

variable {m : Module} {records : List Record} {item : Record → Item ResultId}
  {origin : Handle → Option Record}

theorem exists_decoded {w : List Word} (hdecode : decode w = .ok m) :
    ∃ version generator bound schema body,
      w = magic :: version :: generator :: bound :: schema :: body ∧
      m.header = ⟨version, generator, max bound 1⟩ ∧ ∃ records item origin,
      Record.split ⟨Stream.headerWords, body⟩ = (records, none) ∧
      m.Decoded records item origin := by
  obtain ⟨version, generator, bound, schema, body, hw, hbound, records, hsplit, item, hm⟩ :=
    exists_endOf hdecode
  obtain ⟨origin, hA⟩ := hm.assembled fun _ _ _ _ => trivial
  obtain ⟨hallowed, hbelow⟩ := hm.allowed
  have hheader : m.header = ⟨version, generator, max bound 1⟩ := hA.header
  have hmax : m.header.bound = max bound 1 := by rw [hheader]
  refine ⟨version, generator, bound, schema, body, hw, hheader, records, item, origin,
    hsplit, ?_⟩
  refine ⟨?_, ?_, Record.nodup_of_split hsplit, ?_, hallowed, ?_, ?_⟩
  · rw [hmax]
    exact Word.le_max_right bound 1
  · rw [hmax]
    exact Word.max_le hbound (by decide)
  · rw [hheader]
    exact hm.read
  · rwa [hmax]
  · rw [hheader]
    exact hA

namespace Decoded

variable (hD : m.Decoded records item origin)

include hD

/-! ### Sections and functions -/

theorem readable {r : Record} (hr : r ∈ records) : (item r).Readable m.header.bound :=
  (Item.readable_of_ofRecord (hD.read r hr)).1

theorem mem_of_section {s : Section} {h : Handle} (hh : h ∈ s.handles m) :
    ∃ r, origin h = some r ∧ r ∈ goesTo item records (.listed s) := by
  have hmem := List.mem_map_of_mem (f := origin) hh
  rw [hD.assembled.lists.sections s, List.mem_map] at hmem
  obtain ⟨r, hr, heq⟩ := hmem
  refine ⟨r, heq.symm, ?_⟩
  unfold Section.keep at hr
  split at hr
  · exact List.mem_of_getLast? (Option.mem_toList.1 hr)
  · exact hr

theorem mem_of_function {f : FunctionDef} (hf : f ∈ m.functions) {h : Handle}
    (hh : h ∈ f.handles) : ∃ r, origin h = some r ∧ r ∈ goesTo item records .function := by
  have hlists := hD.assembled.lists.functions
  simp only [Assembly.openHandles, Option.toList_none, List.flatMap_nil, List.map_nil,
    List.append_nil] at hlists
  have hmem : origin h ∈ (goesTo item records .function).map (inst? item) := by
    rw [← hlists]
    exact List.mem_flatMap.2 ⟨f, hf, List.mem_append_left _ (List.mem_map_of_mem hh)⟩
  have hsome : (origin h).isSome := hD.assembled.lists.settled h
    (List.mem_append_left _ (List.mem_flatMap.2 ⟨f, hf, hh⟩))
  obtain ⟨r, hr, heq⟩ := List.mem_map.1 hmem
  unfold inst? at heq
  split at heq
  · rw [← heq] at hsome
    cases hsome
  · exact ⟨r, heq.symm, hr⟩

theorem exists_record {h : Handle} (hh : h ∈ m.listed) :
    ∃ r ∈ records, origin h = some r ∧ item r = .inst (m.wire h) := by
  have horigin : ∃ r, origin h = some r := by
    obtain ⟨s, hs⟩ | ⟨f, hf, hh⟩ := mem_listed.1 hh
    · exact (hD.mem_of_section hs).imp fun _ => And.left
    · exact (hD.mem_of_function hf hh).imp fun _ => And.left
  obtain ⟨r, hr⟩ := horigin
  obtain ⟨x, hx, hxr, hitem⟩ := hD.assembled.stores.stored h
    (hD.assembled.stores.isPlaceholder_eq hr)
  rw [hr, Option.some.injEq] at hxr
  exact ⟨r, hxr ▸ hx, hr, hxr ▸ hitem⟩

theorem readable_wire {h : Handle} (hh : h ∈ m.listed) : (m.wire h).Readable m.header.bound := by
  obtain ⟨r, hr, -, hitem⟩ := hD.exists_record hh
  have hread := hD.readable hr
  rwa [hitem] at hread

theorem resultId_below {h : Handle} (hh : h ∈ m.listed) :
    ∀ id ∈ (m.inst h).resultId, IdBelow m.header.bound id := by
  obtain ⟨r, hr, -, hitem⟩ := hD.exists_record hh
  have hbelow := hD.below r hr
  rwa [hitem] at hbelow

theorem ofOpcode_eq {r : Record} {s : Section} (hr : r ∈ goesTo item records (.listed s))
    {i : Inst ResultId} (hi : item r = .inst i) :
    Section.ofOpcode i.opcode = s ∧ i.opcode ∉ FunctionDef.outlineOpcodes := by
  obtain ⟨before, behind, hrecords, hplace⟩ := exists_split_of_mem_inPlace hr
  have hallowed := hD.allowed
  rw [hrecords, List.map_append, List.map_cons] at hallowed
  have hallow := Context.allows_of_split hallowed
  rw [Function.comp_apply, hi] at hplace hallow
  obtain ⟨f, size, hmark, -⟩ | hmark := Item.mark_cases i
  · obtain ⟨i', _, _, _, hi', hkind⟩ := Item.mark_eq_size.1 hmark
    have hmode : i.opcode = Form.executionMode.opcode := by
      rw [Item.inst.inj hi', Inst.opcode, hkind]
      rfl
    obtain rfl : Section.executionModes = s := by
      simp only [hmark, Context.place] at hplace
      split at hplace
      · cases hplace
      · exact Place.listed.inj hplace
    rw [hmode]
    decide
  · rw [hmark] at hplace hallow
    obtain ⟨hsection, hfunction, hparameter, hlabel⟩ := Context.section_of_place hplace hallow
    exact ⟨hsection, by simp [FunctionDef.outlineOpcodes, hfunction, hparameter, hlabel]⟩

theorem section_eq {s : Section} {h : Handle} (hh : h ∈ s.handles m) :
    Section.ofOpcode (m.kindOf h).opcode = s ∧
      (m.kindOf h).opcode ∉ FunctionDef.outlineOpcodes := by
  obtain ⟨r, hr, hgoes⟩ := hD.mem_of_section hh
  obtain ⟨r', -, hr', hitem⟩ := hD.exists_record (mem_listed.2 (.inl ⟨s, hh⟩))
  rw [hr, Option.some.injEq] at hr'
  subst hr'
  have hop : (m.wire h).opcode = (m.kindOf h).opcode := Inst.opcode_map ..
  exact hop ▸ hD.ofOpcode_eq hgoes hitem

theorem body_opcode_ne {f : FunctionDef} (hf : f ∈ m.functions) {h : Handle}
    (hh : h ∈ f.handles) : (m.kindOf h).opcode ≠ Form.executionMode.opcode := by
  obtain ⟨r, hr, hgoes⟩ := hD.mem_of_function hf hh
  obtain ⟨r', -, hr', hitem⟩ := hD.exists_record (mem_listed.2 (.inr ⟨f, hf, hh⟩))
  rw [hr, Option.some.injEq] at hr'
  subst hr'
  obtain ⟨c, hplace⟩ := exists_place_of_mem_inPlace hgoes
  have hop : (m.wire h).opcode = (m.kindOf h).opcode := Inst.opcode_map ..
  rw [Function.comp_apply, hitem] at hplace
  intro hmode
  obtain ⟨f, size, hmark, -⟩ | hmark := Item.mark_cases (m.wire h)
  · rw [hmark, Context.place] at hplace
    split at hplace <;> cases hplace
  · rw [hmark, hop, Context.place, if_pos hmode] at hplace
    cases hplace

/-! ### Single listing -/

theorem map_origin_functions :
    (m.functions.flatMap FunctionDef.handles).map origin =
      ((goesTo item records .function).filterMap (inst? item)).map some := by
  have hlists := congrArg (List.filterMap id) hD.assembled.lists.functions
  simp only [Assembly.openHandles, Option.toList_none, List.flatMap_nil, List.map_nil,
    List.append_nil, List.filterMap_map, Function.id_comp] at hlists
  rw [← hlists, List.filterMap_flatMap, List.map_flatMap, List.map_flatMap]
  apply List.flatMap_congr
  intro f hf
  rw [List.filterMap_append, List.filterMap_map, List.filterMap_cons_none rfl,
    List.filterMap_nil, List.append_nil, Function.id_comp, List.map_filterMap,
    ← List.filterMap_eq_map]
  apply List.filterMap_congr
  intro h hh
  have hsome : (origin h).isSome := hD.assembled.lists.settled h
    (List.mem_append_left _ (List.mem_flatMap.2 ⟨f, hf, hh⟩))
  obtain ⟨r, hr⟩ := Option.isSome_iff_exists.1 hsome
  rw [Function.comp_apply, hr]
  rfl

theorem nodup_listed : m.listed.Nodup := by
  have hsections (ss : List Section) : (ss.flatMap fun s => s.handles m).map origin =
      (ss.flatMap fun s => s.keep (goesTo item records (.listed s))).map some := by
    rw [List.map_flatMap, List.map_flatMap]
    exact List.flatMap_congr fun s _ => hD.assembled.lists.sections s
  have hfunctions : ((goesTo item records .function).filterMap (inst? item)).Sublist
      (goesTo item records .function) := by
    have hguard : inst? item = Option.guard fun r => item r ≠ .functionEnd := by
      funext r
      by_cases hend : item r = .functionEnd <;> simp [inst?, Option.guard, hend]
    rw [hguard, List.filterMap_eq_filter]
    exact List.filter_sublist
  have hkept :
      (arranged (Item.mark ∘ item) records ++ leftOut (Item.mark ∘ item) records).Nodup :=
    (arranged_append_leftOut_perm records).nodup_iff.2 hD.distinct
  apply List.Nodup.of_map origin
  rw [listed_eq, List.map_append, hsections, hD.map_origin_functions, ← List.map_append]
  refine (List.nodup_map_iff (Option.some_injective _)).2
    (List.Nodup.sublist ?_ hkept.of_append_left)
  simp only [arranged, Place.order, List.flatMap_append, List.flatMap_cons, List.flatMap_nil,
    List.append_nil, Place.keep_listed, Place.keep_entryPoint, Place.keep_function,
    List.append_assoc]
  -- The places of entry points and of sizes are all that is passed over.
  refine .append (.refl _) (.append (.refl _) (.append (.refl _) (.append (.refl _) ?_)))
  refine List.sublist_append_of_sublist_right (List.sublist_append_of_sublist_right ?_)
  exact .append (.refl _) (.append (.refl _) (.append (.refl _) (.append (.refl _) hfunctions)))

theorem mem_listed_of_isSome {h : Handle} (hid : (m.inst h).resultId.isSome)
    (hstored : (m.inst h).isPlaceholder = false) : h ∈ m.listed := by
  obtain ⟨r, hr, -, hitem⟩ := hD.assembled.stores.stored h hstored
  obtain ⟨id, hid⟩ := Option.isSome_iff_exists.1 hid
  have hread := hD.readable hr
  rw [hitem] at hread
  have hmode : (m.wire h).opcode ≠ Form.executionMode.opcode := by
    intro hmode
    have hnone : (m.inst h).resultId = none := (hread.plain_of_executionMode hmode).2
    rw [hid] at hnone
    cases hnone
  -- What comes from the same record has the same id.
  have hsame {g : Handle} (hg : g ∈ m.listed) (horigin : origin g = some r) : h ∈ m.listed := by
    obtain ⟨r', -, hr', hitem'⟩ := hD.exists_record hg
    rw [horigin, Option.some.injEq] at hr'
    subst hr'
    have hresult : (m.wire g).resultId = (m.wire h).resultId := by
      rw [Item.inst.inj (hitem'.symm.trans hitem)]
    have hbyId := (hD.assembled.stores.indexed id g).2 (hresult.trans hid)
    rw [(hD.assembled.stores.indexed id h).2 hid, Option.some.injEq] at hbyId
    exact hbyId ▸ hg
  obtain ⟨p, hp⟩ : ∃ p, r ∈ goesTo item records p := exists_mem_inPlace hr
  obtain ⟨c, hplace⟩ := exists_place_of_mem_inPlace hp
  rw [Function.comp_apply, hitem, Item.mark_of_opcode_ne hmode] at hplace
  cases p with
  | listed s =>
      have hs : s ≠ .memoryModel := by
        rintro rfl
        have hop := Section.eq_of_memoryModel (hD.ofOpcode_eq hp hitem).1
        have hnone : (m.inst h).resultId = none :=
          ((Inst.hasLayout_iff .memoryModel hop).1 hread.layout).2
        rw [hid] at hnone
        cases hnone
      have hmem : some r ∈ (s.handles m).map origin := by
        have hsections : (s.handles m).map origin = _ := hD.assembled.lists.sections s
        rw [hsections, Section.keep, if_neg hs]
        exact List.mem_map_of_mem hp
      obtain ⟨g, hg, horigin⟩ := List.mem_map.1 hmem
      exact hsame (mem_listed.2 (.inl ⟨s, hg⟩)) horigin
  | function =>
      have hmem : some r ∈ (m.functions.flatMap FunctionDef.handles).map origin := by
        rw [hD.map_origin_functions]
        refine List.mem_map_of_mem (List.mem_filterMap.2 ⟨r, hp, ?_⟩)
        rw [inst?, if_neg (by rw [hitem]; simp)]
      obtain ⟨g, hg, horigin⟩ := List.mem_map.1 hmem
      obtain ⟨f, hf, hg⟩ := List.mem_flatMap.1 hg
      exact hsame (mem_listed.2 (.inr ⟨f, hf, hg⟩)) horigin
  | entryPoint =>
      obtain ⟨f, hf⟩ := Context.place_eq_entryPoint.1 hplace
      cases hf
  | size f => cases (Context.place_eq_size.1 hplace).1

/-! ### Entry points -/

theorem entry_readable {e : EntryPoint Handle} (he : e ∈ m.entryPoints) :
    ((e.map m.idOf).withSize none).Readable m.header.bound := by
  obtain ⟨r, hr, d, hitem, heq⟩ := hD.assembled.exists_entry he
  have hread := hD.readable hr
  rw [hitem] at hread
  rw [← heq]
  exact ⟨hread.function, hread.name, hread.interface, rfl⟩

theorem sizedOnce : EntryPoint.SizedOnce (m.entryPoints.map (EntryPoint.map m.idOf)) := by
  have hsized : m.entryPoints.map (EntryPoint.map m.idOf) = _ := hD.assembled.enters.entryPoints
  rw [hsized]
  exact EntryPoint.sizedOnce_sized _ _ _

/-- A module that was read lists everything where it can be read again. -/
theorem legible : m.Legible where
  bound_pos := hD.bound_pos
  bound_le := hD.bound_le
  resultIds _ hh := hD.resultId_below hh
  distinctIds := by
    refine hD.nodup_listed.filterMap ?_
    intro h g id hh hg
    have hindexed := hD.assembled.stores.indexed
    have hbyId := (hindexed id h).2 hh
    rw [(hindexed id g).2 hg, Option.some.injEq] at hbyId
    exact hbyId.symm
  insts _ hh := hD.readable_wire hh
  entries _ he := hD.entry_readable he
  sections _ _ hh := hD.section_eq hh
  functions := hD.assembled.frames.functions
  bodies f hf b hb h hh := hD.body_opcode_ne hf (List.mem_append_right _
    (List.mem_flatMap.2 ⟨b, hb, List.mem_cons_of_mem _ hh⟩))

/-- It is read again as it was, if no size is left over. -/
theorem regular (hm : m.Settled) : m.Regular where
  toLegible := hD.legible
  sized := hD.sizedOnce
  sizes := by
    intro h hh function x y z hkind hentered
    obtain ⟨e, he, heq⟩ := List.mem_map.1 hentered
    have hfunction : (m.inst function).resultId.isSome :=
      hD.assembled.stores.closed h function (Inst.mem_references.2 (.inr (by
        change function ∈ (m.kindOf h).references
        simp [hkind, Kind.references, Kind.operands])))
    exact hm h hh function x y z hkind e he (hD.assembled.stores.indexed.idOf_inj
      (hD.assembled.enters.linked e he e.function List.mem_cons_self) hfunction heq)

end Decoded

/-! ## Reading what was read once more -/

/-- A module that was read is written and read again as it is, if no work group size is left
apart from its entry point. -/
theorem decode_encode_of_settled {w : List Word} (hdecode : decode w = .ok m) (hm : m.Settled) :
    ∃ v d, m.encode = .ok v ∧ decode v = .ok d ∧ d.Agrees m ∧ d.encode = .ok v := by
  have hencode := encode_eq_ok (fits_of_decode hdecode)
  obtain ⟨_, _, _, _, _, -, -, _, _, _, -, hD⟩ := exists_decoded hdecode
  obtain ⟨d, hd, hagrees⟩ := (hD.regular hm).exists_agrees hencode
  exact ⟨_, d, hencode, hd, hagrees, hagrees.encode_eq.trans hencode⟩

def entryThenSize : List Word :=
  [magic, 0x10000, 0, 5, 0,
    0x00020011, 1, 0x0003000e, 0, 1,
    0x0005000f, 5, 3, 0x6e69616d, 0, 0x00030010, 3, 31, 0x00060010, 3, 17, 4, 1, 1,
    0x00020013, 1, 0x00030021, 2, 1,
    0x00050036, 1, 3, 0, 2, 0x000200f8, 4, 0x000100fd, 0x00010038]

/-- The entry point takes the size, and the other execution mode has no operands. -/
theorem decode_encode_of_settled_entryThenSize :
    ∃ m, decode entryThenSize = .ok m ∧ m.Settled ∧
      ∃ v d, m.encode = .ok v ∧ decode v = .ok d ∧ d.Agrees m ∧ d.encode = .ok v := by
  have hmodes : (decode entryThenSize).toOption.map (fun m => m.executionModes.map fun h =>
      (m.kindOf h).operands.length) = some [2] := by
    decide +kernel
  cases hdecode : decode entryThenSize with
  | error e =>
      rw [hdecode] at hmodes
      cases hmodes
  | ok m =>
      have hm : m.Settled := by
        intro h hh function x y z hkind
        rw [hdecode] at hmodes
        have hlengths : m.executionModes.map (fun h => (m.kindOf h).operands.length) = [2] :=
          Option.some.inj hmodes
        have hmem := List.mem_map_of_mem (f := fun h => (m.kindOf h).operands.length) hh
        rw [hlengths, hkind] at hmem
        simp [Kind.operands] at hmem
      exact ⟨m, rfl, hm, decode_encode_of_settled hdecode hm⟩

/-- A kernel without arguments whose execution modes stand in front of its entry point. -/
def sizeThenEntry : List Word :=
  [magic, 0x10000, 0, 5, 0,
    0x00020011, 1, 0x0003000e, 0, 1,
    0x00030010, 3, 31, 0x00060010, 3, 17, 4, 1, 1, 0x0005000f, 5, 3, 0x6e69616d, 0,
    0x00020013, 1, 0x00030021, 2, 1,
    0x00050036, 1, 3, 0, 2, 0x000200f8, 4, 0x000100fd, 0x00010038]

/-- A size in front of its entry point stands apart from it, until the module is written and read
once more. -/
theorem not_agrees_sizeThenEntry : ¬∀ (w : List Word) (m : Module), decode w = .ok m →
    ∃ v d, m.encode = .ok v ∧ decode v = .ok d ∧ d.Agrees m := by
  intro hall
  have hfirst : (decode sizeThenEntry).toOption.map (fun m => m.entryPoints.map (·.localSize)) =
      some [none] := by
    decide +kernel
  have hsecond : (decode sizeThenEntry >>= encode >>= decode).toOption.map
      (fun m => m.entryPoints.map (·.localSize)) = some [some ⟨4, 1, 1⟩] := by
    decide +kernel
  cases hdecode : decode sizeThenEntry with
  | error e =>
      rw [hdecode] at hfirst
      cases hfirst
  | ok m =>
      obtain ⟨v, d, hv, hd, hagrees⟩ := hall sizeThenEntry m hdecode
      rw [hdecode] at hfirst
      rw [hdecode] at hsecond
      simp only [bind, Except.bind, hv, hd] at hsecond
      have hm : m.entryPoints.map (·.localSize) = [none] := Option.some.inj hfirst
      have hd : d.entryPoints.map (·.localSize) = [some ⟨4, 1, 1⟩] := Option.some.inj hsecond
      have hsizes := congrArg (List.map EntryPoint.localSize) hagrees.entryPoints
      rw [List.map_map, List.map_map] at hsizes
      have hsame : d.entryPoints.map (·.localSize) = m.entryPoints.map (·.localSize) := hsizes
      rw [hm, hd] at hsame
      cases hsame

end Module

end KernelGrid
