import KernelGrid.Proofs.Module.Soundness

/-!
# Settled modules

A work group size that stands in front of the entry point of its function stands apart from it.
In what was written of a module there is no such size.
-/

namespace KernelGrid

open KernelGrid.Stream

/-! ## Entered functions -/

theorem Context.mem_entered_run {c : Context} {ks : List Mark} {f : ResultId} :
    f ∈ (c.run ks).entered ↔ f ∈ c.entered ∨ .entryPoint f ∈ ks := by
  induction ks generalizing c with
  | nil => simp
  | cons k ks ih =>
      have hnext : f ∈ (c.next k).entered ↔ f ∈ c.entered ∨ k = .entryPoint f := by
        cases k with
        | entryPoint g => simp [next, eq_comm]
        | functionEnd | size => simp [next]
        | inst op =>
            simp only [entered_next_of_ne (k := .inst op) (by simp), reduceCtorEq, or_false]
      rw [run_cons, ih, hnext, List.mem_cons, or_assoc, eq_comm (a := Mark.entryPoint f)]

namespace Module

variable {m : Module} {records : List Record} {item : Record → Item ResultId}
  {origin : Handle → Option Record}

/-- A module is settled if no size stands in front of all entry points of its function. -/
theorem Decoded.settled (hD : m.Decoded records item origin)
    (hsizes : ∀ before r behind f, records = before ++ r :: behind → (item r).mark = .size f →
      (∃ r' ∈ behind, (item r').mark = .entryPoint f) →
        ∃ r' ∈ before, (item r').mark = .entryPoint f) : m.Settled := by
  rintro h hh function x y z hkind e he rfl
  obtain ⟨r, horigin, hr⟩ := hD.mem_of_section (s := .executionModes) hh
  obtain ⟨before, behind, hsplit, hplace⟩ := exists_split_of_mem_inPlace hr
  have hitem : item r = .inst (m.wire h) := by
    obtain ⟨r', -, horigin', hitem⟩ :=
      hD.exists_record (mem_listed.2 (.inl ⟨.executionModes, hh⟩))
    rw [horigin, Option.some.injEq] at horigin'
    exact horigin' ▸ hitem
  have hmark : (item r).mark = .size (m.idOf e.function) := by
    refine Item.mark_eq_size.2 ⟨_, x, y, z, hitem, ?_⟩
    rw [wire, Inst.kind_map]
    change (m.kindOf h).map m.idOf = _
    rw [hkind]
    rfl
  -- the size was read in front of every entry point of the function
  have hbefore :
      m.idOf e.function ∉ (Context.start.run (before.map (Item.mark ∘ item))).entered := by
    intro hentered
    have hsize :
        (Context.start.run (before.map (Item.mark ∘ item))).place ((Item.mark ∘ item) r) =
          .size (m.idOf e.function) := Context.place_eq_size.2 ⟨hmark, hentered⟩
    rw [hplace] at hsize
    cases hsize
  have hentered : m.idOf e.function ∈ (after item records).entered := by
    have hmap : (m.entryPoints.map (EntryPoint.map m.idOf)).map (·.function) =
        (entries item records).map (·.function) := by
      have hsized : m.entryPoints.map (EntryPoint.map m.idOf) = _ :=
        hD.assembled.enters.entryPoints
      rw [hsized, EntryPoint.map_function_sized]
    rw [entered_eq, ← hmap, List.map_map]
    exact List.mem_map_of_mem (f := (·.function) ∘ EntryPoint.map m.idOf) he
  rw [Context.mem_entered_run, not_or] at hbefore
  have hnot : ¬∃ r' ∈ before, (item r').mark = .entryPoint (m.idOf e.function) := by
    rintro ⟨r', hr', hmark'⟩
    exact hbefore.2 (List.mem_map.2 ⟨r', hr', hmark'⟩)
  refine hnot (hsizes before r behind _ hsplit hmark ?_)
  rw [after, Context.mem_entered_run] at hentered
  obtain hstart | hmem := hentered
  · cases hstart
  obtain ⟨r', hr', hmark'⟩ := List.mem_map.1 hmem
  rw [hsplit, List.mem_append, List.mem_cons] at hr'
  obtain hr' | rfl | hr' := hr'
  · exact absurd ⟨r', hr', hmark'⟩ hnot
  · rw [Function.comp_apply, hmark] at hmark'
    cases hmark'
  · exact ⟨r', hr', hmark'⟩

/-- Whether a size of work groups never stands in front of all entry points of its function, so
also whenever each execution mode stands behind an entry point of its function. -/
def SizesFollow (records : List Record) : Prop :=
  ∀ before r behind f, records = before ++ r :: behind → r.mark = .size f →
    (∃ r' ∈ behind, r'.mark = .entryPoint f) → ∃ r' ∈ before, r'.mark = .entryPoint f

theorem settled_of_load {w : List Word} (hload : load w = .ok m)
    (hsizes : SizesFollow (Record.split ⟨Stream.headerWords, w.drop Stream.headerWords⟩).1) :
    m.Settled := by
  obtain ⟨d, hdecode, -, rfl⟩ := load_eq_ok.1 hload
  obtain ⟨version, generator, bound, schema, body, rfl, -, records, item, origin, hsplit, hD⟩ :=
    exists_decoded hdecode
  change SizesFollow (Record.split ⟨Stream.headerWords, body⟩).1 at hsizes
  rw [hsplit] at hsizes
  have hmarks (r : Record) (hr : r ∈ records) : r.mark = (item r).mark :=
    Record.mark_eq (hD.read r hr)
  refine hD.settled ?_
  rintro before r behind f hrecords hsize ⟨r', hr', hentry⟩
  obtain ⟨r'', hr'', hentry'⟩ := hsizes before r behind f hrecords
    ((hmarks r (by simp [hrecords])).trans hsize)
    ⟨r', hr', (hmarks r' (by simp [hrecords, hr'])).trans hentry⟩
  exact ⟨r'', hr'', (hmarks r'' (by simp [hrecords, hr''])).symm.trans hentry'⟩

/-! ## What was written -/

theorem Record.opcode_of_mark_size {r : Record} {f : ResultId} (hr : r.mark = .size f) :
    r.opcode = Form.executionMode.opcode := by
  unfold Record.mark at hr
  repeat' split at hr
  all_goals first | assumption | cases hr

theorem Record.opcode_of_mark_entryPoint {r : Record} {f : ResultId}
    (hr : r.mark = .entryPoint f) : r.opcode = Opcode.entryPoint := by
  unfold Record.mark at hr
  repeat' split at hr
  all_goals first | assumption | cases hr

theorem opcodes_number (offset : Nat) (ss : List Statement) :
    (Record.number offset ss).map (·.opcode) = ss.map (·.opcode) := by
  induction ss generalizing offset with
  | nil => rfl
  | cons s ss ih => rw [Record.number, List.map_cons, List.map_cons, ih]

theorem exists_of_mem_sectionStatements {hs : List Handle} {s : Statement}
    (hmem : s ∈ m.sectionStatements hs) : ∃ h ∈ hs, s.opcode = (m.kindOf h).opcode := by
  obtain ⟨h, hh, rfl⟩ := List.mem_map.1 hmem
  exact ⟨h, List.mem_of_mem_filter hh, rfl⟩

theorem Sound.opcode_ne_entryPoint (hm : m.Sound) {h : Handle} (hh : h ∈ m.listed) :
    (m.kindOf h).opcode ≠ Opcode.entryPoint := by
  have hgenuine := (hm.writable h hh).genuine
  change (m.kindOf h).Genuine at hgenuine
  cases hkind : m.kindOf h
  case raw op words =>
    rw [hkind] at hgenuine
    exact hgenuine.2.1
  case placeholder =>
    rw [hkind] at hgenuine
    exact hgenuine.elim
  all_goals
    rw [Kind.opcode]
    decide

theorem Sound.exists_ordered (hm : m.Sound) : ∃ front back, m.statements = front ++ back ∧
    (∀ s ∈ front, s.opcode ≠ Form.executionMode.opcode) ∧
      ∀ s ∈ back, s.opcode ≠ Opcode.entryPoint := by
  have hlisted {hs : List Handle} (hs' : ∀ h ∈ hs, h ∈ m.listed) :
      ∀ s ∈ m.sectionStatements hs, s.opcode ≠ Opcode.entryPoint := by
    intro s hmem
    obtain ⟨h, hh, heq⟩ := exists_of_mem_sectionStatements hmem
    exact heq ▸ hm.opcode_ne_entryPoint (hs' h hh)
  have hstatements : m.statements =
      (m.sectionStatements (m.capabilities ++ m.extensions ++ m.extInstImports ++
        m.memoryModel.toList) ++ m.entryPoints.map (·.statement m.idOf)) ++
      (m.entryPoints.filterMap (·.sizeStatement? m.idOf) ++
        (m.sectionStatements (m.executionModes ++ m.debug ++ m.annotations ++ m.globals) ++
          m.functions.flatMap m.functionStatements)) := by
    simp only [statements, List.append_assoc]
  refine ⟨_, _, hstatements, ?_, ?_⟩
  · refine List.forall_mem_append.2 ⟨fun s hmem => ?_, fun s hmem => ?_⟩
    · obtain ⟨h, hh, heq⟩ := exists_of_mem_sectionStatements hmem
      rw [heq]
      simp only [List.mem_append] at hh
      have hsection : ∃ t : Section, h ∈ t.handles m ∧ t ≠ .executionModes := by
        obtain ((hh | hh) | hh) | hh := hh
        · exact ⟨.capabilities, hh, by decide⟩
        · exact ⟨.extensions, hh, by decide⟩
        · exact ⟨.extInstImports, hh, by decide⟩
        · exact ⟨.memoryModel, hh, by decide⟩
      obtain ⟨t, ht, hne⟩ := hsection
      intro hop
      refine hne ((hm.sections t h ht).1.symm.trans ?_)
      rw [hop]
      decide
    · obtain ⟨e, -, rfl⟩ := List.mem_map.1 hmem
      change Opcode.entryPoint ≠ _
      decide
  · refine List.forall_mem_append.2 ⟨fun s hmem => ?_, List.forall_mem_append.2 ⟨hlisted ?_, ?_⟩⟩
    · obtain ⟨e, -, hsize⟩ := List.mem_filterMap.1 hmem
      obtain ⟨size, -, rfl⟩ := Option.map_eq_some_iff.1 hsize
      change Form.executionMode.opcode ≠ _
      decide
    · intro h hh
      simp only [List.mem_append] at hh
      obtain ((hh | hh) | hh) | hh := hh
      · exact mem_listed.2 (.inl ⟨.executionModes, hh⟩)
      · exact mem_listed.2 (.inl ⟨.debug, hh⟩)
      · exact mem_listed.2 (.inl ⟨.annotations, hh⟩)
      · exact mem_listed.2 (.inl ⟨.globals, hh⟩)
    · intro s hmem
      obtain ⟨f, hf, hmem⟩ := List.mem_flatMap.1 hmem
      obtain hmem | hmem := List.mem_append.1 hmem
      · exact hlisted (fun h hh => mem_listed.2 (.inr ⟨f, hf, hh⟩)) s hmem
      · rw [List.mem_singleton.1 hmem]
        change Opcode.functionEnd ≠ _
        decide

theorem Sound.settled_of_decode (hm : m.Sound) {w : List Word} {d : Module}
    (hencode : m.encode = .ok w) (hdecode : decode w = .ok d) : d.Settled := by
  have hfits := fits_of_encode hencode
  obtain ⟨version, generator, bound, schema, body, hw, -, records, item, origin, hsplit, hD⟩ :=
    exists_decoded hdecode
  obtain rfl : records = Record.number 5 m.statements := by
    rw [encode_eq_ok hfits, hw, Except.ok.injEq] at hencode
    simp only [headerWords, List.cons_append, List.nil_append, List.cons.injEq,
      true_and] at hencode
    obtain ⟨-, -, -, -, rfl⟩ := hencode
    have hnumbered := Record.split_words (Record.fits_number hfits 5)
      (Record.consecutive_number 5 m.statements)
    rw [Record.flatMap_words_number] at hnumbered
    exact congrArg Prod.fst (hsplit.symm.trans hnumbered)
  have hmarks (r : Record) (hr : r ∈ Record.number 5 m.statements) : r.mark = (item r).mark :=
    Record.mark_eq (hD.read r hr)
  obtain ⟨front, back, hstatements, hfront, hback⟩ := hm.exists_ordered
  refine hD.settled ?_
  rintro before r behind f hsplit hsize ⟨r', hr', hentry⟩
  -- a record behind an execution mode is no entry point
  have hop : r.opcode = Form.executionMode.opcode := by
    refine Record.opcode_of_mark_size ((hmarks r (hsplit ▸ by simp)).trans hsize)
  have hop' : r'.opcode = Opcode.entryPoint := by
    refine Record.opcode_of_mark_entryPoint ((hmarks r' (hsplit ▸ by simp [hr'])).trans hentry)
  have hopcodes := opcodes_number 5 m.statements
  rw [hsplit, hstatements, List.map_append, List.map_append, List.map_cons] at hopcodes
  have hmem : r'.opcode ∈ back.map (·.opcode) := by
    have hrest' : r'.opcode ∈ behind.map (·.opcode) := List.mem_map_of_mem hr'
    obtain ⟨between, hfront', hrest⟩ | ⟨between, -, hrest⟩ :=
      List.append_eq_append_iff.1 hopcodes
    · cases between with
      | nil =>
          rw [List.nil_append] at hrest
          exact hrest ▸ List.mem_cons_of_mem _ hrest'
      | cons op between =>
          obtain ⟨rfl, -⟩ := List.cons.inj hrest
          have hmem : r.opcode ∈ front.map (·.opcode) := by
            rw [hfront']
            simp
          obtain ⟨s, hs, heq⟩ := List.mem_map.1 hmem
          exact absurd (heq.trans hop) (hfront s hs)
    · rw [hrest]
      exact List.mem_append_right _ (List.mem_cons_of_mem _ hrest')
  obtain ⟨s, hs, heq⟩ := List.mem_map.1 hmem
  exact absurd (heq.trans hop') (hback s hs)

end Module

end KernelGrid
