import KernelGrid.Proofs.Kernel.BlockDecoration

/-!
# Variables for allocations

Where the global block is laid out, each allocation that the host reports is looked for among
the names, and the variable that has its name is bound.
-/

namespace KernelGrid.Module

variable {m m' : Module} {host : Host} {names : List String} {name : String} {var : Handle}

theorem FirstNamed.unique {v w : Handle} (hv : m.FirstNamed name v) (hw : m.FirstNamed name w) :
    v = w :=
  Option.some.inj ((findNamed?_eq_some.2 hv).symm.trans (findNamed?_eq_some.2 hw))

theorem FirstNamed.not_namesNothing (hvar : m.FirstNamed name var) : ¬m.NamesNothing name := by
  rw [← findNamed?_eq_none, findNamed?_eq_some.2 hvar]
  exact Option.some_ne_none var

theorem exists_firstNamed_of_getElem? {vars : List Handle} {j : Nat}
    (hvars : List.Forall₂ m.FirstNamed names vars) (hname : names[j]? = some name) :
    ∃ v, vars[j]? = some v ∧ m.FirstNamed name v := by
  have hfind : vars[j]?.map some = some (m.findNamed? name) := by
    rw [← List.getElem?_map, ← map_findNamed?_eq.2 hvars, List.getElem?_map, hname,
      Option.map_some]
  obtain ⟨v, hv, hfirst⟩ := Option.map_eq_some_iff.1 hfind
  exact ⟨v, hv, findNamed?_eq_some.1 hfirst.symm⟩

structure NamesVar (m : Module) (name : String) (var : Handle) : Prop where
  first : m.FirstNamed name var
  listed : var ∈ m.globals
  isVar : (m.kindOf var).isVar

theorem slotNotes_subset_bindingNotes {first : Word} {vars : List Handle} {n j : Nat}
    (hvar : vars[j]? = some var) : slotNotes var (first + (n + j).toUInt32) ⊆
      bindingNotes (slotsFrom first n vars) := by
  intro k hk
  refine List.mem_flatMap.2 ⟨(var, first + (n + j).toUInt32), ?_, hk⟩
  exact List.mem_map.2 ⟨(var, n + j), List.mk_add_mem_zipIdx_iff_getElem?.2 hvar, rfl⟩

theorem bound_of_complete {block : Handle} {offsets : List Word} {vars : List Handle} {j : Nat}
    {v : Handle} (hv : vars[j]? = some v) :
    [0] ∈ (m.annotated (layoutNotes var block offsets vars)).decorations v .descriptorSet ∧
      [firstAllocationBinding + j.toUInt32] ∈
        (m.annotated (layoutNotes var block offsets vars)).decorations v .binding := by
  have hsub : slotNotes v (firstAllocationBinding + (0 + j).toUInt32) ⊆
      (m.annotated (layoutNotes var block offsets vars)).notes := fun k hk =>
    notes_subset_annotated m _ (List.mem_append_right _ (slotNotes_subset_bindingNotes hv hk))
  rw [Nat.zero_add] at hsub
  exact ⟨mem_decorations.2 (hsub (by simp [slotNotes])),
    mem_decorations.2 (hsub (by simp [slotNotes]))⟩

/-- Only what is named first is bound. -/
theorem BlockDecoration.decorations_binding {result : Except KernelError BlockOutcome}
    {notes : List (Kind Handle)} {g : Handle} (hdecoration : BlockDecoration m host result notes)
    (hnamed : ∀ name ∈ globalBlockName :: host.allocations.getD [], ¬m.FirstNamed name g) :
    (m.annotated notes).decorations g .binding = m.decorations g .binding := by
  rw [decorations_eq_notes, decorations_eq_notes]
  refine filterMap_notes_annotated (fun k hk => ?_) rfl
  refine Option.eq_none_iff_forall_ne_some.2 fun words hwords => ?_
  obtain rfl := Kind.wordsOn?_eq_some.1 hwords
  obtain ⟨name, hname, v, binding, hv, hslot⟩ | ⟨-, -, -, -, -, hslot⟩ :=
    hdecoration.mem_notes hk
  · obtain rfl := Option.some.inj (decorated?_of_mem_slotNotes hslot)
    exact hnamed name hname hv
  · cases hslot

/-- When the global block has been decorated, and the host has laid it out, each allocation is
one of the names, and bound in its place if that is the name of a variable.  An allocation that
is none of the names is reported.  Nothing else is bound but the global block. -/
theorem decorateGlobalBlock_binds (hallocations : host.allocations = some names) :
    (∀ outcome m', decorateGlobalBlock host m = (.ok outcome, m') →
      m.NamesNothing globalBlockName ∨ host.layout = none ∨
        ∀ (j : Nat) name, names[j]? = some name → ¬m.NamesNothing name ∧
          ∀ var, m.NamesVar name var → [0] ∈ m'.decorations var .descriptorSet ∧
            [firstAllocationBinding + j.toUInt32] ∈ m'.decorations var .binding) ∧
    (∀ name ∈ names, m.NamesNothing name → ¬m.NamesNothing globalBlockName → host.layout ≠ none →
      ∃ e m', decorateGlobalBlock host m = (.error e, m')) ∧
    (∀ before missing after, names = before ++ missing :: after → m.NamesNothing missing →
      (∀ name ∈ before, ∃ var, m.NamesVar name var) → ∀ var block offsets,
        m.NamesVar globalBlockName var → m.LaysOut host var block offsets →
          ∃ m', decorateGlobalBlock host m = (.error (.missingAllocation missing), m')) ∧
    ∀ g, (decorateGlobalBlock host m).2.decorations g .binding ≠ m.decorations g .binding →
      ∃ name ∈ globalBlockName :: names, m.FirstNamed name g := by
  refine ⟨fun outcome m' hrun => ?_, fun name hname hnothing hnamed hlayout => ?_, ?_,
    fun g hg => ?_⟩
  · obtain ⟨notes, hdecoration, rfl⟩ := decorateGlobalBlock_eq_iff.1 hrun
    cases hdecoration with
    | noBlock hnothing => exact .inl hnothing
    | noHostLayout _ hlayout => exact .inr (.inl hlayout)
    | noAllocations _ hnone =>
        rw [hallocations] at hnone
        cases hnone
    | complete _ hsome hvars =>
        obtain rfl := Option.some.inj (hallocations.symm.trans hsome)
        refine .inr (.inr fun j name hname => ?_)
        obtain ⟨v, hv, hfirst⟩ := exists_firstNamed_of_getElem? hvars hname
        refine ⟨hfirst.not_namesNothing, fun var hvar => ?_⟩
        obtain rfl := hfirst.unique hvar.first
        exact bound_of_complete hv
  · obtain ⟨result, notes, hdecoration⟩ := exists_blockDecoration m host
    cases result with
    | error e => exact ⟨e, _, hdecoration.run⟩
    | ok outcome =>
        exfalso
        cases hdecoration with
        | noBlock hnone => exact hnamed hnone
        | noHostLayout _ hnone => exact hlayout hnone
        | noAllocations _ hnone =>
            rw [hallocations] at hnone
            cases hnone
        | complete _ hsome hvars =>
            obtain rfl := Option.some.inj (hallocations.symm.trans hsome)
            obtain ⟨j, hj⟩ := List.mem_iff_getElem?.1 hname
            obtain ⟨v, -, hfirst⟩ := exists_firstNamed_of_getElem? hvars hj
            exact hfirst.not_namesNothing hnothing
  · rintro before missing after rfl hmissing hbefore var block offsets - hlaysOut
    obtain ⟨vars, hvars⟩ | ⟨_, name, _, _, rfl, -, hnothing⟩ := m.forall₂_firstNamed_or before
    · exact ⟨_, (BlockDecoration.missingAllocation hlaysOut hallocations hvars hmissing).run⟩
    · obtain ⟨v, hv⟩ := hbefore name (by simp)
      exact (hv.first.not_namesNothing hnothing).elim
  · obtain ⟨result, notes, hdecoration⟩ := exists_blockDecoration m host
    rw [hdecoration.run] at hg
    by_contra hnone
    refine hg (hdecoration.decorations_binding fun name hname hfirst => hnone ⟨name, ?_, hfirst⟩)
    rwa [hallocations] at hname

def backedHost : Host := ⟨some (.struct [0, 16]), some ["a"]⟩

theorem decorateGlobalBlock_binds_blockAndVariable : ∃ m m', load blockAndVariable = .ok m ∧
    decorateGlobalBlock backedHost m = (.ok .complete, m') ∧ m.NamesVar "a" ⟨2⟩ ∧
    [0] ∈ m'.decorations ⟨2⟩ .descriptorSet ∧ [3] ∈ m'.decorations ⟨2⟩ .binding ∧
    ∃ m'', decorateGlobalBlock blockHost m = (.error (.missingAllocation "b"), m'') := by
  have hread : (load blockAndVariable).toOption.map (fun m =>
      ([globalBlockName, "a", "b"].map m.findNamed?, m.pointeeStruct? ⟨0⟩,
        [⟨0⟩, ⟨2⟩].map fun h : Handle => (decide (h ∈ m.globals), (m.kindOf h).isVar))) =
      some ([some ⟨0⟩, some ⟨2⟩, none], some (⟨5⟩, [⟨4⟩, ⟨4⟩]),
        [(true, true), (true, true)]) := by
    decide +kernel
  obtain ⟨m, hload, hread⟩ := exists_of_map_toOption hread
  obtain ⟨⟨hnamed, ha, hb⟩, htyped, ⟨hblockListed, hblockVar⟩, hlisted, hvar⟩ := by
    simpa only [List.map_cons, List.map_nil, List.cons.injEq, and_true, Prod.mk.injEq,
      decide_eq_true_eq] using hread
  have hblock : m.IsGlobalBlock ⟨0⟩ ⟨5⟩ [⟨4⟩, ⟨4⟩] :=
    ⟨findNamed?_eq_some.1 hnamed, pointeeStruct?_eq_some.1 htyped⟩
  have hnamesBlock : m.NamesVar globalBlockName ⟨0⟩ := ⟨hblock.named, hblockListed, hblockVar⟩
  have hnamesVar : m.NamesVar "a" ⟨2⟩ := ⟨findNamed?_eq_some.1 ha, hlisted, hvar⟩
  have hlaysOut : m.LaysOut backedHost ⟨0⟩ ⟨5⟩ [0, 16] := ⟨⟨_, hblock, by decide⟩, rfl⟩
  have hrun := (BlockDecoration.complete hlaysOut rfl (.cons hnamesVar.first .nil)).run
  have hnames : backedHost.allocations = some ["a"] := rfl
  obtain ⟨hbinds, -⟩ := decorateGlobalBlock_binds (m := m) hnames
  obtain hnothing | hlayout | hall := hbinds _ _ hrun
  · exact (hblock.named.not_namesNothing hnothing).elim
  · cases hlayout
  obtain ⟨hset, hslot⟩ := (hall 0 "a" rfl).2 ⟨2⟩ hnamesVar
  have hnames' : blockHost.allocations = some ["a", "b"] := rfl
  obtain ⟨-, -, hmissing, -⟩ := decorateGlobalBlock_binds (m := m) hnames'
  refine ⟨m, _, hload, hrun, hnamesVar, hset, hslot, ?_⟩
  refine hmissing ["a"] "b" [] rfl (findNamed?_eq_none.1 hb) ?_ ⟨0⟩ ⟨5⟩ [0, 16] hnamesBlock
    ⟨hlaysOut.isBlock, rfl⟩
  simpa using ⟨_, hnamesVar⟩

/-- Without a global block no allocation is looked for. -/
theorem not_binds_empty : ¬∀ (w : List Word) (m : Module) (host : Host) (names : List String),
    load w = .ok m → host.allocations = some names → names.Nodup →
      ∀ outcome m', decorateGlobalBlock host m = (.ok outcome, m') →
        ∀ (j : Nat) name, names[j]? = some name → ∃ var ∈ m.named name, var ∈ m.globals ∧
          (m.kindOf var).isVar ∧ [0] ∈ m'.decorations var .descriptorSet ∧
            [firstAllocationBinding + j.toUInt32] ∈ m'.decorations var .binding := by
  intro hall
  have hread : (load [Stream.magic, 0x10000, 0, 1, 0]).toOption.map (·.debug) = some [] := by
    decide +kernel
  obtain ⟨m, hload, hdebug⟩ := exists_of_map_toOption hread
  have hnothing : m.NamesNothing globalBlockName := by
    intro h hh
    rw [hdebug] at hh
    cases hh
  have hdecoration : BlockDecoration m backedHost _ _ := .noBlock hnothing
  obtain ⟨var, hnamed, -⟩ :=
    hall _ m backedHost ["a"] hload rfl (by simp) _ _ hdecoration.run 0 "a" rfl
  rw [named, hdebug] at hnamed
  cases hnamed

end KernelGrid.Module
