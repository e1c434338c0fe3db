import KernelGrid.Proofs.Kernel.Conservation
import KernelGrid.Proofs.Module.Annotations

/-!
# Outcomes of decorating the global block

Which answer is given for which module and host, and what has been attached by then.
-/

namespace KernelGrid

namespace Module

variable {m m' : Module} {var block target g : Handle} {name : String} {binding : Word}
  {notes : List (Kind Handle)} {k : Kind Handle}

/-! ## Names -/

def FirstNamed (m : Module) (name : String) (target : Handle) : Prop :=
  ∃ before h after, m.debug = before ++ h :: after ∧ m.kindOf h = .debugName target name ∧
    ∀ g ∈ before, ∀ t, m.kindOf g ≠ .debugName t name

def NamesNothing (m : Module) (name : String) : Prop :=
  ∀ h ∈ m.debug, ∀ t, m.kindOf h ≠ .debugName t name

theorem named?_eq_some {i : Inst Handle} :
    i.named? name = some target ↔ i.kind = .debugName target name := by
  rw [Inst.named?]
  split
  next t text heq => simp only [heq, Kind.debugName.injEq]; grind
  next hne => simp only [reduceCtorEq, false_iff]; exact hne _ _

theorem named?_eq_none {i : Inst Handle} :
    i.named? name = none ↔ ∀ t, i.kind ≠ .debugName t name := by
  simp only [Option.eq_none_iff_forall_ne_some, ne_eq, named?_eq_some]

theorem findNamed?_eq_findSome? (m : Module) (name : String) :
    m.findNamed? name = m.debug.findSome? fun h => (m.inst h).named? name := by
  rw [findNamed?, named_eq, contents, List.head?_filterMap, List.findSome?_map]
  rfl

theorem findNamed?_eq_some : m.findNamed? name = some target ↔ m.FirstNamed name target := by
  simp only [findNamed?_eq_findSome?, List.findSome?_eq_some_iff, named?_eq_some, named?_eq_none,
    FirstNamed, kindOf]

theorem findNamed?_eq_none : m.findNamed? name = none ↔ m.NamesNothing name := by
  simp only [findNamed?_eq_findSome?, List.findSome?_eq_none_iff, named?_eq_none,
    NamesNothing, kindOf]

theorem map_findNamed?_eq {names : List String} {vars : List Handle} :
    names.map m.findNamed? = vars.map some ↔ List.Forall₂ m.FirstNamed names vars := by
  simp only [← List.forall₂_eq_eq_eq, List.forall₂_map_left_iff, List.forall₂_map_right_iff,
    findNamed?_eq_some]

theorem findNamed?_annotated (hnotes : ∀ k ∈ notes, k.decorated?.isSome) (name : String) :
    (m.annotated notes).findNamed? name = m.findNamed? name := by
  have hinst (h : Handle) : ((m.annotated notes).inst h).named? name =
      (m.inst h).named? name := by
    refine Option.ext fun t => ?_
    rw [named?_eq_some, named?_eq_some]
    change (m.annotated notes).kindOf h = _ ↔ m.kindOf h = _
    obtain heq | ⟨heq, hmem⟩ := m.kindOf_annotated notes h
    · rw [heq]
    · have hdecorated := hnotes _ hmem
      rw [heq]
      constructor <;> intro hname
      · rw [hname] at hdecorated
        cases hdecorated
      · cases hname
  simp only [findNamed?_eq_findSome?, hinst]
  rfl

theorem firstNamed_annotated (hnotes : ∀ k ∈ notes, k.decorated?.isSome) :
    (m.annotated notes).FirstNamed name target ↔ m.FirstNamed name target := by
  rw [← findNamed?_eq_some, findNamed?_annotated hnotes, findNamed?_eq_some]

theorem forall₂_firstNamed_annotated {names : List String} {vars : List Handle}
    (hnotes : ∀ k ∈ notes, k.decorated?.isSome) (hvars : List.Forall₂ m.FirstNamed names vars) :
    List.Forall₂ (m.annotated notes).FirstNamed names vars :=
  hvars.imp fun _ _ => (firstNamed_annotated hnotes).2

theorem namesNothing_annotated (hnotes : ∀ k ∈ notes, k.decorated?.isSome) :
    (m.annotated notes).NamesNothing name ↔ m.NamesNothing name := by
  rw [← findNamed?_eq_none, findNamed?_annotated hnotes, findNamed?_eq_none]

/-! ## The global block -/

theorem bindSlot_eq (var : Handle) (binding : Word) (m : Module) :
    bindSlot var binding m = ((), m.annotated (slotNotes var binding)) := by
  change ((), (annotate _ (annotate _ m).2).2) = _
  rw [annotate_eq, annotate_eq, annotated_annotated]
  rfl

def PointsToStruct (m : Module) (var block : Handle) (members : List Handle) : Prop :=
  ∃ pointer storage, m.typeOf? var = some pointer ∧
    m.kindOf pointer = .typePointer storage block ∧ m.kindOf block = .typeStruct members

structure IsGlobalBlock (m : Module) (var block : Handle) (members : List Handle) : Prop where
  named : m.FirstNamed globalBlockName var
  typed : m.PointsToStruct var block members

/-- What is attached to the global block before the host is asked. -/
def blockNotes (var block : Handle) : List (Kind Handle) :=
  slotNotes var metadataBinding ++ [.decorate block .bufferBlock []]

structure LaysOut (m : Module) (host : Host) (var block : Handle) (offsets : List Word) :
    Prop where
  isBlock : ∃ members, m.IsGlobalBlock var block members ∧ offsets.length ≤ members.length
  layout : host.layout = some (.struct offsets)

/-- What is attached to a global block that the host lays out, and to variables for
allocations. -/
def layoutNotes (var block : Handle) (offsets : List Word) (vars : List Handle) :
    List (Kind Handle) :=
  blockNotes var block ++ offsetNotes block offsets.zipIdx ++
    bindingNotes (slotsFrom firstAllocationBinding 0 vars)

/-- What decorating the global block answers, and what it has attached by then. -/
inductive BlockDecoration (m : Module) (host : Host) :
    Except KernelError BlockOutcome → List (Kind Handle) → Prop
  | noBlock : m.NamesNothing globalBlockName → BlockDecoration m host (.ok .noBlock) []
  | blockShape {var : Handle} : m.FirstNamed globalBlockName var →
    (¬∃ block members, m.PointsToStruct var block members) →
    BlockDecoration m host (.error (.globalBlockShape (m.idOf var))) []
  | noHostLayout {var block : Handle} {members : List Handle} :
    m.IsGlobalBlock var block members →
    host.layout = none → BlockDecoration m host (.ok .noHostLayout) (blockNotes var block)
  | hostBlockShape {var block : Handle} {members : List Handle} :
    m.IsGlobalBlock var block members → host.layout = some .notAStruct →
    BlockDecoration m host (.error .hostBlockShape) (blockNotes var block)
  | memberCount {var block : Handle} {members : List Handle} {offsets : List Word} :
    m.IsGlobalBlock var block members → host.layout = some (.struct offsets) →
    members.length < offsets.length →
    BlockDecoration m host (.error (.memberCount offsets.length members.length))
      (blockNotes var block)
  | noAllocations {var block : Handle} {offsets : List Word} : m.LaysOut host var block offsets →
    host.allocations = none →
    BlockDecoration m host (.ok .noAllocations) (layoutNotes var block offsets [])
  | missingAllocation {var block : Handle} {offsets : List Word} {before after : List String}
      {name : String} {vars : List Handle} : m.LaysOut host var block offsets →
    host.allocations = some (before ++ name :: after) → List.Forall₂ m.FirstNamed before vars →
    m.NamesNothing name →
    BlockDecoration m host (.error (.missingAllocation name))
      (layoutNotes var block offsets vars)
  | complete {var block : Handle} {offsets : List Word} {names : List String}
    {vars : List Handle} : m.LaysOut host var block offsets → host.allocations = some names →
    List.Forall₂ m.FirstNamed names vars →
    BlockDecoration m host (.ok .complete) (layoutNotes var block offsets vars)

/-! ## What is attached -/

theorem mem_vars_of_mem_slotsFrom {first : Word} {n : Nat} {vars : List Handle}
    {slot : Handle × Word} (hslot : slot ∈ slotsFrom first n vars) : slot.1 ∈ vars := by
  obtain ⟨⟨v, i⟩, hv, rfl⟩ := List.mem_map.1 hslot
  exact List.fst_mem_of_mem_zipIdx hv

theorem decorated?_of_mem_slotNotes (hk : k ∈ slotNotes var binding) :
    k.decorated? = some var := by
  simp only [slotNotes, List.mem_cons, List.not_mem_nil, or_false] at hk
  obtain rfl | rfl := hk <;> rfl

theorem isSome_of_mem_bindingNotes {slots : List (Handle × Word)} :
    ∀ k ∈ bindingNotes slots, k.decorated?.isSome := by
  intro k hk
  obtain ⟨slot, -, hk⟩ := List.mem_flatMap.1 hk
  rw [decorated?_of_mem_slotNotes hk]
  rfl

theorem mem_layoutNotes {offsets : List Word} {vars : List Handle}
    (hk : k ∈ layoutNotes var block offsets vars) :
    (∃ v ∈ var :: vars, ∃ binding, k ∈ slotNotes v binding) ∨
      k.decorated? = some block ∧ k.isSlot = false := by
  simp only [layoutNotes, blockNotes, offsetNotes, List.mem_append, List.mem_singleton,
    List.mem_map] at hk
  obtain ((hslot | rfl) | ⟨⟨offset, i⟩, -, rfl⟩) | hbinding := hk
  · exact .inl ⟨var, by simp, metadataBinding, hslot⟩
  · exact .inr ⟨rfl, rfl⟩
  · exact .inr ⟨rfl, rfl⟩
  · obtain ⟨slot, hslot, hk⟩ := List.mem_flatMap.1 hbinding
    exact .inl ⟨slot.1, List.mem_cons_of_mem _ (mem_vars_of_mem_slotsFrom hslot), slot.2, hk⟩

theorem isSome_of_mem_laidOut {offsets : List Word} :
    ∀ k ∈ blockNotes var block ++ offsetNotes block offsets.zipIdx, k.decorated?.isSome := by
  intro k hk
  obtain ⟨v, -, binding, hk⟩ | ⟨hk, -⟩ := mem_layoutNotes
    (List.mem_append_left (bindingNotes (slotsFrom firstAllocationBinding 0 [])) hk)
  · rw [decorated?_of_mem_slotNotes hk]
    rfl
  · rw [hk]
    rfl

theorem exists_firstNamed_of_mem {names : List String} {vars : List Handle} {v : Handle}
    (hvars : List.Forall₂ m.FirstNamed names vars) (hv : v ∈ vars) :
    ∃ name ∈ names, m.FirstNamed name v := by
  have hmem : some v ∈ names.map m.findNamed? := by
    rw [map_findNamed?_eq.2 hvars]
    exact List.mem_map_of_mem hv
  obtain ⟨name, hname, hfind⟩ := List.mem_map.1 hmem
  exact ⟨name, hname, findNamed?_eq_some.1 hfind⟩

/-- Whatever the answer, what has been attached lays out the global block, or binds what has
been named. -/
theorem BlockDecoration.exists_layoutNotes {host : Host}
    {result : Except KernelError BlockOutcome}
    (hdecoration : BlockDecoration m host result notes) (hk : k ∈ notes) :
    ∃ var block members offsets vars, m.IsGlobalBlock var block members ∧
      k ∈ layoutNotes var block offsets vars ∧
      ∀ v ∈ vars, ∃ name ∈ host.allocations.getD [], m.FirstNamed name v := by
  have hfirst {var block : Handle} (hk : k ∈ blockNotes var block) :
      k ∈ layoutNotes var block [] [] := by
    simpa [layoutNotes, offsetNotes, bindingNotes, slotsFrom] using hk
  cases hdecoration with
  | noBlock => cases hk
  | blockShape => cases hk
  | noHostLayout hblock => exact ⟨_, _, _, [], [], hblock, hfirst hk, by simp⟩
  | hostBlockShape hblock => exact ⟨_, _, _, [], [], hblock, hfirst hk, by simp⟩
  | memberCount hblock => exact ⟨_, _, _, [], [], hblock, hfirst hk, by simp⟩
  | noAllocations hlaysOut =>
      obtain ⟨members, hblock, -⟩ := hlaysOut.isBlock
      exact ⟨_, _, _, _, [], hblock, hk, by simp⟩
  | missingAllocation hlaysOut hallocations hvars =>
      obtain ⟨members, hblock, -⟩ := hlaysOut.isBlock
      refine ⟨_, _, _, _, _, hblock, hk, fun v hv => ?_⟩
      obtain ⟨name, hname, hnamed⟩ := exists_firstNamed_of_mem hvars hv
      exact ⟨name, by simp [hallocations, hname], hnamed⟩
  | complete hlaysOut hallocations hvars =>
      obtain ⟨members, hblock, -⟩ := hlaysOut.isBlock
      refine ⟨_, _, _, _, _, hblock, hk, fun v hv => ?_⟩
      obtain ⟨name, hname, hnamed⟩ := exists_firstNamed_of_mem hvars hv
      exact ⟨name, by simp [hallocations, hname], hnamed⟩

theorem BlockDecoration.mem_notes {host : Host} {result : Except KernelError BlockOutcome}
    (hdecoration : BlockDecoration m host result notes) (hk : k ∈ notes) :
    (∃ name ∈ globalBlockName :: host.allocations.getD [], ∃ v binding,
      m.FirstNamed name v ∧ k ∈ slotNotes v binding) ∨
    ∃ var block members, m.IsGlobalBlock var block members ∧ k.decorated? = some block ∧
      k.isSlot = false := by
  obtain ⟨var, block, members, offsets, vars, hblock, hk, hvars⟩ :=
    hdecoration.exists_layoutNotes hk
  obtain ⟨v, hv, binding, hslot⟩ | ⟨hdecorated, hslot⟩ := mem_layoutNotes hk
  · obtain rfl | hv := List.mem_cons.1 hv
    · exact .inl ⟨_, List.mem_cons_self, v, binding, hblock.named, hslot⟩
    · obtain ⟨name, hname, hnamed⟩ := hvars v hv
      exact .inl ⟨name, List.mem_cons_of_mem _ hname, v, binding, hnamed, hslot⟩
  · exact .inr ⟨var, block, members, hblock, hdecorated, hslot⟩

/-! ## Runs -/

variable {host : Host} {members : List Handle} {offsets : List Word}
  {names before after : List String} {vars : List Handle}

theorem lift_bind_apply {ε α β : Type} (x : Edit α) (f : α → ExceptT ε Edit β) (m : Module) :
    ((liftM x : ExceptT ε Edit α) >>= f) m = f (x m).1 (x m).2 := rfl

def bindAllocation (name : String) (n : Nat) : ExceptT KernelError Edit Unit := do
  match (← get).findNamed? name with
  | some var => bindSlot var (firstAllocationBinding + n.toUInt32)
  | none => throw (.missingAllocation name)

def bindAllocationsFrom (names : List String) (n : Nat) : ExceptT KernelError Edit Unit :=
  (names.zipIdx n).forM fun (name, n) => bindAllocation name n

theorem bindAllocations_eq (names : List String) :
    bindAllocations names = bindAllocationsFrom names 0 := rfl

theorem bindAllocationsFrom_cons (name : String) (names : List String) (n : Nat) :
    bindAllocationsFrom (name :: names) n =
      bindAllocation name n >>= fun _ => bindAllocationsFrom names (n + 1) := rfl

theorem bindAllocationsFrom_append (hvars : List.Forall₂ m.FirstNamed before vars)
    (names : List String) (n : Nat) : bindAllocationsFrom (before ++ names) n m =
      bindAllocationsFrom names (n + before.length)
        (m.annotated (bindingNotes (slotsFrom firstAllocationBinding n vars))) := by
  induction before generalizing m n vars with
  | nil =>
      cases hvars
      rw [show bindingNotes (slotsFrom firstAllocationBinding n []) = [] from rfl, annotated_nil]
      rfl
  | cons name before ih =>
      cases hvars with
      | @cons _ var _ vars hvar hvars =>
          let slot := slotNotes var (firstAllocationBinding + n.toUInt32)
          have hstep : bindAllocation name n m = (.ok (), m.annotated slot) := by
            rw [bindAllocation, get_bind_apply, findNamed?_eq_some.2 hvar]
            exact congrArg (Prod.map Except.ok id) (bindSlot_eq _ _ _)
          have hnamed : List.Forall₂ (m.annotated slot).FirstNamed before vars :=
            forall₂_firstNamed_annotated (by simp [slot, slotNotes, Kind.decorated?]) hvars
          rw [List.cons_append, bindAllocationsFrom_cons, bind_apply, hstep]
          refine (ih hnamed (n + 1)).trans ?_
          rw [annotated_annotated, List.length_cons, Nat.add_assoc, Nat.add_comm 1]
          rfl

theorem bindAllocations_run (hvars : List.Forall₂ m.FirstNamed names vars) :
    bindAllocations names m =
      (.ok (), m.annotated (bindingNotes (slotsFrom firstAllocationBinding 0 vars))) := by
  have hrun := bindAllocationsFrom_append hvars [] 0
  rwa [List.append_nil] at hrun

theorem bindAllocations_missing (hvars : List.Forall₂ m.FirstNamed before vars)
    (hname : m.NamesNothing name) : bindAllocations (before ++ name :: after) m =
      (.error (.missingAllocation name),
        m.annotated (bindingNotes (slotsFrom firstAllocationBinding 0 vars))) := by
  have hmissing : (m.annotated
      (bindingNotes (slotsFrom firstAllocationBinding 0 vars))).NamesNothing name :=
    (namesNothing_annotated isSome_of_mem_bindingNotes).2 hname
  rw [bindAllocations_eq, bindAllocationsFrom_append hvars, bindAllocationsFrom_cons, bind_apply,
    bindAllocation, get_bind_apply, findNamed?_eq_none.2 hmissing]
  rfl

/-- Either all names are names, or one of them is the first that is none. -/
theorem forall₂_firstNamed_or (m : Module) (names : List String) :
    (∃ vars, List.Forall₂ m.FirstNamed names vars) ∨ ∃ before name after vars,
      names = before ++ name :: after ∧ List.Forall₂ m.FirstNamed before vars ∧
      m.NamesNothing name := by
  induction names with
  | nil => exact .inl ⟨[], .nil⟩
  | cons name names ih =>
      cases hfind : m.findNamed? name with
      | none => exact .inr ⟨[], name, names, [], rfl, .nil, findNamed?_eq_none.1 hfind⟩
      | some var =>
          have hvar := findNamed?_eq_some.1 hfind
          obtain ⟨vars, hvars⟩ | ⟨before, name', after, vars, rfl, hvars, hnone⟩ := ih
          · exact .inl ⟨var :: vars, .cons hvar hvars⟩
          · exact .inr ⟨name :: before, name', after, var :: vars, rfl, .cons hvar hvars, hnone⟩

def backBlock (allocations : Option (List String)) : ExceptT KernelError Edit BlockOutcome := do
  match allocations with
  | none => return .noAllocations
  | some names =>
    bindAllocations names
    return .complete

def layOutBlock (host : Host) (block : Handle) (members : List Handle) :
    ExceptT KernelError Edit BlockOutcome := do
  match host.layout with
  | none => return .noHostLayout
  | some .notAStruct => throw .hostBlockShape
  | some (.struct offsets) =>
    if members.length < offsets.length then
      throw (.memberCount offsets.length members.length)
    for (offset, member) in offsets.zipIdx do
      let _ ← memberDecorate block member.toUInt32 .offset [offset]
    backBlock host.allocations

theorem decorateGlobalBlock_of_isGlobalBlock (hblock : m.IsGlobalBlock var block members) :
    decorateGlobalBlock host m =
      layOutBlock host block members (m.annotated (blockNotes var block)) := by
  rw [decorateGlobalBlock, get_bind_apply, findNamed?_eq_some.2 hblock.named]
  simp only [pointeeStruct?_eq_some.2 hblock.typed]
  rw [lift_bind_apply, lift_bind_apply, bindSlot_eq, decorate, annotate_eq, annotated_annotated]
  rfl

theorem decorateGlobalBlock_of_laysOut (hlaysOut : m.LaysOut host var block offsets) :
    decorateGlobalBlock host m = backBlock host.allocations
      (m.annotated (blockNotes var block ++ offsetNotes block offsets.zipIdx)) := by
  obtain ⟨⟨members, hblock, hle⟩, hlayout⟩ := hlaysOut
  rw [decorateGlobalBlock_of_isGlobalBlock hblock, layOutBlock, hlayout]
  simp only [if_neg (Nat.not_lt.2 hle)]
  let note (member : Word × Nat) : Kind Handle :=
    .memberDecorate block member.2.toUInt32 .offset [member.1]
  rw [bind_apply, forIn_annotate_except note, annotated_annotated]
  · rfl
  · intro member u m
    rw [lift_bind_apply, memberDecorate, annotate_eq]
    rfl

theorem BlockDecoration.run {result : Except KernelError BlockOutcome}
    (hdecoration : BlockDecoration m host result notes) :
    decorateGlobalBlock host m = (result, m.annotated notes) := by
  cases hdecoration with
  | noBlock hnone =>
      rw [decorateGlobalBlock, get_bind_apply, findNamed?_eq_none.2 hnone, annotated_nil]
      rfl
  | @blockShape var hvar hshape =>
      have hnone : m.pointeeStruct? var = none := by
        refine Option.eq_none_iff_forall_ne_some.2 fun found hfound => hshape ?_
        exact ⟨found.1, found.2, pointeeStruct?_eq_some.1 hfound⟩
      rw [decorateGlobalBlock, get_bind_apply, findNamed?_eq_some.2 hvar, annotated_nil]
      simp only [hnone]
      rfl
  | noHostLayout hblock hlayout =>
      rw [decorateGlobalBlock_of_isGlobalBlock hblock, layOutBlock, hlayout]
      rfl
  | hostBlockShape hblock hlayout =>
      rw [decorateGlobalBlock_of_isGlobalBlock hblock, layOutBlock, hlayout]
      rfl
  | memberCount hblock hlayout hlt =>
      rw [decorateGlobalBlock_of_isGlobalBlock hblock, layOutBlock, hlayout]
      simp only [if_pos hlt]
      rfl
  | @noAllocations var block offsets hlaysOut hallocations =>
      have hnotes : layoutNotes var block offsets [] =
          blockNotes var block ++ offsetNotes block offsets.zipIdx := List.append_nil _
      rw [decorateGlobalBlock_of_laysOut hlaysOut, hallocations, hnotes]
      rfl
  | missingAllocation hlaysOut hallocations hvars hname =>
      rw [decorateGlobalBlock_of_laysOut hlaysOut, hallocations, backBlock, bind_apply,
        bindAllocations_missing (forall₂_firstNamed_annotated isSome_of_mem_laidOut hvars)
          ((namesNothing_annotated isSome_of_mem_laidOut).2 hname), annotated_annotated]
      rfl
  | complete hlaysOut hallocations hvars =>
      rw [decorateGlobalBlock_of_laysOut hlaysOut, hallocations, backBlock, bind_apply,
        bindAllocations_run (forall₂_firstNamed_annotated isSome_of_mem_laidOut hvars),
        annotated_annotated]
      rfl

theorem exists_blockDecoration (m : Module) (host : Host) :
    ∃ result notes, BlockDecoration m host result notes := by
  cases hfind : m.findNamed? globalBlockName with
  | none => exact ⟨_, _, .noBlock (findNamed?_eq_none.1 hfind)⟩
  | some var =>
      have hvar := findNamed?_eq_some.1 hfind
      by_cases hshape : ∃ block members, m.PointsToStruct var block members
      · obtain ⟨block, members, htyped⟩ := hshape
        have hblock : m.IsGlobalBlock var block members := ⟨hvar, htyped⟩
        match hlayout : host.layout with
        | none => exact ⟨_, _, .noHostLayout hblock hlayout⟩
        | some .notAStruct => exact ⟨_, _, .hostBlockShape hblock hlayout⟩
        | some (.struct offsets) =>
            obtain hlt | hle := Nat.lt_or_ge members.length offsets.length
            · exact ⟨_, _, .memberCount hblock hlayout hlt⟩
            · have hlaysOut : m.LaysOut host var block offsets :=
                ⟨⟨members, hblock, hle⟩, hlayout⟩
              cases hallocations : host.allocations with
              | none => exact ⟨_, _, .noAllocations hlaysOut hallocations⟩
              | some names =>
                  obtain ⟨vars, hvars⟩ | ⟨before, name, after, vars, rfl, hvars, hname⟩ :=
                    m.forall₂_firstNamed_or names
                  · exact ⟨_, _, .complete hlaysOut hallocations hvars⟩
                  · exact ⟨_, _, .missingAllocation hlaysOut hallocations hvars hname⟩
      · exact ⟨_, _, .blockShape hvar hshape⟩

theorem decorateGlobalBlock_eq_iff {result : Except KernelError BlockOutcome} :
    decorateGlobalBlock host m = (result, m') ↔
      ∃ notes, BlockDecoration m host result notes ∧ m' = m.annotated notes := by
  constructor
  · intro hrun
    obtain ⟨result', notes, hdecoration⟩ := exists_blockDecoration m host
    obtain ⟨rfl, rfl⟩ := Prod.mk.inj (hdecoration.run.symm.trans hrun)
    exact ⟨notes, hdecoration, rfl⟩
  · rintro ⟨notes, hdecoration, rfl⟩
    exact hdecoration.run

theorem BlockDecoration.decorated?_ne {result : Except KernelError BlockOutcome}
    (hdecoration : BlockDecoration m host result notes)
    (hnamed : ∀ name ∈ globalBlockName :: host.allocations.getD [], ¬m.FirstNamed name g)
    (hblock : ∀ var members, ¬m.IsGlobalBlock var g members) :
    ∀ k ∈ notes, k.decorated? ≠ some g := by
  intro k hk hg
  obtain ⟨name, hname, v, binding, hv, hslot⟩ | ⟨var, block, members, hisBlock, hdecorated, -⟩ :=
    hdecoration.mem_notes hk
  · obtain rfl := Option.some.inj ((decorated?_of_mem_slotNotes hslot).symm.trans hg)
    exact hnamed name hname hv
  · obtain rfl := Option.some.inj (hdecorated.symm.trans hg)
    exact hblock var members hisBlock

/-- Decorating the global block answers as the module and the host have it, and attaches what
belongs to the answer.  What was stored before stays, and so do the decorations of everything
else. -/
theorem decorateGlobalBlock_answers (m : Module) (host : Host)
    (result : Except KernelError BlockOutcome)
    (m' : Module) : (decorateGlobalBlock host m = (result, m') ↔
      ∃ notes, BlockDecoration m host result notes ∧ m' = m.annotated notes) ∧
    (decorateGlobalBlock host m = (result, m') →
      (∀ h i, m.insts.get? h = some i → m'.insts.get? h = some i) ∧
      ∀ g, (∀ name ∈ globalBlockName :: host.allocations.getD [], ¬m.FirstNamed name g) →
        (∀ var members, ¬m.IsGlobalBlock var g members) →
        (∀ d, m'.decorations g d = m.decorations g d) ∧
        ∀ i d, m'.memberDecorations g i d = m.memberDecorations g i d) := by
  refine ⟨decorateGlobalBlock_eq_iff, fun hrun => ?_⟩
  obtain ⟨notes, hdecoration, rfl⟩ := decorateGlobalBlock_eq_iff.1 hrun
  refine ⟨fun _ _ => get?_annotated_of_some, fun g hnamed hblock => ?_⟩
  have hnotes := hdecoration.decorated?_ne hnamed hblock
  exact ⟨decorations_annotated hnotes, memberDecorations_annotated hnotes⟩

def blockAndVariable : List Word :=
  [Stream.magic, 0x10000, 0, 6, 0, 0x50005, 4, 0x50475f5f, 0x6f6c4255, 0x6b63, 0x30005, 5, 0x61,
    0x40015, 1, 32, 0, 0x4001e, 2, 1, 1, 0x40020, 3, 2, 2, 0x4003b, 3, 4, 2, 0x4003b, 3, 5, 2]

/-- A host that lays the block out, but knows of one allocation more. -/
def blockHost : Host := ⟨some (.struct [0, 16]), some ["a", "b"]⟩

theorem decorateGlobalBlock_answers_blockAndVariable : ∃ m, load blockAndVariable = .ok m ∧
    decorateGlobalBlock blockHost m = (.error (.missingAllocation "b"),
      m.annotated [.decorate ⟨0⟩ .descriptorSet [0], .decorate ⟨0⟩ .binding [0],
        .decorate ⟨5⟩ .bufferBlock [], .memberDecorate ⟨5⟩ 0 .offset [0],
        .memberDecorate ⟨5⟩ 1 .offset [16], .decorate ⟨2⟩ .descriptorSet [0],
        .decorate ⟨2⟩ .binding [3]]) ∧
    ∀ d, (decorateGlobalBlock blockHost m).2.decorations ⟨4⟩ d = m.decorations ⟨4⟩ d := by
  have hread : (load blockAndVariable).toOption.map (fun m => (m.findNamed? globalBlockName,
      m.pointeeStruct? ⟨0⟩, m.findNamed? "a", m.findNamed? "b")) =
        some (some ⟨0⟩, some (⟨5⟩, [⟨4⟩, ⟨4⟩]), some ⟨2⟩, none) := by
    decide +kernel
  obtain ⟨m, hload, hread⟩ := exists_of_map_toOption hread
  obtain ⟨hnamed, htyped, ha, hb⟩ := by simpa only [Prod.mk.injEq] using hread
  have hblock : m.IsGlobalBlock ⟨0⟩ ⟨5⟩ [⟨4⟩, ⟨4⟩] :=
    ⟨findNamed?_eq_some.1 hnamed, pointeeStruct?_eq_some.1 htyped⟩
  have hdecoration : BlockDecoration m blockHost (.error (.missingAllocation "b"))
      (layoutNotes ⟨0⟩ ⟨5⟩ [0, 16] [⟨2⟩]) :=
    have hbefore : List.Forall₂ m.FirstNamed ["a"] [⟨2⟩] := .cons (findNamed?_eq_some.1 ha) .nil
    .missingAllocation ⟨⟨_, hblock, by decide⟩, rfl⟩ rfl hbefore (findNamed?_eq_none.1 hb)
  have hrun := (decorateGlobalBlock_answers m blockHost _ _).1.2 ⟨_, hdecoration, rfl⟩
  obtain ⟨-, hkept⟩ := (decorateGlobalBlock_answers m blockHost _ _).2 hrun
  refine ⟨m, hload, hrun, ?_⟩
  rw [hrun]
  refine (hkept ⟨4⟩ ?_ ?_).1
  · have hnone : ∀ name ∈ globalBlockName :: ["a", "b"], m.findNamed? name ≠ some ⟨4⟩ := by
      simp [hnamed, ha, hb]
    exact fun name hname hfirst => hnone name hname (findNamed?_eq_some.2 hfirst)
  · intro var members hother
    obtain rfl := Option.some.inj (hnamed.symm.trans (findNamed?_eq_some.2 hother.named))
    have hsame := htyped.symm.trans (pointeeStruct?_eq_some.2 hother.typed)
    simp at hsame

end Module

end KernelGrid
