import KernelGrid.Module.Builder
import KernelGrid.Proofs.Module.Additions
import KernelGrid.Proofs.Runs

/-!
# Building functions

A builder that has begun a function and opened its first block appends to that block, whatever
else it adds to the module.
-/

namespace KernelGrid

namespace Module

variable {m m' : Module} {notes : List (Kind Handle)}

theorem Adds.of_code (m : Module) (functions : List FunctionDef)
    (entryPoints : List (EntryPoint Handle)) : m.Adds [] { m with functions, entryPoints } :=
  ⟨⟨⟨_, _, _, _, _, _, _, _, _, rfl⟩, fun _ _ => id, id, List.prefix_refl _,
    ⟨[], by simp, by simp, rfl⟩⟩, by simp⟩

structure Line where
  handle : Handle
  type : Option Handle
  kind : Kind Handle

/-- Whether a line is in the arena, with a result id if it has a type. -/
def Holds (m : Module) (l : Line) : Prop :=
  ∃ id : Option ResultId, id.isSome = l.type.isSome ∧
    m.insts.get? l.handle = some ⟨l.type, id, l.kind⟩

theorem Holds.isSome {l : Line} (hl : m.Holds l) : (m.insts.get? l.handle).isSome := by
  obtain ⟨id, -, hget⟩ := hl
  rw [hget]
  rfl

theorem Holds.kindOf_eq {l : Line} (hl : m.Holds l) : m.kindOf l.handle = l.kind := by
  obtain ⟨id, -, hget⟩ := hl
  rw [kindOf, inst_of_get? hget]

theorem Extends.holds (hmm : m.Extends notes m') {l : Line} (hl : m.Holds l) : m'.Holds l := by
  obtain ⟨id, hid, hget⟩ := hl
  exact ⟨id, hid, hmm.insts _ _ hget⟩

end Module

namespace Builder

open KernelGrid.Module (Line)

variable {b b' b'' : Builder} {notes notes' : List (Kind Handle)} {lines lines' : List Line}
  {h : Handle}

structure Open (fs : List FunctionDef) (entry label : Handle) (body : List Handle)
    (b : Builder) : Prop where
  functions : b.module.functions = fs ++ [⟨entry, [], [⟨label, body⟩]⟩]
  function : b.function = some fs.length
  block : b.block = some 0

/-- What a builder may do while it keeps its block open: it puts new lines behind what the block
holds and adds `notes` to the annotations. -/
structure Writes (b : Builder) (notes : List (Kind Handle)) (lines : List Line) (b' : Builder) :
    Prop where
  adds : b.module.Adds notes b'.module
  fresh : ∀ l ∈ lines, b.module.insts.get? l.handle = none
  holds : ∀ l ∈ lines, b'.module.Holds l
  nodup : (lines.map Line.handle).Nodup
  entryPoints : b'.module.entryPoints = b.module.entryPoints
  opens : ∀ fs entry label body, b.Open fs entry label body →
    b'.Open fs entry label (body ++ lines.map Line.handle)

theorem Writes.trans (h₁ : b.Writes notes lines b') (h₂ : b'.Writes notes' lines' b'') :
    b.Writes (notes ++ notes') (lines ++ lines') b'' := by
  refine ⟨h₁.adds.trans h₂.adds, ?_, ?_, ?_, h₂.entryPoints.trans h₁.entryPoints, ?_⟩
  · rw [List.forall_mem_append]
    exact ⟨h₁.fresh, fun l hl => h₁.adds.get?_eq_none (h₂.fresh l hl)⟩
  · rw [List.forall_mem_append]
    exact ⟨fun l hl => h₂.adds.holds (h₁.holds l hl), h₂.holds⟩
  · rw [List.map_append]
    refine List.nodup_append.2 ⟨h₁.nodup, h₂.nodup, ?_⟩
    rintro h hh _ hh' rfl
    obtain ⟨l, hl, rfl⟩ := List.mem_map.1 hh
    obtain ⟨l', hl', heq⟩ := List.mem_map.1 hh'
    have hstored := (h₁.holds l hl).isSome
    rw [← heq, h₂.fresh l' hl'] at hstored
    cases hstored
  · intro fs entry label body hopen
    rw [List.map_append, ← List.append_assoc]
    exact h₂.opens _ _ _ _ (h₁.opens _ _ _ _ hopen)

theorem Writes.refl (b : Builder) : b.Writes [] [] b :=
  ⟨.refl _, by simp, by simp, .nil, rfl, by simp⟩

theorem Writes.of_adds {m' : Module} (hmm : b.module.Adds notes m')
    (hcode : b.module.SameCode m') : b.Writes notes [] { b with module := m' } := by
  refine ⟨hmm, by simp, by simp, .nil, hcode.entryPoints, ?_⟩
  intro fs entry label body hopen
  rw [List.map_nil, List.append_nil]
  exact ⟨hcode.functions.trans hopen.functions, hopen.function, hopen.block⟩

/-! ## Steps -/

variable {α : Type} {a : α}

theorem runs_edit {e : Edit α} :
    Runs (edit e) b a b' ↔ ∃ m', e b.module = (a, m') ∧ b' = { b with module := m' } := by
  have hedit : edit e b = (.ok (e b.module).1, { b with module := (e b.module).2 }) := rfl
  simp only [Runs, hedit]
  constructor
  · intro heq
    obtain ⟨hok, rfl⟩ := Prod.mk.inj heq
    exact ⟨_, Prod.ext (Except.ok.inj hok) rfl, rfl⟩
  · rintro ⟨m', hm', rfl⟩
    rw [hm']

theorem runs_attempt {e : ExceptT ModuleError Edit α} :
    Runs (attempt e) b a b' ↔ ∃ m', Runs e b.module a m' ∧ b' = { b with module := m' } := by
  have hattempt : attempt e b = ((e b.module).1, { b with module := (e b.module).2 }) := rfl
  simp only [Runs, hattempt]
  constructor
  · intro heq
    obtain ⟨hok, rfl⟩ := Prod.mk.inj heq
    exact ⟨_, Prod.ext hok rfl, rfl⟩
  · rintro ⟨m', hm', rfl⟩
    rw [hm']

theorem runs_modifyFunction {i : Nat} {f : FunctionDef → FunctionDef} {u : Unit} :
    Runs (modifyFunction i f) b u b' ↔ b' = { b with
      module := { b.module with functions := b.module.functions.modify i f } } := by
  rw [modifyFunction, runs_edit]
  constructor
  · rintro ⟨m', hm', rfl⟩
    obtain ⟨-, rfl⟩ := Prod.mk.inj hm'
    rfl
  · rintro rfl
    exact ⟨_, rfl, rfl⟩

theorem runs_selectedFunction {i : Nat} :
    Runs selectedFunction b i b' ↔ b.function = some i ∧ b = b' := by
  rw [selectedFunction, runs_bind]
  constructor
  · rintro ⟨c, c', hget, hrun⟩
    obtain ⟨rfl, rfl⟩ := runs_get.1 hget
    cases hfunction : b.function with
    | none =>
        simp only [hfunction] at hrun
        exact absurd hrun not_runs_throw
    | some j =>
        simp only [hfunction] at hrun
        obtain ⟨rfl, rfl⟩ := runs_pure.1 hrun
        exact ⟨rfl, rfl⟩
  · rintro ⟨hfunction, rfl⟩
    refine ⟨b, b, runs_get.2 ⟨rfl, rfl⟩, ?_⟩
    simp only [hfunction]
    exact runs_pure.2 ⟨rfl, rfl⟩

theorem runs_selectedBlock {i : Nat} :
    Runs selectedBlock b i b' ↔ b.block = some i ∧ b = b' := by
  rw [selectedBlock, runs_bind]
  constructor
  · rintro ⟨c, c', hget, hrun⟩
    obtain ⟨rfl, rfl⟩ := runs_get.1 hget
    cases hblock : b.block with
    | none =>
        simp only [hblock] at hrun
        exact absurd hrun not_runs_throw
    | some j =>
        simp only [hblock] at hrun
        obtain ⟨rfl, rfl⟩ := runs_pure.1 hrun
        exact ⟨rfl, rfl⟩
  · rintro ⟨hblock, rfl⟩
    refine ⟨b, b, runs_get.2 ⟨rfl, rfl⟩, ?_⟩
    simp only [hblock]
    exact runs_pure.2 ⟨rfl, rfl⟩

theorem modify_length_concat {β : Type} (xs : List β) (x : β) (f : β → β) :
    (xs ++ [x]).modify xs.length f = xs ++ [f x] := by
  induction xs with
  | nil => rfl
  | cons y ys ih =>
      rw [List.cons_append, List.length_cons, List.modify_succ_cons, ih, List.cons_append]

theorem push_writes {i : Inst Handle} (hid : i.resultId.isSome = i.resultType.isSome)
    (hrun : Runs (push i) b h b') : b.Writes [] [⟨h, i.resultType, i.kind⟩] b' := by
  obtain ⟨function, _, hselected, hrun⟩ := runs_bind.1 hrun
  obtain ⟨hfunction, rfl⟩ := runs_selectedFunction.1 hselected
  obtain ⟨block, _, hselected', hrun⟩ := runs_bind.1 hrun
  obtain ⟨hblock, rfl⟩ := runs_selectedBlock.1 hselected'
  obtain ⟨g, _, happend, hrun⟩ := runs_bind.1 hrun
  obtain ⟨m', hstored, rfl⟩ := runs_edit.1 happend
  obtain ⟨hedits, hget, hfresh⟩ := Module.append_edits hstored
  obtain ⟨_, _, hmodify, hrun⟩ := runs_bind.1 hrun
  obtain rfl := runs_modifyFunction.1 hmodify
  obtain ⟨rfl, rfl⟩ := runs_pure.1 hrun
  refine ⟨hedits.adds.trans (.of_code m' _ _), ?_, ?_, List.pairwise_singleton _ _,
    hedits.code.entryPoints, ?_⟩
  · rw [List.forall_mem_singleton]
    exact hfresh
  · rw [List.forall_mem_singleton]
    exact ⟨i.resultId, hid, hget⟩
  · intro fs entry label body hopen
    have hlast := hfunction.symm.trans hopen.function
    have hfirst := hblock.symm.trans hopen.block
    rw [Option.some.injEq] at hlast hfirst
    refine ⟨?_, hopen.function, hopen.block⟩
    simp only [hedits.code.functions, hopen.functions, hlast, hfirst, modify_length_concat]
    rfl

theorem pushResult_writes {type : Handle} {kind : Kind Handle}
    (hrun : Runs (pushResult type kind) b h b') : b.Writes [] [⟨h, some type, kind⟩] b' := by
  obtain ⟨id, _, halloc, hrun⟩ := runs_bind.1 hrun
  obtain ⟨m', hid, rfl⟩ := runs_edit.1 halloc
  obtain ⟨rfl, rfl⟩ := Prod.mk.inj hid
  have hbound : b.module.Edits []
      { b.module with header.bound := Word.next b.module.header.bound } :=
    .of_fields (List.prefix_refl _)
  exact (Writes.of_adds hbound.adds hbound.code).trans (push_writes rfl hrun)

theorem ret_writes {u : Unit} (hrun : Runs ret b u b') :
    ∃ h b₁, b.Writes [] [⟨h, none, .ret⟩] b₁ ∧ b'.module = b₁.module := by
  obtain ⟨h, b₁, hpush, hrun⟩ := runs_bind.1 hrun
  obtain rfl := runs_modify.1 hrun
  exact ⟨h, b₁, push_writes rfl hpush, rfl⟩

/-! ## Runs that go on -/

theorem pushResult_bind {β : Type} {type : Handle} {kind : Kind Handle} {f : Handle → Build β}
    {r : β} (hrun : Runs (pushResult type kind >>= f) b r b') :
    ∃ h b₁, b.Writes [] [⟨h, some type, kind⟩] b₁ ∧ Runs (f h) b₁ r b' := by
  obtain ⟨h, b₁, hpush, hrun⟩ := runs_bind.1 hrun
  exact ⟨h, b₁, pushResult_writes hpush, hrun⟩

theorem intern_bind {β : Type} {d : Description} {f : Handle → Build β} {r : β} (hd : d.Proper)
    (hm : b.module.Interns) (hrun : Runs (edit (Module.intern d) >>= f) b r b') :
    ∃ h b₁, b.Writes [] [] b₁ ∧ b₁.module.Describes h d ∧ Runs (f h) b₁ r b' := by
  obtain ⟨h, _, hedit, hrun⟩ := runs_bind.1 hrun
  obtain ⟨m₁, hintern, rfl⟩ := runs_edit.1 hedit
  obtain ⟨hedits, hdescribes⟩ := Module.intern_edits hd hm hintern
  exact ⟨h, _, .of_adds hedits.adds hedits.code, hdescribes, hrun⟩

/-! ## New functions -/

theorem open_of_begin {m : Module} {b₁ b₂ : Builder} {result type entry label : Handle}
    (hentry : Runs (beginFunction result 0 type) (.start m) entry b₁)
    (hlabel : Runs beginBlock b₁ label b₂) :
    m.Adds [] b₂.module ∧ b₂.module.entryPoints = m.entryPoints ∧
      b₂.Open m.functions entry label [] ∧
      b₂.module.Results entry result (.function 0 type) ∧
      (∃ id, b₂.module.insts.get? label = some ⟨none, some id, .label⟩) ∧
      m.insts.get? entry = none := by
  obtain ⟨e, _, hdefine, hentry⟩ := runs_bind.1 hentry
  obtain ⟨m₁, hstored, rfl⟩ := runs_edit.1 hdefine
  obtain ⟨hedits₁, ⟨id, hget⟩, hfresh⟩ := Module.define_edits hstored
  obtain ⟨_, _, hadd, hentry⟩ := runs_bind.1 hentry
  obtain ⟨m₂, hadded, rfl⟩ := runs_edit.1 hadd
  obtain ⟨-, rfl⟩ := Prod.mk.inj hadded
  obtain ⟨_, _, hselect, hentry⟩ := runs_bind.1 hentry
  obtain rfl := runs_modify.1 hselect
  obtain ⟨rfl, rfl⟩ := runs_pure.1 hentry
  obtain ⟨function, _, hselected, hlabel⟩ := runs_bind.1 hlabel
  obtain ⟨hfunction, rfl⟩ := runs_selectedFunction.1 hselected
  obtain ⟨l, _, hdefine', hlabel⟩ := runs_bind.1 hlabel
  obtain ⟨m₃, hstored', rfl⟩ := runs_edit.1 hdefine'
  obtain ⟨hedits₂, hgetLabel, -⟩ := Module.define_edits hstored'
  obtain ⟨_, _, hmodify, hlabel⟩ := runs_bind.1 hlabel
  obtain rfl := runs_modifyFunction.1 hmodify
  obtain ⟨_, _, hselect, hlabel⟩ := runs_bind.1 hlabel
  obtain rfl := runs_modify.1 hselect
  obtain ⟨rfl, rfl⟩ := runs_pure.1 hlabel
  have hfunctions : m₁.functions = m.functions := hedits₁.code.functions
  have hadded : m₃.functions = m.functions ++ [.empty e] := by
    rw [hedits₂.code.functions]
    simp only [hfunctions]
  have hlast : function = m.functions.length := by
    simp only [hfunctions, List.length_append, List.length_singleton, Nat.add_sub_cancel,
      Option.some.injEq] at hfunction
    exact hfunction.symm
  refine ⟨((hedits₁.adds.trans (.of_code m₁ _ _)).trans hedits₂.adds).trans (.of_code m₃ _ _),
    hedits₂.code.entryPoints.trans hedits₁.code.entryPoints,
    ⟨?_, ?_, ?_⟩, ⟨id, hedits₂.insts _ _ hget⟩, hgetLabel, hfresh⟩
  · simp only [hadded, hlast, modify_length_concat]
    rfl
  · simp only [hfunctions, List.length_append, List.length_singleton, Nat.add_sub_cancel]
  · simp only [hadded, hlast, modify_length_concat]
    simp [FunctionDef.empty]

end Builder

end KernelGrid
