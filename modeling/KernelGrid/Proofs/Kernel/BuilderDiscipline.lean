import KernelGrid.Proofs.Kernel.BuilderCommands

/-!
# The discipline of a builder

What a builder has selected can be told from the commands so far: an instruction is accepted if
a function has been begun, a block has been opened in it, and nothing has ended that block.  So
every accepted instruction stands once, at the end of that block, and nothing stands behind the
end of a block.
-/

namespace KernelGrid.Builder

open KernelGrid.Module

/-! ## Histories -/

namespace Event

def begun? : Event → Option Handle
  | ⟨.beginFunction _ _ _, made⟩ => made
  | _ => none

def opened? : Event → Option Handle
  | ⟨.beginBlock, made⟩ => made
  | _ => none

def ends : Event → Bool
  | ⟨.emit e, some _⟩ => e.ends
  | _ => false

structure Plain (ev : Event) : Prop where
  begun : ev.begun? = none
  opened : ev.opened? = none
  ends : ev.ends = false

end Event

/-- The function begun last; of the past, the latest stands in front. -/
def lastBegun? (past : List Event) : Option Handle := past.findSome? Event.begun?

def lastOpened? (past : List Event) : Option Handle := past.findSome? Event.opened?

/-- Whether a function has been begun, a block has been opened since, and the block opened last
has not been ended. -/
structure Accepting (past : List Event) : Prop where
  begun : ∃ ev ∈ past, ev.begun?.isSome
  opened : ∃ ev ∈ past.takeWhile (·.begun?.isNone), ev.opened?.isSome
  unended : ∀ ev ∈ past.takeWhile (·.opened?.isNone), ev.ends = false

section

variable {past : List Event} {ev : Event} {h : Handle}

theorem lastBegun?_cons_of_none (hev : ev.begun? = none) :
    lastBegun? (ev :: past) = lastBegun? past := by
  rw [lastBegun?, List.findSome?_cons, hev]
  rfl

theorem lastOpened?_cons_of_none (hev : ev.opened? = none) :
    lastOpened? (ev :: past) = lastOpened? past := by
  rw [lastOpened?, List.findSome?_cons, hev]
  rfl

theorem exists_begun_of_lastBegun? (hpast : lastBegun? past = some h) :
    ∃ ev ∈ past, ev.begun?.isSome := by
  obtain ⟨ev, hev, hbegun⟩ := List.exists_of_findSome?_eq_some hpast
  exact ⟨ev, hev, by rw [hbegun]; rfl⟩

theorem not_accepting_of_lastBegun? (hpast : lastBegun? past = none) : ¬Accepting past := by
  intro haccepting
  obtain ⟨ev, hev, hbegun⟩ := haccepting.begun
  rw [List.findSome?_eq_none_iff.1 hpast ev hev] at hbegun
  cases hbegun

theorem not_accepting_of_begun (hev : ev.begun?.isSome) : ¬Accepting (ev :: past) := by
  intro haccepting
  obtain ⟨ev', hev', -⟩ := haccepting.opened
  rw [List.takeWhile_cons_of_neg (by simpa [Option.isSome_iff_ne_none] using hev)] at hev'
  cases hev'

theorem not_accepting_of_ends (hopened : ev.opened? = none) (hends : ev.ends) :
    ¬Accepting (ev :: past) := by
  intro haccepting
  have hfalse := haccepting.unended ev (by simp [hopened])
  rw [hends] at hfalse
  cases hfalse

theorem accepting_of_opened (hbegun : ev.begun? = none) (hopened : ev.opened?.isSome)
    (hpast : lastBegun? past = some h) : Accepting (ev :: past) := by
  refine ⟨?_, ⟨ev, by simp [hbegun], hopened⟩, ?_⟩
  · obtain ⟨ev', hev', hsome⟩ := exists_begun_of_lastBegun? hpast
    exact ⟨ev', List.mem_cons_of_mem _ hev', hsome⟩
  · rw [List.takeWhile_cons_of_neg (by simpa [Option.isSome_iff_ne_none] using hopened)]
    exact List.forall_mem_nil _

theorem accepting_cons_of_plain (hev : ev.Plain) : Accepting (ev :: past) ↔ Accepting past := by
  have hbegun : ev.begun?.isNone := by rw [hev.begun]; rfl
  have hopened : ev.opened?.isNone := by rw [hev.opened]; rfl
  constructor
  · rintro ⟨h₁, h₂, h₃⟩
    rw [List.takeWhile_cons_of_pos (by exact hbegun)] at h₂
    rw [List.takeWhile_cons_of_pos (by exact hopened)] at h₃
    refine ⟨?_, ?_, (List.forall_mem_cons.1 h₃).2⟩
    · simpa [hev.begun] using h₁
    · simpa [hev.opened] using h₂
  · rintro ⟨⟨ev₁, h₁, hsome₁⟩, ⟨ev₂, h₂, hsome₂⟩, h₃⟩
    refine ⟨⟨ev₁, List.mem_cons_of_mem _ h₁, hsome₁⟩, ⟨ev₂, ?_, hsome₂⟩, ?_⟩
    · rw [List.takeWhile_cons_of_pos (by exact hbegun)]
      exact List.mem_cons_of_mem _ h₂
    · rw [List.takeWhile_cons_of_pos (by exact hopened)]
      exact List.forall_mem_cons.2 ⟨hev.ends, h₃⟩

end

/-! ## Where the builder stands -/

def Ended (m : Module) (blocks : List Block) : Prop :=
  ∀ bk ∈ blocks, (∀ h ∈ bk.body, (m.insts.get? h).isSome) ∧
    ∀ h ∈ bk.body.dropLast, (m.kindOf h).returns = false

theorem Ended.outlasts {m m' : Module} {blocks : List Block} (hblocks : Ended m blocks)
    (hmm : m.Outlasts m') : Ended m' blocks := by
  intro bk hbk
  obtain ⟨hstored, hends⟩ := hblocks bk hbk
  refine ⟨fun h hh => hmm.isSome (hstored h hh), fun h hh => ?_⟩
  rw [hmm.kindOf_eq (hstored h (List.dropLast_subset _ hh))]
  exact hends h hh

theorem Ended.concat {m : Module} {bs : List Block} {bk : Block} {h : Handle} (hbs : Ended m bs)
    (hstored : ∀ g ∈ bk.body ++ [h], (m.insts.get? g).isSome)
    (hrunning : ∀ g ∈ bk.body, (m.kindOf g).returns = false) :
    Ended m (bs ++ [{ bk with body := bk.body ++ [h] }]) := by
  rw [Ended, List.forall_mem_append, List.forall_mem_singleton]
  refine ⟨hbs, hstored, ?_⟩
  rw [List.dropLast_concat]
  exact hrunning

variable {m : Module} {past : List Event} {b b' : Builder}

structure Retains (b b' : Builder) : Prop where
  insts : b.module.Outlasts b'.module
  function : b'.function = b.function
  block : b'.block = b.block
  functions : b'.module.functions = b.module.functions ∨ ∃ i p, b.function = some i ∧
    b'.module.functions = b.module.functions.modify i fun f =>
      { f with parameters := f.parameters ++ [p] }

theorem Retains.of_functions {m₁ : Module} (hinsts : b.module.Outlasts m₁)
    (hfunctions : m₁.functions = b.module.functions) : b.Retains { b with module := m₁ } :=
  ⟨hinsts, rfl, rfl, .inl hfunctions⟩

theorem Retains.exists_last (hbb : b.Retains b') {fs : List FunctionDef} {f : FunctionDef}
    (hfunctions : b.module.functions = fs ++ [f]) (hfunction : b.function = some fs.length) :
    ∃ f', b'.module.functions = fs ++ [f'] ∧ f'.function = f.function ∧
      f'.blocks = f.blocks := by
  obtain heq | ⟨i, p, hi, heq⟩ := hbb.functions
  · exact ⟨f, heq.trans hfunctions, rfl, rfl⟩
  · obtain rfl := Option.some.inj (hi.symm.trans hfunction)
    rw [hfunctions, modify_length_concat] at heq
    exact ⟨_, heq, rfl, rfl⟩

/-- Where a builder of a module stands after what has been commanded: no function has been
begun, or no block of the last function is open, or the last block of the last function is. -/
inductive Stage (m : Module) (past : List Event) (b : Builder) : Prop
  | idle (hfunctions : b.module.functions = m.functions) (hfunction : b.function = none)
    (hblock : b.block = none) (hbegun : lastBegun? past = none)
  | begun {built : List FunctionDef} {f : FunctionDef}
    (hfunctions : b.module.functions = m.functions ++ built ++ [f])
    (hbuilt : ∀ g ∈ built, Ended b.module g.blocks) (hlast : Ended b.module f.blocks)
    (hfunction : b.function = some (m.functions ++ built).length) (hblock : b.block = none)
    (hbegun : lastBegun? past = some f.function) (hpast : ¬Accepting past)
  | writing {built : List FunctionDef} {f : FunctionDef} {bs : List Block} {bk : Block}
    (hfunctions : b.module.functions = m.functions ++ built ++ [f])
    (hbuilt : ∀ g ∈ built, Ended b.module g.blocks) (hlast : Ended b.module f.blocks)
    (hfunction : b.function = some (m.functions ++ built).length)
    (hblocks : f.blocks = bs ++ [bk]) (hblock : b.block = some bs.length)
    (hrunning : ∀ h ∈ bk.body, (b.module.kindOf h).returns = false)
    (hbegun : lastBegun? past = some f.function) (hopened : lastOpened? past = some bk.label)
    (hpast : Accepting past)

namespace Stage

theorem of_plain (hb : Stage m past b) {ev : Event} (hev : ev.Plain) (hbb : b.Retains b') :
    Stage m (ev :: past) b' := by
  have hended {blocks : List Block} (hblocks : Ended b.module blocks) : Ended b'.module blocks :=
    hblocks.outlasts hbb.insts
  cases hb with
  | idle hfunctions hfunction hblock hbegun =>
      refine .idle ?_ (hbb.function.trans hfunction) (hbb.block.trans hblock) ?_
      · obtain heq | ⟨i, p, hi, -⟩ := hbb.functions
        · exact heq.trans hfunctions
        · rw [hfunction] at hi
          cases hi
      · rw [lastBegun?_cons_of_none hev.begun, hbegun]
  | begun hfunctions hbuilt hlast hfunction hblock hbegun hpast =>
      obtain ⟨f', hfunctions', hsame, hblocks'⟩ := hbb.exists_last hfunctions hfunction
      rw [← hblocks'] at hlast
      refine .begun hfunctions' (fun g hg => hended (hbuilt g hg)) (hended hlast)
        (hbb.function.trans hfunction) (hbb.block.trans hblock) ?_ ?_
      · rw [lastBegun?_cons_of_none hev.begun, hbegun, hsame]
      · rwa [accepting_cons_of_plain hev]
  | @writing built f bs bk hfunctions hbuilt hlast hfunction hblocks hblock hrunning
    hbegun hopened hpast =>
      obtain ⟨f', hfunctions', hsame, hblocks'⟩ := hbb.exists_last hfunctions hfunction
      have hstored := (hlast bk (by simp [hblocks])).1
      rw [← hblocks'] at hlast hblocks
      refine .writing hfunctions' (fun g hg => hended (hbuilt g hg)) (hended hlast)
        (hbb.function.trans hfunction) hblocks (hbb.block.trans hblock) ?_ ?_ ?_ ?_
      · intro h hh
        rw [hbb.insts.kindOf_eq (hstored h hh)]
        exact hrunning h hh
      · rw [lastBegun?_cons_of_none hev.begun, hbegun, hsame]
      · rw [lastOpened?_cons_of_none hev.opened, hopened]
      · rwa [accepting_cons_of_plain hev]

theorem built (hb : Stage m past b) : ∃ built, b.module.functions = m.functions ++ built ∧
    ∀ f ∈ built, Ended b.module f.blocks := by
  cases hb with
  | idle hfunctions => exact ⟨[], by rw [hfunctions, List.append_nil], List.forall_mem_nil _⟩
  | @begun built f hfunctions hbuilt hlast | @writing built f _ _ hfunctions hbuilt hlast =>
      refine ⟨built ++ [f], by rw [hfunctions, List.append_assoc], ?_⟩
      exact List.forall_mem_append.2 ⟨hbuilt, List.forall_mem_singleton.2 hlast⟩

/-- A selected function is the last, and the one begun last. -/
theorem selected (hb : Stage m past b) {i : Nat} (hi : b.function = some i) :
    ∃ built f, b.module.functions = m.functions ++ built ++ [f] ∧
      i = (m.functions ++ built).length ∧ lastBegun? past = some f.function ∧
      (∀ g ∈ built, Ended b.module g.blocks) ∧ Ended b.module f.blocks := by
  cases hb with
  | idle _ hfunction => exact absurd (hi.symm.trans hfunction) (by simp)
  | begun hfunctions hbuilt hlast hfunction _ hbegun
  | writing hfunctions hbuilt hlast hfunction _ _ _ hbegun =>
      rw [hfunction] at hi
      exact ⟨_, _, hfunctions, (Option.some.inj hi).symm, hbegun, hbuilt, hlast⟩

/-- A selected block is the last of the last function, and the one opened last. -/
theorem selected_block (hb : Stage m past b) {i j : Nat} (hi : b.function = some i)
    (hj : b.block = some j) :
    ∃ fs f bs bk, b.module.functions = fs ++ [f] ∧ f.blocks = bs ++ [bk] ∧ i = fs.length ∧
      j = bs.length ∧ lastBegun? past = some f.function ∧ lastOpened? past = some bk.label ∧
      Accepting past := by
  cases hb with
  | idle _ hfunction => exact absurd (hi.symm.trans hfunction) (by simp)
  | begun _ _ _ _ hblock => exact absurd (hj.symm.trans hblock) (by simp)
  | writing hfunctions _ _ hfunction hblocks hblock _ hbegun hopened hpast =>
      exact ⟨_, _, _, _, hfunctions, hblocks, Option.some.inj (hi.symm.trans hfunction),
        Option.some.inj (hj.symm.trans hblock), hbegun, hopened, hpast⟩

theorem began (hb : Stage m past b) {result type h : Handle} {control : Word} {m₁ : Module}
    {functions : List FunctionDef} (hfunctions' : m₁.functions = b.module.functions)
    (hinsts : b.module.Outlasts m₁) (hfunctions : functions = m₁.functions ++ [.empty h]) :
    Stage m (⟨.beginFunction result control type, some h⟩ :: past)
      ⟨{ m₁ with functions }, some (functions.length - 1), none⟩ := by
  obtain ⟨built, heq, hbuilt⟩ := hb.built
  rw [hfunctions', heq] at hfunctions
  refine .begun hfunctions (fun g hg => (hbuilt g hg).outlasts hinsts)
    (List.forall_mem_nil _) ?_ rfl rfl (not_accepting_of_begun rfl)
  rw [hfunctions, List.length_append, List.length_singleton, Nat.add_sub_cancel]

theorem opened (hb : Stage m past b) {h : Handle} {m₁ : Module} {i : Nat}
    (hi : b.function = some i) (hfunctions' : m₁.functions = b.module.functions)
    (hinsts : b.module.Outlasts m₁) {functions : List FunctionDef}
    (hfunctions : functions = m₁.functions.modify i fun f =>
      { f with blocks := f.blocks ++ [⟨h, []⟩] }) :
    Stage m (⟨.beginBlock, some h⟩ :: past) { b with
      module := { m₁ with functions }
      block := functions[i]?.map fun f => f.blocks.length - 1 } := by
  obtain ⟨built, f, heq, rfl, hbegun, hbuilt, hlast⟩ := hb.selected hi
  rw [hfunctions', heq, modify_length_concat] at hfunctions
  refine .writing hfunctions (fun g hg => (hbuilt g hg).outlasts hinsts) ?_ hi rfl ?_
    (List.forall_mem_nil _) ?_ rfl ?_
  · refine List.forall_mem_append.2 ⟨hlast.outlasts hinsts, List.forall_mem_singleton.2 ?_⟩
    exact ⟨List.forall_mem_nil _, List.forall_mem_nil _⟩
  · simp [hfunctions]
  · rw [lastBegun?_cons_of_none rfl, hbegun]
  · exact accepting_of_opened rfl rfl hbegun

/-- Of the last block of the last function, everything but the end stays. -/
theorem functions_written {m₁ : Module} {fs : List FunctionDef} {f : FunctionDef}
    {bs : List Block} {bk : Block} (hfunctions : m₁.functions = fs ++ [f])
    (hblocks : f.blocks = bs ++ [bk]) (h : Handle) :
    (b.written m₁ fs.length bs.length h).module.functions =
      fs ++ [{ f with blocks := bs ++ [{ bk with body := bk.body ++ [h] }] }] := by
  rw [written, hfunctions, modify_length_concat, hblocks, modify_length_concat]

theorem emitted (hb : Stage m past b) (e : Emitter) {h : Handle} {m₁ : Module} {i j : Nat}
    {id : Option ResultId} (hi : b.function = some i) (hj : b.block = some j)
    (hputs : b.module.Puts ⟨e.type?, id, e.kind⟩ h m₁) :
    Stage m (⟨.emit e, some h⟩ :: past)
      { b.written m₁ i j h with block := if e.ends then none else some j } := by
  cases hb with
  | idle _ hfunction => exact absurd (hi.symm.trans hfunction) (by simp)
  | begun _ _ _ _ hblock => exact absurd (hj.symm.trans hblock) (by simp)
  | @writing built f bs bk hfunctions hbuilt hlast hfunction hblocks hblock hrunning
    hbegun hopened hpast =>
      obtain rfl := Option.some.inj (hi.symm.trans hfunction)
      obtain rfl := Option.some.inj (hj.symm.trans hblock)
      have hfunctions' :=
        functions_written (b := b) (hputs.functions_eq.trans hfunctions) hblocks h
      have hnew : m₁.insts.get? h = some ⟨e.type?, id, e.kind⟩ := by
        rw [hputs.get?_eq, if_pos rfl]
      have hkind : (m₁.kindOf h).returns = e.ends := by
        rw [kindOf, inst_of_get? hnew, e.returns_kind]
      rw [Ended, hblocks, List.forall_mem_append, List.forall_mem_singleton] at hlast
      obtain ⟨hothers, hstored, -⟩ := hlast
      have hrunning' : ∀ g ∈ bk.body, (m₁.kindOf g).returns = false := by
        intro g hg
        rw [hputs.outlasts.kindOf_eq (hstored g hg)]
        exact hrunning g hg
      have hbuilt' : ∀ g ∈ built, Ended m₁ g.blocks := fun g hg =>
        (hbuilt g hg).outlasts hputs.outlasts
      have hstored' : ∀ g ∈ bk.body ++ [h], (m₁.insts.get? g).isSome := by
        rw [List.forall_mem_append, List.forall_mem_singleton]
        exact ⟨fun g hg => hputs.outlasts.isSome (hstored g hg), by rw [hnew]; rfl⟩
      have hlast' := (Ended.outlasts hothers hputs.outlasts).concat hstored' hrunning'
      -- An end leaves the function without an open block, as right after it was begun.
      cases hends : e.ends with
      | true =>
          refine .begun hfunctions' hbuilt' hlast' hi rfl ?_ (not_accepting_of_ends rfl hends)
          rw [lastBegun?_cons_of_none rfl, hbegun]
      | false =>
          have hplain : Event.Plain ⟨.emit e, some h⟩ := ⟨rfl, rfl, hends⟩
          refine .writing hfunctions' hbuilt' hlast' hi rfl rfl ?_ ?_ ?_ ?_
          · refine List.forall_mem_append.2 ⟨hrunning', List.forall_mem_singleton.2 ?_⟩
            exact hkind.trans hends
          · rw [lastBegun?_cons_of_none rfl, hbegun]
          · rw [lastOpened?_cons_of_none rfl, hopened]
          · rwa [accepting_cons_of_plain hplain]

/-- Every command leads from one of these places to another. -/
theorem step (hb : Stage m past b) {c : Command} {made : Option Handle}
    (hstep : Step b c made b') : Stage m (⟨c, made⟩ :: past) b' := by
  have hsame : b.module.Outlasts b.module := fun _ _ => id
  cases hstep with
  | began result control type hputs hfunctions =>
      exact hb.began hputs.functions_eq hputs.outlasts hfunctions
  | noFunction =>
      have hplain : Event.Plain ⟨c, none⟩ := by cases c <;> exact ⟨rfl, rfl, rfl⟩
      exact hb.of_plain hplain (.of_functions hsame rfl)
  | @took type i id h m₁ hi hputs =>
      refine hb.of_plain ⟨rfl, rfl, rfl⟩ ⟨hputs.outlasts, rfl, rfl, .inr ⟨i, h, hi, ?_⟩⟩
      rw [← hputs.functions_eq]
  | opened hi hputs hfunctions => exact hb.opened hi hputs.functions_eq hputs.outlasts hfunctions
  | unselected e => exact hb.of_plain ⟨rfl, rfl, rfl⟩ (.of_functions hsame rfl)
  | emitted e hi hj hputs => exact hb.emitted e hi hj hputs
  | found r h => exact hb.of_plain ⟨rfl, rfl, rfl⟩ (.of_functions hsame rfl)
  | @declared _ hc _ h _ hputs =>
      have hplain : Event.Plain ⟨c, some h⟩ := by
        cases c <;> first | exact ⟨rfl, rfl, rfl⟩ | cases hc
      exact hb.of_plain hplain (.of_functions hputs.outlasts hputs.functions_eq)

end Stage

/-! ## What is listed -/

theorem listed_perm_functions {m₁ : Module} {functions : List FunctionDef} {h : Handle}
    (hfunctions : (functions.flatMap FunctionDef.handles).Perm
      (h :: m₁.functions.flatMap FunctionDef.handles)) :
    ({ m₁ with functions } : Module).listed.Perm (h :: m₁.listed) :=
  (hfunctions.append_left _).trans List.perm_middle

theorem Step.lists {c : Command} {made : Option Handle} (hstep : Step b c made b')
    (hb : Stage m past b) :
    (∀ e, c ≠ .emit e ∨ made = none) ∧ b'.module.insts = b.module.insts ∧
        b'.module.listed = b.module.listed ∨
      ∃ i, made = some b.module.insts.nextHandle ∧
        b'.module.insts = b.module.insts.push i ∧
        b'.module.listed.Perm (b.module.insts.nextHandle :: b.module.listed) ∧
        ∀ e, c = .emit e → i.resultType = e.type? ∧ i.kind = e.kind := by
  cases hstep with
  | noFunction => exact .inl ⟨fun _ => .inr rfl, rfl, rfl⟩
  | unselected e => exact .inl ⟨fun _ => .inr rfl, rfl, rfl⟩
  | found r h => exact .inl ⟨fun _ => .inl (by simp), rfl, rfl⟩
  | began result control type hputs hfunctions =>
      obtain rfl := hputs.handle
      refine .inr ⟨_, rfl, hputs.insts_eq, ?_, by simp⟩
      rw [← hputs.listed_eq]
      apply listed_perm_functions
      rw [hfunctions, List.flatMap_append]
      exact List.perm_append_singleton _ _
  | took type hi hputs =>
      obtain rfl := hputs.handle
      obtain ⟨built, f, hbuilt, rfl, -⟩ := hb.selected hi
      refine .inr ⟨_, rfl, hputs.insts_eq, ?_, by simp⟩
      rw [← hputs.listed_eq]
      apply listed_perm_functions
      refine perm_flatMap_modify (x := f) (by simp [hputs.functions_eq, hbuilt]) ?_
      rw [FunctionDef.handles, ← List.cons_append, List.append_assoc]
      exact List.perm_middle
  | opened hi hputs hfunctions =>
      obtain rfl := hputs.handle
      obtain ⟨built, f, hbuilt, rfl, -⟩ := hb.selected hi
      refine .inr ⟨_, rfl, hputs.insts_eq, ?_, by simp⟩
      rw [← hputs.listed_eq]
      apply listed_perm_functions
      rw [hfunctions]
      refine perm_flatMap_modify (x := f) (by simp [hputs.functions_eq, hbuilt]) ?_
      rw [FunctionDef.handles, List.flatMap_append, ← List.append_assoc]
      exact List.perm_append_singleton _ _
  | emitted e hi hj hputs =>
      obtain rfl := hputs.handle
      obtain ⟨fs, f, bs, bk, hfunctions, hblocks, rfl, rfl, -⟩ := hb.selected_block hi hj
      refine .inr ⟨_, rfl, hputs.insts_eq, ?_, ?_⟩
      · rw [← hputs.listed_eq]
        apply listed_perm_functions
        refine perm_flatMap_modify (x := f) (by simp [hputs.functions_eq, hfunctions]) ?_
        refine (List.Perm.append_left _ (perm_flatMap_modify (x := bk) ?_ ?_)).trans
          List.perm_middle
        · simp [hblocks]
        · exact List.perm_append_singleton _ (bk.label :: bk.body)
      · rintro _ ⟨⟩
        exact ⟨rfl, rfl⟩
  | @declared _ hc i h m₁ hputs interned distinct =>
      obtain rfl := hputs.handle
      refine .inr ⟨i, rfl, hputs.insts_eq, ?_, ?_⟩
      · rw [← hputs.listed_eq]
        refine listed_perm (s := .globals) (fun t ht => ?_) (List.perm_append_singleton _ _) rfl
        cases t <;> first | rfl | exact absurd rfl ht
      · rintro e rfl
        cases hc

/-- What is listed once more than in the module is what commands have stored since. -/
structure Placed (m : Module) (past : List Event) (b : Builder) : Prop where
  stored : ∀ h, b.module.insts.get? h = none → m.insts.get? h = none
  unstored : ∀ h, b.module.insts.get? h = none → b.module.listed.count h = m.listed.count h
  emitted : ∀ e h, ⟨.emit e, some h⟩ ∈ past →
    m.insts.get? h = none ∧ (∃ id, b.module.insts.get? h = some ⟨e.type?, id, e.kind⟩) ∧
      b.module.listed.count h = m.listed.count h + 1

theorem placed_start (m : Module) : Placed m [] (start m) :=
  ⟨fun _ => id, fun _ _ => rfl, fun _ _ hmem => nomatch hmem⟩

theorem Placed.unlisted (hplaced : Placed m past b) {c : Command} {made : Option Handle}
    (hquiet : ∀ e, c ≠ .emit e ∨ made = none) (hinsts : b'.module.insts = b.module.insts)
    (hlisted : b'.module.listed = b.module.listed) : Placed m (⟨c, made⟩ :: past) b' := by
  refine ⟨?_, ?_, fun e h hmem => ?_⟩
  · rw [hinsts]
    exact hplaced.stored
  · rw [hinsts, hlisted]
    exact hplaced.unstored
  · rw [hinsts, hlisted]
    obtain heq | hmem := List.mem_cons.1 hmem
    · obtain ⟨rfl, rfl⟩ : c = .emit e ∧ made = some h := by
        cases heq
        exact ⟨rfl, rfl⟩
      exact absurd (hquiet e) (by simp)
    · exact hplaced.emitted e h hmem

/-- What is stored next is listed once. -/
theorem Placed.listed (hplaced : Placed m past b) {c : Command} {i : Inst Handle}
    (hinsts : b'.module.insts = b.module.insts.push i)
    (hlisted : b'.module.listed.Perm (b.module.insts.nextHandle :: b.module.listed))
    (hemit : ∀ e, c = .emit e → i.resultType = e.type? ∧ i.kind = e.kind) :
    Placed m (⟨c, some b.module.insts.nextHandle⟩ :: past) b' := by
  have hget (g : Handle) : b'.module.insts.get? g =
      if g = b.module.insts.nextHandle then some i else b.module.insts.get? g := by
    rw [hinsts, Arena.get?_push]
  have hcount (g : Handle) (hg : g ≠ b.module.insts.nextHandle) :
      b'.module.listed.count g = b.module.listed.count g := by
    rw [hlisted.count_eq, List.count_cons_of_ne hg.symm]
  have hfresh := b.module.insts.get?_nextHandle
  have hunstored (g : Handle) (hg : b'.module.insts.get? g = none) :
      g ≠ b.module.insts.nextHandle ∧ b.module.insts.get? g = none := by
    rw [hget] at hg
    split at hg
    · cases hg
    · exact ⟨‹_›, hg⟩
  refine ⟨fun g hg => hplaced.stored g (hunstored g hg).2, fun g hg => ?_, fun e g hmem => ?_⟩
  · rw [hcount g (hunstored g hg).1, hplaced.unstored g (hunstored g hg).2]
  · obtain heq | hmem := List.mem_cons.1 hmem
    · obtain ⟨rfl, rfl⟩ : c = .emit e ∧ g = b.module.insts.nextHandle := by
        cases heq
        exact ⟨rfl, rfl⟩
      obtain ⟨htype, hkind⟩ := hemit e rfl
      refine ⟨hplaced.stored _ hfresh, ⟨i.resultId, ?_⟩, ?_⟩
      · rw [hget, if_pos rfl, ← htype, ← hkind]
      · rw [hlisted.count_eq, List.count_cons_self, hplaced.unstored _ hfresh]
    · obtain ⟨hold, ⟨id, hstored⟩, hcounted⟩ := hplaced.emitted e g hmem
      have hne : g ≠ b.module.insts.nextHandle := by
        rintro rfl
        rw [hfresh] at hstored
        cases hstored
      refine ⟨hold, ⟨id, ?_⟩, ?_⟩
      · rw [hget, if_neg hne, hstored]
      · rw [hcount g hne, hcounted]

theorem Placed.step (hplaced : Placed m past b) (hb : Stage m past b) {c : Command}
    {made : Option Handle} (hstep : Step b c made b') : Placed m (⟨c, made⟩ :: past) b' := by
  obtain ⟨hquiet, hinsts, hlisted⟩ | ⟨i, rfl, hinsts, hlisted, hemit⟩ := hstep.lists hb
  · exact hplaced.unlisted hquiet hinsts hlisted
  · exact hplaced.listed hinsts hlisted hemit

/-! ## Blocks in the order of opening -/

def labelsSince (m : Module) (b : Builder) : List Handle :=
  (b.module.functions.drop m.functions.length).flatMap fun f => f.blocks.map (·.label)

theorem labelsSince_of_functions {built : List FunctionDef}
    (hfunctions : b.module.functions = m.functions ++ built) :
    labelsSince m b = built.flatMap fun f => f.blocks.map (·.label) := by
  rw [labelsSince, hfunctions, List.drop_left]

theorem labelsSince_of_last {built : List FunctionDef} {f : FunctionDef}
    (hfunctions : b.module.functions = m.functions ++ built ++ [f]) :
    labelsSince m b = (built.flatMap fun f => f.blocks.map (·.label)) ++
      f.blocks.map (·.label) := by
  rw [List.append_assoc] at hfunctions
  rw [labelsSince_of_functions hfunctions, List.flatMap_append, List.flatMap_singleton]

/-- What is done to the last function shows in its own labels alone. -/
theorem labelsSince_modify {m₁ : Module} {built : List FunctionDef} {f : FunctionDef}
    (hfunctions : b.module.functions = m.functions ++ built ++ [f])
    (hfunctions' : m₁.functions = b.module.functions) {g : FunctionDef → FunctionDef}
    {labels : List Handle} (hg : (g f).blocks.map (·.label) = f.blocks.map (·.label) ++ labels)
    {functions : List FunctionDef}
    (hmodify : functions = m₁.functions.modify (m.functions ++ built).length g)
    (hb' : b'.module.functions = functions) : labelsSince m b' = labelsSince m b ++ labels := by
  rw [hfunctions', hfunctions, modify_length_concat] at hmodify
  rw [labelsSince_of_last hfunctions, labelsSince_of_last (hb'.trans hmodify), hg,
    List.append_assoc]

theorem map_modify_of_eq {α β : Type} {f : α → β} {g : α → α} (hg : ∀ x, f (g x) = f x)
    (xs : List α) (n : Nat) : (xs.modify n g).map f = xs.map f := by
  induction xs generalizing n with
  | nil => cases n <;> rfl
  | cons x xs ih =>
      cases n with
      | zero => simp [hg]
      | succ n => simp [ih]

theorem Step.labelsSince_eq {c : Command} {made : Option Handle} (hstep : Step b c made b')
    (hb : Stage m past b) :
    labelsSince m b' = labelsSince m b ++ (Event.opened? ⟨c, made⟩).toList := by
  obtain ⟨built, hbuilt, -⟩ := hb.built
  cases hstep with
  | noFunction => cases c <;> simp [Event.opened?]
  | unselected e => simp [Event.opened?, labelsSince, takeId]
  | found r h => simp [Event.opened?]
  | @declared _ hc _ h m₁ hputs =>
      have hopened : Event.opened? ⟨c, some h⟩ = none := by
        cases c <;> first | rfl | cases hc
      rw [hopened, Option.toList_none, List.append_nil, labelsSince_of_functions hbuilt]
      exact labelsSince_of_functions (hputs.functions_eq.trans hbuilt)
  | began result control type hputs hfunctions =>
      rw [hputs.functions_eq, hbuilt, List.append_assoc] at hfunctions
      rw [labelsSince_of_functions hbuilt, labelsSince_of_functions hfunctions]
      simp [Event.opened?, FunctionDef.empty]
  | took type hi hputs =>
      obtain ⟨built, f, hlast, rfl, -⟩ := hb.selected hi
      exact labelsSince_modify hlast hputs.functions_eq (List.append_nil _).symm rfl rfl
  | opened hi hputs hfunctions =>
      obtain ⟨built, f, hlast, rfl, -⟩ := hb.selected hi
      exact labelsSince_modify hlast hputs.functions_eq (by simp [Event.opened?]) hfunctions rfl
  | emitted e hi hj hputs =>
      obtain ⟨built, f, hlast, rfl, -⟩ := hb.selected hi
      refine labelsSince_modify hlast hputs.functions_eq ?_ rfl rfl
      exact (map_modify_of_eq (f := Block.label) (by intro bk; rfl) f.blocks _).trans
        (List.append_nil _).symm

/-! ## Every sequence of commands -/

/-- The events of a sequence, the latest in front. -/
def pastOf (m : Module) (cs : List Command) : List Event := (events (start m) cs).reverse

theorem pastOf_concat (m : Module) (cs : List Command) (c : Command) :
    pastOf m (cs ++ [c]) = ⟨c, c.made? (runAll (start m) cs)⟩ :: pastOf m cs := by
  rw [pastOf, events_concat, List.reverse_append]
  rfl

/-- What each command keeps holds after all of them. -/
theorem stands (m : Module) (cs : List Command) :
    Stage m (pastOf m cs) (runAll (start m) cs) ∧ Placed m (pastOf m cs) (runAll (start m) cs) ∧
      labelsSince m (runAll (start m) cs) = (events (start m) cs).filterMap Event.opened? := by
  -- The last command is taken off, since it is the one in front of the past.
  induction cs using List.reverseRecOn with
  | nil =>
      exact ⟨.idle rfl rfl rfl rfl, placed_start m, by simp [labelsSince, runAll, events, start]⟩
  | append_singleton cs c ih =>
      obtain ⟨hstage, hplaced, hlabels⟩ := ih
      have hstep := c.step (runAll (start m) cs)
      rw [pastOf_concat, runAll_concat]
      refine ⟨hstage.step hstep, hplaced.step hstage hstep, ?_⟩
      rw [hstep.labelsSince_eq hstage, hlabels, events_concat, List.filterMap_append]
      simp only [List.filterMap_cons, List.filterMap_nil]
      split <;> simp [*]

/-- An instruction is accepted exactly if a block has been opened for it and has not been
ended. -/
theorem Stage.emit_succeeds_iff (hb : Stage m past b) (e : Emitter) :
    (∃ made b', Runs e.emit b made b') ↔ Accepting past := by
  constructor
  · rintro ⟨made, b', hrun⟩
    obtain ⟨i, j, hi, hj⟩ := Emitter.selected_of_runs hrun
    obtain ⟨fs, f, bs, bk, -, -, -, -, -, -, hpast⟩ := hb.selected_block hi hj
    exact hpast
  · intro hpast
    cases hb with
    | idle _ _ _ hbegun => exact absurd hpast (not_accepting_of_lastBegun? hbegun)
    | begun _ _ _ _ _ _ hnot => exact absurd hpast hnot
    | writing _ _ _ hfunction _ hblock =>
        obtain ⟨h, m₁, id, -, hrun⟩ := e.emit_of_selected hfunction hblock
        exact ⟨_, _, hrun⟩

/-- One instruction more stands at the end of a block, the last one of the last function, and
no other list of the module has changed. -/
def Appends (b : Builder) (function label h : Handle) (i : Inst Handle) (b' : Builder) : Prop :=
  ∃ fs f bs bk bound ids, f.function = function ∧ bk.label = label ∧
    b.module.functions = fs ++ [f] ∧ f.blocks = bs ++ [bk] ∧ b.module.insts.nextHandle = h ∧
    b'.module = { b.module with
      header.bound := bound
      insts := b.module.insts.push i
      ids
      functions := fs ++ [{ f with blocks := bs ++ [{ bk with body := bk.body ++ [h] }] }] }

theorem Stage.emit_appends (hb : Stage m past b) {e : Emitter} {made : Option Handle}
    (hrun : Runs e.emit b made b') :
    ∃ function label h id, lastBegun? past = some function ∧ lastOpened? past = some label ∧
      b.Appends function label h ⟨e.type?, id, e.kind⟩ b' ∧
      made = if e.ends then none else some h := by
  obtain ⟨i, j, hi, hj⟩ := Emitter.selected_of_runs hrun
  obtain ⟨fs, f, bs, bk, hfunctions, hblocks, rfl, rfl, hbegun, hopened, -⟩ :=
    hb.selected_block hi hj
  obtain ⟨h, m₁, id, hputs, hemit⟩ := e.emit_of_selected hi hj
  obtain ⟨hmade, rfl⟩ := Prod.mk.inj (hrun.symm.trans hemit)
  obtain ⟨bound, ids, rfl⟩ := hputs.frame
  refine ⟨_, _, h, id, hbegun, hopened, ⟨fs, f, bs, bk, bound, ids, rfl, rfl, hfunctions,
    hblocks, hputs.handle.symm, ?_⟩, Except.ok.inj hmade⟩
  simp only [written, hfunctions, modify_length_concat, hblocks]

/-- Whatever is commanded of a new builder, in whatever order and with whatever failures: an
instruction is accepted exactly if a function has been begun, a block has been opened since,
and the block opened last has not been ended; then it stands at the end of that block, and no
other list changes.  Every instruction accepted so far is listed once.  The functions behind
those of the module have just the blocks that were opened, in that order, and a function is
left only at the end of a block. -/
theorem disciplined (m : Module) (cs : List Command) (e : Emitter) :
    ((∃ made b', Runs e.emit (runAll (start m) cs) made b') ↔ Accepting (pastOf m cs)) ∧
    (∀ made b', Runs e.emit (runAll (start m) cs) made b' →
      ∃ function label h id, lastBegun? (pastOf m cs) = some function ∧
        lastOpened? (pastOf m cs) = some label ∧
        (runAll (start m) cs).Appends function label h ⟨e.type?, id, e.kind⟩ b' ∧
        made = if e.ends then none else some h) ∧
    (∀ e' h, ⟨.emit e', some h⟩ ∈ pastOf m cs →
      (runAll (start m) cs).module.listed.count h = m.listed.count h + 1 ∧
      ((∀ g ∈ m.listed, (m.insts.get? g).isSome) →
        (runAll (start m) cs).module.listed.count h = 1)) ∧
    ∃ built, (runAll (start m) cs).module.functions = m.functions ++ built ∧
      (built.flatMap fun f => f.blocks.map (·.label)) =
        (events (start m) cs).filterMap Event.opened? ∧
      ∀ f ∈ built, ∀ bk ∈ f.blocks, ∀ h ∈ bk.body.dropLast,
        ((runAll (start m) cs).module.kindOf h).returns = false := by
  obtain ⟨hstage, hplaced, hlabels⟩ := stands m cs
  refine ⟨hstage.emit_succeeds_iff e, fun made b' => hstage.emit_appends, ?_, ?_⟩
  · intro e' h hmem
    obtain ⟨hfresh, -, hcount⟩ := hplaced.emitted e' h hmem
    refine ⟨hcount, fun hm => ?_⟩
    have hunlisted : h ∉ m.listed := by
      intro hh
      have hsome := hm h hh
      rw [hfresh] at hsome
      cases hsome
    rw [hcount, List.count_eq_zero_of_not_mem hunlisted]
  · obtain ⟨built, hbuilt, hended⟩ := hstage.built
    refine ⟨built, hbuilt, ?_, fun f hf bk hbk => (hended f hf bk hbk).2⟩
    rw [← hlabels, labelsSince_of_functions hbuilt]

end KernelGrid.Builder
