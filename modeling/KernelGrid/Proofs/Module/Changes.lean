import KernelGrid.Proofs.Module.Soundness

/-!
# Changes of sound modules

A module stays sound when a new instruction is stored and listed where it belongs, when
instructions are replaced by similar ones, and when a function is entered.
-/

namespace KernelGrid.Module

variable {m m' : Module} {h : Handle}

/-! ## Storing -/

/-- An instruction has been stored, without an id or with the next one.  It is not listed yet. -/
structure Puts (m : Module) (i : Inst Handle) (h : Handle) (m' : Module) : Prop where
  frame : ∃ bound ids, m' = { m with header.bound := bound, insts := m.insts.push i, ids }
  handle : h = m.insts.nextHandle
  bound : i.resultId = none ∧ m'.header.bound = m.header.bound ∨
    i.resultId = some m.header.bound ∧ m'.header.bound = Word.next m.header.bound

theorem puts_append {i : Inst Handle} (hid : i.resultId = none) (hrun : append i m = (h, m')) :
    m.Puts i h m' := by
  rw [append_of_none hid] at hrun
  obtain ⟨rfl, rfl⟩ := Prod.mk.inj hrun
  exact ⟨⟨m.header.bound, m.ids, rfl⟩, rfl, .inl ⟨hid, rfl⟩⟩

theorem puts_define {type : Option Handle} {kind : Kind Handle}
    (hrun : define type kind m = (h, m')) :
    m.Puts ⟨type, some m.header.bound, kind⟩ h m' := by
  change append ⟨type, some m.header.bound, kind⟩
    { m with header.bound := Word.next m.header.bound } = (h, m') at hrun
  rw [append_of_some rfl] at hrun
  obtain ⟨rfl, rfl⟩ := Prod.mk.inj hrun
  exact ⟨⟨_, _, rfl⟩, rfl, .inr ⟨rfl, Word.max_of_le (UInt32.le_refl _)⟩⟩

namespace Puts

variable {i : Inst Handle} (hp : m.Puts i h m')

include hp

theorem inst_eq (g : Handle) : m'.inst g = if g = h then i else m.inst g := by
  obtain ⟨bound, ids, rfl⟩ := hp.frame
  rw [hp.handle, inst, Arena.get?_push]
  split <;> rfl

theorem insts_eq : m'.insts = m.insts.push i := by
  obtain ⟨bound, ids, rfl⟩ := hp.frame
  rfl

theorem get?_eq (g : Handle) : m'.insts.get? g = if g = h then some i else m.insts.get? g := by
  rw [hp.insts_eq, hp.handle, Arena.get?_push]

theorem outlasts : m.Outlasts m' := by
  intro g j hg
  rw [hp.get?_eq, if_neg, hg]
  rintro rfl
  rw [hp.handle, Arena.get?_nextHandle] at hg
  cases hg

theorem functions_eq : m'.functions = m.functions := by
  obtain ⟨bound, ids, rfl⟩ := hp.frame
  rfl

theorem listed_eq : m'.listed = m.listed := by
  obtain ⟨bound, ids, rfl⟩ := hp.frame
  rfl

theorem handles_eq (s : Section) : s.handles m' = s.handles m := by
  obtain ⟨bound, ids, rfl⟩ := hp.frame
  cases s <;> rfl

theorem bound_le : m.header.bound ≤ m'.header.bound := by
  obtain ⟨-, hbound⟩ | ⟨-, hbound⟩ := hp.bound
  · rw [hbound]
    exact UInt32.le_refl _
  · rw [hbound]
    exact Word.le_next _

theorem ne_of_isSome {g : Handle} (hg : (m.inst g).resultId.isSome) : g ≠ h := by
  rintro rfl
  rw [hp.handle, inst_nextHandle] at hg
  cases hg

theorem inst_eq_of_ne {g : Handle} (hg : g ≠ h) : m'.inst g = m.inst g := by
  rw [hp.inst_eq, if_neg hg]

theorem inst_self : m'.inst h = i := by rw [hp.inst_eq, if_pos rfl]

theorem not_mem_listed (hm : m.Sound) : h ∉ m.listed := by
  intro hh
  have hgenuine := (hm.writable h hh).genuine
  rw [hp.handle, inst_nextHandle] at hgenuine
  exact hgenuine

theorem inst_eq_of_listed (hm : m.Sound) {g : Handle} (hg : g ∈ m.listed) :
    m'.inst g = m.inst g := hp.inst_eq_of_ne fun heq => hp.not_mem_listed hm (heq ▸ hg)

theorem kindOf_eq_of_listed (hm : m.Sound) {g : Handle} (hg : g ∈ m.listed) :
    m'.kindOf g = m.kindOf g := congrArg Inst.kind (hp.inst_eq_of_listed hm hg)

theorem usable {g : Handle} (hg : m.Usable g) : m'.Usable g := by
  refine ⟨?_, fun hbound => ?_⟩
  · rw [hp.inst_eq_of_ne (hp.ne_of_isSome hg.isSome)]
    exact hg.isSome
  · rw [hp.listed_eq]
    exact hg.listed (UInt32.le_trans hp.bound_le hbound)

theorem numbered (hm : m.Sound) (hbound : m'.header.bound ≤ maxIdBound) : m'.Numbered := by
  have hn := hm.numbered (UInt32.le_trans hp.bound_le hbound)
  have hid : ∀ id ∈ i.resultId, id = m.header.bound ∧ m.header.bound < m'.header.bound := by
    intro id hid
    rw [Option.mem_def] at hid
    obtain ⟨hnone, -⟩ | ⟨hsome, hnext⟩ := hp.bound
    · rw [hid] at hnone
      cases hnone
    · rw [hid, Option.some.injEq] at hsome
      rw [hnext] at hbound ⊢
      exact ⟨hsome, Word.lt_next hbound (by decide)⟩
  -- An id that was there before is below the bound, so it is not the next one.
  have hother {g : Handle} {id : ResultId} (hg : (m.inst g).resultId = some id)
      (hi : i.resultId = some id) : False := by
    have hlt := (hn.below g id hg).2
    rw [(hid id hi).1] at hlt
    exact UInt32.lt_irrefl _ hlt
  constructor
  · intro g id hg
    rw [hp.inst_eq] at hg
    split at hg
    · obtain ⟨rfl, hlt⟩ := hid id hg
      refine ⟨?_, hlt⟩
      intro hzero
      have hpos := hm.bound_pos
      rw [hzero] at hpos
      exact absurd hpos (by decide)
    · obtain ⟨hne, hlt⟩ := hn.below g id hg
      exact ⟨hne, UInt32.lt_of_lt_of_le hlt hp.bound_le⟩
  · intro g g' id hg hg'
    rw [hp.inst_eq] at hg hg'
    split at hg
    · rename_i heq
      split at hg'
      · rename_i heq'
        rw [heq, heq']
      · exact (hother hg' hg).elim
    · split at hg'
      · exact (hother hg hg').elim
      · exact hn.unique g g' id hg hg'

/-- What is stored does not matter as long as it is not listed, if all that it refers to may be
referred to. -/
theorem sound (hm : m.Sound) (hreferences : ∀ r ∈ i.references, m.Usable r) : m'.Sound := by
  have hkinds : ∀ g ∈ m.listed, m'.kindOf g = m.kindOf g := fun _ => hp.kindOf_eq_of_listed hm
  have hfunctions : m'.functions = m.functions := by
    obtain ⟨bound, ids, rfl⟩ := hp.frame
    rfl
  have hentries : m'.entryPoints = m.entryPoints := by
    obtain ⟨bound, ids, rfl⟩ := hp.frame
    rfl
  have hinterned : m'.interned = m.interned := by
    obtain ⟨bound, ids, rfl⟩ := hp.frame
    rfl
  have hcode {f : FunctionDef} (hf : f ∈ m.functions) {g : Handle} (hg : g ∈ f.handles) :
      m'.kindOf g = m.kindOf g := hkinds g (mem_listed.2 (.inr ⟨f, hf, hg⟩))
  refine ⟨UInt32.le_trans hm.bound_pos hp.bound_le, hp.numbered hm, ?_, ?_, ?_, ?_, ?_,
    ?_, ?_, ?_, ?_, ?_⟩
  · rw [hp.listed_eq]
    exact hm.nodup
  · intro g hg
    rw [hp.listed_eq] at hg
    rw [hp.inst_eq_of_listed hm hg]
    exact hm.writable g hg
  · intro g r
    rw [hp.inst_eq]
    split
    · exact fun hr => hp.usable (hreferences r hr)
    · exact fun hr => hp.usable (hm.references g r hr)
  · intro s g hg
    rw [hp.handles_eq] at hg
    rw [hkinds g (mem_listed.2 (.inl ⟨s, hg⟩))]
    exact hm.sections s g hg
  · rw [hfunctions]
    exact fun f hf => (hm.functions f hf).congr fun g hg => congrArg Kind.opcode (hcode hf hg)
  · rw [hfunctions]
    intro f hf b hb g hg
    rw [hcode hf
      (List.mem_append_right _ (List.mem_flatMap.2 ⟨b, hb, List.mem_cons_of_mem _ hg⟩))]
    exact hm.bodies f hf b hb g hg
  · rw [hentries]
    exact hm.entryNames
  · rw [hentries]
    exact fun e he r hr => hp.usable (hm.entryReferences e he r hr)
  · rw [hentries]
    exact hm.sized
  · rw [hinterned]
    intro d g hg
    obtain ⟨husable, hd⟩ := hm.interned d g hg
    refine ⟨hp.usable husable, ?_⟩
    rw [hp.inst_eq_of_ne (hp.ne_of_isSome husable.isSome), hd]

end Puts

/-! ## Listing -/

structure Outlined (m : Module) (f : FunctionDef) : Prop where
  shaped : f.Shaped fun h => (m.kindOf h).opcode
  bodies : ∀ b ∈ f.blocks, ∀ h ∈ b.body, (m.kindOf h).opcode ≠ Form.executionMode.opcode

structure Enlists (m : Module) (h : Handle) (m' : Module) : Prop where
  header : m'.header = m.header
  insts : m'.insts = m.insts
  entryPoints : m'.entryPoints = m.entryPoints
  interned : m'.interned = m.interned
  listed : m'.listed.Perm (h :: m.listed)
  sections : ∀ s : Section, ∀ g ∈ s.handles m', g ∈ s.handles m ∨ g = h ∧
    Section.ofOpcode (m.kindOf h).opcode = s ∧ (m.kindOf h).opcode ∉ FunctionDef.outlineOpcodes
  functions : ∀ f ∈ m'.functions, f ∈ m.functions ∨ m.Outlined f

namespace Enlists

variable (he : m.Enlists h m')

include he

theorem inst_eq (g : Handle) : m'.inst g = m.inst g := by rw [inst, inst, he.insts]

theorem kindOf_eq (g : Handle) : m'.kindOf g = m.kindOf g := congrArg Inst.kind (he.inst_eq g)

theorem mem_listed {g : Handle} : g ∈ m'.listed ↔ g = h ∨ g ∈ m.listed := by
  rw [he.listed.mem_iff, List.mem_cons]

theorem usable {g : Handle} (hg : m.Usable g) : m'.Usable g :=
  hg.of_eq he.header he.insts fun hlisted => he.mem_listed.2 (.inr hlisted)

theorem usable_self (hid : (m.inst h).resultId.isSome) : m'.Usable h := by
  refine ⟨?_, fun _ => he.mem_listed.2 (.inl rfl)⟩
  rw [he.inst_eq]
  exact hid

/-- A new instruction may be listed where it belongs. -/
theorem sound (hm : m.Sound) (hfresh : h ∉ m.listed) (hwritable : (m.inst h).Writable) :
    m'.Sound := by
  refine ⟨?_, ?_, ?_, ?_, ?_, ?_, ?_, ?_, ?_, ?_, ?_, ?_⟩
  · rw [he.header]
    exact hm.bound_pos
  · rw [he.header]
    intro hbound
    obtain ⟨hbelow, hunique⟩ := hm.numbered hbound
    constructor
    · simpa only [he.inst_eq, he.header] using hbelow
    · simpa only [he.inst_eq] using hunique
  · rw [he.listed.nodup_iff, List.nodup_cons]
    exact ⟨hfresh, hm.nodup⟩
  · intro g hg
    rw [he.inst_eq]
    obtain rfl | hg := he.mem_listed.1 hg
    · exact hwritable
    · exact hm.writable g hg
  · intro g r
    rw [he.inst_eq]
    exact fun hr => he.usable (hm.references g r hr)
  · intro s g hg
    rw [he.kindOf_eq]
    obtain hg | ⟨rfl, hs⟩ := he.sections s g hg
    · exact hm.sections s g hg
    · exact hs
  · intro f hf
    simp only [he.kindOf_eq]
    exact (he.functions f hf).elim (hm.functions f) Outlined.shaped
  · intro f hf
    simp only [he.kindOf_eq]
    exact (he.functions f hf).elim (hm.bodies f) Outlined.bodies
  · rw [he.entryPoints]
    exact hm.entryNames
  · rw [he.entryPoints]
    exact fun e hmem r hr => he.usable (hm.entryReferences e hmem r hr)
  · rw [he.entryPoints]
    exact hm.sized
  · rw [he.interned]
    intro d g hg
    rw [he.inst_eq]
    exact (hm.interned d g hg).imp_left he.usable

end Enlists

theorem Sound.add {m₁ : Module} {i : Inst Handle} (hm : m.Sound) (hp : m.Puts i h m₁)
    (he : m₁.Enlists h m') (hi : i.Writable) (hreferences : ∀ r ∈ i.references, m.Usable r) :
    m.Grows m' ∧ (i.resultId.isSome → m'.Usable h) := by
  refine ⟨⟨he.sound (hp.sound hm hreferences) ?_ ?_, fun g hg => he.usable (hp.usable hg)⟩,
    fun hid => ?_⟩
  · rw [hp.listed_eq]
    exact hp.not_mem_listed hm
  · rwa [hp.inst_self]
  · exact he.usable_self (by rwa [hp.inst_self])

/-! ### Sections -/

theorem listed_perm {s : Section} (hothers : ∀ t : Section, t ≠ s → t.handles m' = t.handles m)
    (hadded : (s.handles m').Perm (h :: s.handles m)) (hfunctions : m'.functions = m.functions) :
    m'.listed.Perm (h :: m.listed) := by
  rw [List.perm_iff_count]
  intro g
  have hcount (t : Section) : (t.handles m').count g =
      (t.handles m).count g + if t = s then (if h = g then 1 else 0) else 0 := by
    split
    · rename_i heq
      rw [heq, hadded.count_eq, List.count_cons]
      simp only [beq_iff_eq]
    · rename_i hne
      rw [hothers t hne, Nat.add_zero]
  rw [listed_eq, listed_eq, hfunctions, List.count_cons]
  simp only [List.flatMap_cons, List.flatMap_nil, List.count_append, List.count_nil, hcount,
    beq_iff_eq]
  cases s <;> simp <;> omega

theorem enlists_section {s : Section} {m' : Module}
    (hframe : m'.header = m.header ∧ m'.insts = m.insts ∧ m'.entryPoints = m.entryPoints ∧
      m'.interned = m.interned ∧ m'.functions = m.functions)
    (hothers : ∀ t : Section, t ≠ s → t.handles m' = t.handles m)
    (hadded : (s.handles m').Perm (h :: s.handles m))
    (hsection : Section.ofOpcode (m.kindOf h).opcode = s ∧
      (m.kindOf h).opcode ∉ FunctionDef.outlineOpcodes) : m.Enlists h m' := by
  obtain ⟨hheader, hinsts, hentries, hinterned, hfunctions⟩ := hframe
  refine ⟨hheader, hinsts, hentries, hinterned, listed_perm hothers hadded hfunctions, ?_, ?_⟩
  · intro t g hg
    by_cases ht : t = s
    · subst ht
      obtain rfl | hg := List.mem_cons.1 (hadded.subset hg)
      · exact .inr ⟨rfl, hsection⟩
      · exact .inl hg
    · rw [hothers t ht] at hg
      exact .inl hg
  · rw [hfunctions]
    exact fun f hf => .inl hf

theorem enlists_add {s : Section} (hs : s ≠ .memoryModel ∨ m.memoryModel = none)
    (hsection : Section.ofOpcode (m.kindOf h).opcode = s ∧
      (m.kindOf h).opcode ∉ FunctionDef.outlineOpcodes) : m.Enlists h (s.add h m) := by
  refine enlists_section ⟨by simp, by simp, by simp, by cases s <;> rfl, by simp⟩ ?_ ?_ hsection
  · intro t ht
    rw [Section.handles_add, if_neg ht.symm]
  · rw [Section.handles_add, if_pos rfl]
    split
    · rename_i heq
      obtain hne | hnone := hs
      · exact absurd heq hne
      · rw [heq, Section.handles, hnone]
        exact List.Perm.refl _
    · exact List.perm_append_singleton h _

/-! ### Functions -/

theorem perm_flatMap_modify {α : Type} {f : α → List Handle} {g : α → α} {xs : List α} {n : Nat}
    {x : α} (hx : xs[n]? = some x) (hg : (f (g x)).Perm (h :: f x)) :
    ((xs.modify n g).flatMap f).Perm (h :: xs.flatMap f) := by
  induction xs generalizing n with
  | nil => cases hx
  | cons y ys ih =>
      cases n with
      | zero =>
          obtain rfl := Option.some.inj hx
          exact (hg.append_right _)
      | succ n =>
          rw [List.modify_succ_cons, List.flatMap_cons, List.flatMap_cons]
          exact ((ih hx).append_left _).trans List.perm_middle

theorem mem_modify {α : Type} {g : α → α} {xs : List α} {n : Nat} {x y : α}
    (hx : xs[n]? = some x) (hy : y ∈ xs.modify n g) : y ∈ xs ∨ y = g x := by
  induction xs generalizing n with
  | nil => cases hx
  | cons z zs ih =>
      cases n with
      | zero =>
          obtain rfl := Option.some.inj hx
          obtain rfl | hy := List.mem_cons.1 hy
          · exact .inr rfl
          · exact .inl (List.mem_cons_of_mem _ hy)
      | succ n =>
          rw [List.modify_succ_cons] at hy
          obtain rfl | hy := List.mem_cons.1 hy
          · exact .inl List.mem_cons_self
          · exact (ih hx hy).imp_left (List.mem_cons_of_mem _)

theorem enlists_functions {functions : List FunctionDef}
    (hlisted : (functions.flatMap FunctionDef.handles).Perm
      (h :: m.functions.flatMap FunctionDef.handles))
    (hfunctions : ∀ f ∈ functions, f ∈ m.functions ∨ m.Outlined f) :
    m.Enlists h { m with functions } := by
  refine ⟨rfl, rfl, rfl, rfl, ?_, ?_, hfunctions⟩
  · exact (hlisted.append_left _).trans List.perm_middle
  · intro s g hg
    cases s <;> exact .inl hg

theorem enlists_function (hop : (m.kindOf h).opcode = Form.function.opcode) :
    m.Enlists h { m with functions := m.functions ++ [.empty h] } := by
  apply enlists_functions
  · rw [List.flatMap_append]
    exact List.perm_append_singleton h _
  · rw [List.forall_mem_append, List.forall_mem_singleton]
    refine ⟨fun f hf => .inl hf, .inr ⟨⟨hop, ?_, ?_, ?_⟩, ?_⟩⟩ <;> simp [FunctionDef.empty]

variable {f : FunctionDef} {i j : Nat} {b : Block}

theorem enlists_label (hm : m.Sound) (hf : m.functions[i]? = some f)
    (hop : (m.kindOf h).opcode = Form.label.opcode) :
    m.Enlists h { m with functions := m.functions.modify i fun f =>
      { f with blocks := f.blocks ++ [⟨h, []⟩] } } := by
  have hmem : f ∈ m.functions := List.mem_of_getElem? hf
  have hshaped := hm.functions f hmem
  apply enlists_functions
  · refine perm_flatMap_modify hf ?_
    rw [FunctionDef.handles, List.flatMap_append, ← List.append_assoc]
    exact List.perm_append_singleton h _
  · intro f' hf'
    obtain hf' | rfl := mem_modify hf hf'
    · exact .inl hf'
    · refine .inr ⟨⟨hshaped.function, hshaped.parameters, ?_, ?_⟩, ?_⟩
      · rw [List.forall_mem_append, List.forall_mem_singleton]
        exact ⟨hshaped.labels, hop⟩
      · rw [List.forall_mem_append, List.forall_mem_singleton]
        exact ⟨hshaped.bodies, by simp⟩
      · rw [List.forall_mem_append, List.forall_mem_singleton]
        exact ⟨hm.bodies f hmem, by simp⟩

theorem enlists_body (hm : m.Sound) (hf : m.functions[i]? = some f) (hb : f.blocks[j]? = some b)
    (hop : (m.kindOf h).opcode ∉ FunctionDef.outlineOpcodes)
    (hmode : (m.kindOf h).opcode ≠ Form.executionMode.opcode) :
    m.Enlists h { m with functions := m.functions.modify i fun f =>
      { f with blocks := f.blocks.modify j fun b => { b with body := b.body ++ [h] } } } := by
  have hmem : f ∈ m.functions := List.mem_of_getElem? hf
  have hmem' : b ∈ f.blocks := List.mem_of_getElem? hb
  have hshaped := hm.functions f hmem
  apply enlists_functions
  · refine perm_flatMap_modify hf ?_
    refine (List.Perm.append_left _ (perm_flatMap_modify hb ?_)).trans List.perm_middle
    exact List.perm_append_singleton h (b.label :: b.body)
  · intro f' hf'
    obtain hf' | rfl := mem_modify hf hf'
    · exact .inl hf'
    · refine .inr ⟨⟨hshaped.function, hshaped.parameters, ?_, ?_⟩, ?_⟩
      · intro b' hb'
        obtain hb' | rfl := mem_modify hb hb'
        · exact hshaped.labels b' hb'
        · exact hshaped.labels b hmem'
      · intro b' hb'
        obtain hb' | rfl := mem_modify hb hb'
        · exact hshaped.bodies b' hb'
        · rw [List.forall_mem_append, List.forall_mem_singleton]
          exact ⟨hshaped.bodies b hmem', hop⟩
      · intro b' hb'
        obtain hb' | rfl := mem_modify hb hb'
        · exact hm.bodies f hmem b' hb'
        · rw [List.forall_mem_append, List.forall_mem_singleton]
          exact ⟨hm.bodies f hmem b hmem', hmode⟩

/-! ## Changes in place -/

structure Replaces (i j : Inst Handle) : Prop where
  resultId : j.resultId = i.resultId
  opcode : j.opcode = i.opcode
  references : ∀ r ∈ j.references, r ∈ i.references
  writable : i.Writable → j.Writable

theorem Replaces.refl (i : Inst Handle) : Replaces i i := ⟨rfl, rfl, fun _ => id, id⟩

/-- What is listed stays where it is if other instructions stand in place of some. -/
theorem Sound.change (hm : m.Sound) {bound : ResultId} {insts : Arena (Inst Handle)}
    {entryPoints : List (EntryPoint Handle)} {interned : List (Description × Handle)}
    {distinct : List Handle} (hbound : m.header.bound ≤ bound)
    (hreplaces : ∀ g, Replaces (m.inst g) (({ m with insts } : Module).inst g))
    (hentries : ∀ e ∈ entryPoints, e ∈ m.entryPoints ∨
      '\x00' ∉ e.name.toList ∧ ∀ r ∈ e.references, m.Usable r)
    (hsized : EntryPoint.SizedOnce entryPoints)
    (hinterned : ∀ d h, (d, h) ∈ interned →
      m.Usable h ∧ (({ m with insts } : Module).inst h).description? = some d) :
    m.Grows { m with header.bound := bound, insts, entryPoints, interned, distinct } := by
  let m' : Module := { m with header.bound := bound, insts, entryPoints, interned, distinct }
  have hid (g : Handle) : (m'.inst g).resultId = (m.inst g).resultId := (hreplaces g).resultId
  have hop (g : Handle) : (m'.kindOf g).opcode = (m.kindOf g).opcode := (hreplaces g).opcode
  have husable (g : Handle) (hg : m.Usable g) : m'.Usable g :=
    ⟨(hid g).symm ▸ hg.isSome, fun hle => hg.listed (UInt32.le_trans hbound hle)⟩
  refine ⟨⟨UInt32.le_trans hm.bound_pos hbound, fun hle => ?_, hm.nodup, ?_, ?_, ?_, ?_,
    ?_, ?_, ?_, hsized, ?_⟩, husable⟩
  · obtain ⟨hbelow, hunique⟩ := hm.numbered (UInt32.le_trans hbound hle)
    constructor
    · intro h id hh
      obtain ⟨hne, hlt⟩ := hbelow h id (hid h ▸ hh)
      exact ⟨hne, UInt32.lt_of_lt_of_le hlt hbound⟩
    · intro h g id hh hg
      exact hunique h g id ((hid h).symm.trans hh) ((hid g).symm.trans hg)
  · exact fun h hh => (hreplaces h).writable (hm.writable h hh)
  · exact fun h r hr => husable r (hm.references h r ((hreplaces h).references r hr))
  · intro s h hh
    change Section.ofOpcode (m'.kindOf h).opcode = s ∧
      (m'.kindOf h).opcode ∉ FunctionDef.outlineOpcodes
    rw [hop]
    exact hm.sections s h (by cases s <;> exact hh)
  · exact fun f hf => (hm.functions f hf).congr fun g _ => hop g
  · intro f hf b hb h hh heq
    exact hm.bodies f hf b hb h hh ((hop h).symm.trans heq)
  · intro e he
    obtain he | ⟨hname, -⟩ := hentries e he
    · exact hm.entryNames e he
    · exact hname
  · intro e he r hr
    obtain he | ⟨-, hreferences⟩ := hentries e he
    · exact husable r (hm.entryReferences e he r hr)
    · exact husable r (hreferences r hr)
  · exact fun d h hh => (hinterned d h hh).imp_left (husable h)

theorem Sound.raise (hm : m.Sound) {bound : ResultId} (hbound : m.header.bound ≤ bound) :
    m.Grows { m with header.bound := bound } :=
  hm.change hbound (fun _ => .refl _) (fun _ => .inl) hm.sized hm.interned

/-- Interning another declaration, or setting a struct type apart, changes nothing that is
listed. -/
theorem Sound.withInterned (hm : m.Sound) {interned : List (Description × Handle)}
    {distinct : List Handle}
    (hinterned : ∀ d h, (d, h) ∈ interned → m.Usable h ∧ (m.inst h).description? = some d) :
    m.Grows { m with interned, distinct } :=
  hm.change (UInt32.le_refl _) (fun _ => .refl _) (fun _ => .inl) hm.sized hinterned

/-- A function that is entered for the first time may have an entry point with a size. -/
theorem Sound.enter (hm : m.Sound) {e : EntryPoint Handle} (hname : '\x00' ∉ e.name.toList)
    (hreferences : ∀ r ∈ e.references, m.Usable r)
    (hfresh : ∀ d ∈ m.entryPoints, d.function ≠ e.function) :
    m.Grows { m with entryPoints := m.entryPoints ++ [e] } := by
  refine hm.change (UInt32.le_refl _) (fun _ => .refl _) ?_ ?_ hm.interned
  · intro d hd
    obtain hd | hd := List.mem_append.1 hd
    · exact .inl hd
    · rw [List.mem_singleton.1 hd]
      exact .inr ⟨hname, hreferences⟩
  · refine List.pairwise_append.2 ⟨hm.sized, List.pairwise_singleton _ _, ?_⟩
    intro d hd e' he' heq
    rw [List.mem_singleton.1 he'] at heq
    exact absurd heq (hfresh d hd)

end KernelGrid.Module
