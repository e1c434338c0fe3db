import KernelGrid.Proofs.Kernel.GlobalBlock
import KernelGrid.Proofs.Kernel.Reloading
import KernelGrid.Proofs.Module.Declarations

/-!
# The order of uses

A lowering declares what it uses before it uses it: what it adds to the globals section stands
behind what it mentions, and the code of new entry points mentions declarations, functions and
earlier results.
-/

namespace KernelGrid

open KernelGrid.Module

/-! ## Properties of sound states -/

section

variable {σ ε α τ : Type} {P P' : σ → Prop} {U U' : σ → τ → Prop} {known : List τ}
  {made : α → List τ}

/-- A second property may be kept because the first one is. -/
theorem Keeps.and {x : StateM σ α} (hx : Keeps P U known x made)
    (hx' : ∀ s, P s → P' s → (∀ t ∈ known, U s t ∧ U' s t) →
      P' (x s).2 ∧ ∀ t ∈ made (x s).1 ++ known, U' (x s).2 t) :
    Keeps (fun s => P s ∧ P' s) (fun s t => U s t ∧ U' s t) known x made := by
  intro s hs hknown
  obtain ⟨hfirst, hmade⟩ := hx s hs.1 fun t ht => (hknown t ht).1
  obtain ⟨hsecond, hmade'⟩ := hx' s hs.1 hs.2 hknown
  exact ⟨⟨hfirst, hsecond⟩, fun t ht => ⟨hmade t ht, hmade' t ht⟩⟩

theorem KeepsTrying.and {x : ExceptT ε (StateM σ) α} (hx : KeepsTrying P U known x made)
    (hx' : ∀ s, P s → P' s → (∀ t ∈ known, U s t ∧ U' s t) →
      (∃ e s', x s = (.error e, s') ∧ P' s' ∧ ∀ t ∈ known, U' s' t) ∨
        ∃ a s', x s = (.ok a, s') ∧ P' s' ∧ ∀ t ∈ made a ++ known, U' s' t) :
    KeepsTrying (fun s => P s ∧ P' s) (fun s t => U s t ∧ U' s t) known x made := by
  refine Keeps.and hx fun s hs hs' hknown => ?_
  obtain ⟨e, s', hrun, hkept⟩ | ⟨a, s', hrun, hkept⟩ := hx' s hs hs' hknown
  · have hrun : x.run s = _ := hrun
    rw [hrun]
    exact hkept
  · have hrun : x.run s = _ := hrun
    rw [hrun]
    exact hkept

end

namespace Module

variable {m m₀ m' : Module} {known : List Use} {values : List FunctionDef → Handle → Prop}

/-! ## Edits -/

/-- What may be used: declarations in the globals section, and values that are told by the
functions. -/
def Provides (values : List FunctionDef → Handle → Prop) (m : Module) : Use → Prop
  | .declaration h | .element h => h ∈ m.globals
  | .value h => values m.functions h

structure Arranged (m₀ m : Module) : Prop extends Edited m₀ m where
  declared : m.Declared

theorem Provides.edited {t : Use} (ht : m.Provides values t) (hmm : m.Edited m') :
    m'.Provides values t := by
  cases t with
  | declaration h | element h => exact hmm.continues.globals.subset ht
  | value h =>
      rw [Provides, hmm.code.functions]
      exact ht

theorem keeps_arranged {α : Type} {x : Edit α} {made : α → List Use}
    (hx : ∀ m₀, Keeps (Edited m₀) (fun m t => m.Usable t.handle) known x made)
    (hx' : ∀ m a m', x m = (a, m') → m.Sound → m.Declared →
      (∀ h, .declaration h ∈ known → h ∈ m.globals) →
        m'.Declared ∧ ∀ t ∈ made a, m'.Provides values t) :
    Keeps (Arranged m₀) (fun m t => m.Usable t.handle ∧ m.Provides values t) known x made := by
  intro m hm hknown
  obtain ⟨hedited, husable⟩ := hx m m hm.sound.edited fun t ht => (hknown t ht).1
  obtain ⟨hdeclared, hmade⟩ := hx' m _ _ rfl hm.sound hm.declared fun h hh => (hknown _ hh).2
  refine ⟨⟨⟨hedited.sound, hm.continues.trans hedited.continues, hm.code.trans hedited.code⟩,
    hdeclared⟩, fun t ht => ⟨husable t ht, ?_⟩⟩
  exact (List.mem_append.1 ht).elim (hmade t) fun ht => (hknown t ht).2.edited hedited

theorem arranged_rules (values : List FunctionDef → Handle → Prop) (m₀ : Module) :
    EditRules (Arranged m₀) fun m t => m.Usable t.handle ∧ m.Provides values t where
  decorate htarget := by
    refine keeps_arranged (fun m₀ => (edited_rules m₀).decorate htarget)
      fun m a m' hrun hm hd hknown =>
      ⟨hd.annotates hm (annotate_annotates hrun) fun var words hmem => ?_, by simp⟩
    obtain rfl := (Kind.decorate.inj (List.mem_singleton.1 hmem)).1
    exact hknown _ htarget
  memberDecorate htarget :=
    keeps_arranged (fun m₀ => (edited_rules m₀).memberDecorate htarget)
      fun m a m' hrun hm hd _ =>
      ⟨hd.annotates hm (annotate_annotates hrun) (by simp), by simp⟩
  internType hkind hreferences :=
    keeps_arranged (fun m₀ => (edited_rules m₀).internType hkind hreferences)
      fun m h m' hrun hm hd hknown => by
        rw [List.forall_mem_singleton]
        exact hd.intern hm hrun (by simp) fun r hr => hknown r (hreferences r hr)
  internConstant hkind htype hreferences :=
    keeps_arranged (fun m₀ => (edited_rules m₀).internConstant hkind htype hreferences)
      fun m h m' hrun hm hd hknown => by
        rw [List.forall_mem_singleton]
        exact hd.intern hm hrun (by simpa using hknown _ htype)
          fun r hr => hknown r (hreferences r hr)
  freshStructType hmembers :=
    keeps_arranged (fun m₀ => (edited_rules m₀).freshStructType hmembers)
      fun m h m' hrun hm hd hknown => by
        obtain ⟨g, m₁, hdefine, hrun⟩ := edit_bind.1 hrun
        obtain ⟨hdeclared, hmem⟩ := hd.declare hm hdefine (by simp)
          (by simpa [Kind.references, Kind.operands] using fun r hr => hknown r (hmembers r hr))
        obtain ⟨_, m₂, hdeclare, hrun⟩ := edit_bind.1 hrun
        obtain rfl : m₂ = (declare g m₁).2 := by rw [hdeclare]
        obtain ⟨_, m₃, hlist, hrun⟩ := edit_bind.1 hrun
        obtain ⟨rfl, rfl⟩ := edit_pure.1 hrun
        obtain ⟨-, rfl⟩ := Prod.mk.inj hlist
        rw [List.forall_mem_singleton]
        exact ⟨⟨hdeclared.ordered, hdeclared.interned, hdeclared.builtIns⟩, hmem⟩
  addGlobalVar hpointer :=
    keeps_arranged (fun m₀ => (edited_rules m₀).addGlobalVar hpointer)
      fun m h m' hrun hm hd hknown => by
        obtain ⟨g, m₁, hdefine, hrun⟩ := edit_bind.1 hrun
        obtain ⟨_, m₂, hdeclare, hrun⟩ := edit_bind.1 hrun
        obtain ⟨rfl, rfl⟩ := edit_pure.1 hrun
        obtain rfl : m₂ = (declare g m₁).2 := by rw [hdeclare]
        rw [List.forall_mem_singleton]
        exact hd.declare hm hdefine (by simpa using hknown _ hpointer)
          (by simp [Kind.references, Kind.operands, List.filterMap_cons])
  builtIn hm hfind := by
    refine ⟨hm.sound.usable_of_findBuiltIn? hfind, ?_⟩
    have hvar := isBuiltInVar_of_findBuiltIn? hfind
    obtain ⟨h, hh, operands, hkind, -⟩ := mem_builtIns.1 hvar.declared
    exact hm.declared.builtIns _ operands (hkind ▸ List.mem_map_of_mem hh) hvar.isVar

end Module

namespace Builder

variable {base : Nat} {b b' : Builder} {known : List Use}

/-! ## Code -/

def Computed (fs : List FunctionDef) (h : Handle) : Prop :=
  FunctionDef.Heads fs h ∨ ∃ f ∈ fs.getLast?, h ∈ f.body

/-- Whether a builder has opened the only block of its last function, in a module where
declarations are in order and the functions from the given number on mention what they may. -/
structure Opened (base : Nat) (b : Builder) : Prop where
  declared : b.module.Declared
  inScope : ∀ f ∈ b.module.functions.drop base, b.module.Scoped f
  last : ∃ fs entry label body, b.module.functions = fs ++ [⟨entry, [], [⟨label, body⟩]⟩] ∧
    base ≤ fs.length ∧ b.function = some fs.length

def Scopes (base : Nat) (b : Builder) : Prop := b.Ready ∧ b.Opened base

def Gives (b : Builder) (t : Use) : Prop := b.Usable t.handle ∧ b.module.Provides Computed t

theorem Opened.edit (hb : b.Opened base) (hready : b.Ready) {m' : Module}
    (hm : b.module.Arranged m') : ({ b with module := m' } : Builder).Opened base := by
  have hfunctions : m'.functions = b.module.functions := hm.code.functions
  refine ⟨hm.declared, fun f hf => ?_, ?_⟩
  · have hf : f ∈ m'.functions.drop base := hf
    rw [hfunctions] at hf
    exact hm.continues.scoped hready.sound (List.mem_of_mem_drop hf) (hb.inScope f hf)
  · change ∃ fs entry label body, m'.functions = _ ∧ _
    rw [hfunctions]
    exact hb.last

theorem Opened.of_bound (hb : b.Opened base) (bound : ResultId) :
    ({ b with module.header.bound := bound } : Builder).Opened base :=
  ⟨⟨hb.declared.ordered, hb.declared.interned, hb.declared.builtIns⟩,
    fun f hf => ⟨(hb.inScope f hf).outline, (hb.inScope f hf).body⟩, hb.last⟩

/-- At the end of its code a function may mention declarations, functions and what it has
computed. -/
theorem Opened.push {i : Inst Handle} {function block : Nat} (hb : b.Opened base)
    (hready : b.Ready) (hfunction : b.function = some function) (hblock : b.block = some block)
    (hi : ∀ r ∈ i.references, r ∈ b.module.globals ∨ Computed b.module.functions r) :
    let m' : Module := { (append i b.module).2 with
      functions := (append i b.module).2.functions.modify function fun f =>
        { f with blocks := f.blocks.modify block fun b' =>
          { b' with body := b'.body ++ [(append i b.module).1] } } }
    ({ b with module := m' } : Builder).Opened base ∧
    Computed m'.functions (append i b.module).1 ∧
      ∀ t, b.module.Provides Computed t → m'.Provides Computed t := by
  rcases hstored : append i b.module with ⟨h, m₁⟩
  obtain ⟨hedits, hget, -⟩ := append_edits hstored
  obtain ⟨hglobals, hinterned⟩ := append_globals hstored
  intro m'
  obtain ⟨fs, entry, label, body, hfs, hbase, hlast⟩ := hb.last
  have hdrop (f : FunctionDef) : (fs ++ [f]).drop base = fs.drop base ++ [f] :=
    List.drop_append_of_le_length hbase
  obtain rfl : function = fs.length := Option.some.inj (hfunction.symm.trans hlast)
  obtain rfl : block = 0 := by
    obtain ⟨f, hf, hlt⟩ := hready.block _ hfunction block hblock
    rw [hfs, List.getElem?_concat_length] at hf
    obtain rfl := Option.some.inj hf
    exact Nat.lt_one_iff.1 hlt
  have hnew : m'.functions = fs ++ [⟨entry, [], [⟨label, body ++ [h]⟩]⟩] := by
    change m₁.functions.modify fs.length _ = _
    rw [hedits.code.functions, hfs, modify_length_concat]
    rfl
  have hextends : b.module.Extends [] m' :=
    hedits.toExtends.trans (Adds.of_code m₁ m'.functions m₁.entryPoints).toExtends
  have hglobals' : m'.globals = b.module.globals := hglobals
  have hheads (g : Handle) (hg : FunctionDef.Heads b.module.functions g) :
      FunctionDef.Heads m'.functions g := by
    simpa [FunctionDef.Heads, hnew, hfs] using hg
  have hkept {f : FunctionDef} (hmem : f ∈ b.module.functions.drop base) : m'.Scoped f := by
    refine (hb.inScope f hmem).mono (fun g hg => hextends.inst_eq ?_)
      (by rw [hglobals']; exact List.Subset.refl _) hheads
    exact hready.sound.stored (mem_listed.2 (.inr ⟨f, List.mem_of_mem_drop hmem, hg⟩))
  have hold : m'.Scoped ⟨entry, [], [⟨label, body⟩]⟩ := hkept (by
    rw [hfs, hdrop]
    simp)
  have hinst : m'.inst h = i := inst_of_get? (show m'.insts.get? h = _ from hget)
  refine ⟨⟨?_, fun f hf => ?_, fs, entry, label, body ++ [h], hnew, hbase, hlast⟩, ?_,
    fun t ht => ?_⟩
  · exact hb.declared.of_globals_eq hready.sound hextends hglobals' hinterned (by simp)
  · have hf : f ∈ m'.functions.drop base := hf
    rw [hnew, hdrop, List.mem_append, List.mem_singleton] at hf
    obtain hf | rfl := hf
    · exact hkept (by rw [hfs, hdrop]; exact List.mem_append_left _ hf)
    · refine hold.snoc fun r hr => ?_
      rw [hinst] at hr
      rw [hglobals']
      refine (hi r hr).imp_right (Or.imp (hheads r) ?_)
      rintro ⟨f, hf, hmem⟩
      rw [hfs, List.getLast?_concat] at hf
      obtain rfl := Option.some.inj hf
      rwa [FunctionDef.body_single] at hmem
  · exact .inr ⟨_, by rw [hnew, List.getLast?_concat]; rfl, by simp⟩
  · cases t with
    | declaration g | element g =>
        rw [Provides, hglobals']
        exact ht
    | value g =>
        refine Or.imp (hheads g) ?_ ht
        rintro ⟨f, hf, hmem⟩
        rw [hfs, List.getLast?_concat] at hf
        obtain rfl := Option.some.inj hf
        rw [FunctionDef.body_single] at hmem
        exact ⟨_, by rw [hnew, List.getLast?_concat]; rfl, by simp [hmem]⟩

/-- What is pushed fails without effect, or is put behind everything that it mentions. -/
theorem Opened.push_cases {i : Inst Handle} (hb : b.Opened base) (hready : b.Ready)
    (hknown : ∀ t ∈ known, b.module.Provides Computed t)
    (hi : ∀ r ∈ i.references, .declaration r ∈ known ∨ .value r ∈ known) :
    (∃ e, Builder.push i b = (.error e, b)) ∨ ∃ h b', Builder.push i b = (.ok h, b') ∧
      b'.Opened base ∧ ∀ t ∈ .value h :: known, b'.module.Provides Computed t := by
  obtain ⟨e, hpush⟩ | ⟨function, block, hfunction, hblock, hpush⟩ := Builder.push_cases i b
  · exact .inl ⟨e, hpush⟩
  · obtain ⟨hopened, hcomputed, hkept⟩ := hb.push (i := i) hready hfunction hblock fun r hr =>
      (hi r hr).imp (hknown (.declaration r)) (hknown (.value r))
    exact .inr ⟨_, _, hpush, hopened,
      List.forall_mem_cons.2 ⟨hcomputed, fun t ht => hkept t (hknown t ht)⟩⟩

theorem scopes_writes (base : Nat) : WriteRules (Scopes base) Gives where
  pushResult {known type kind} hcode htyped htype hreferences := by
    refine (ready_writes.pushResult hcode htyped htype hreferences).and
      fun b hready hopened hknown => ?_
    have hbound := hready.sound.raise (Word.le_next b.module.header.bound)
    have hready' : Ready { b with module.header.bound := Word.next b.module.header.bound } :=
      ⟨hbound.sound, hready.function, hready.block⟩
    have hoffers : ∀ t ∈ known, Provides Computed
        { b.module with header.bound := Word.next b.module.header.bound } t := by
      rintro (h | h | h) ht
      · exact (hknown _ ht).2
      · exact (hknown _ ht).2
      · exact (hknown _ ht).2
    have hrun : pushResult type kind b = push ⟨some type, some b.module.header.bound, kind⟩
        { b with module.header.bound := Word.next b.module.header.bound } := rfl
    obtain ⟨e, hpush⟩ | ⟨h, b', hpush, hopened', hkept⟩ :=
      (hopened.of_bound _).push_cases (i := ⟨some type, some b.module.header.bound, kind⟩)
        hready' hoffers fun r hr => by
          obtain hr | hr := Inst.mem_references.1 hr
          · exact .inl (Option.some.inj hr ▸ htype)
          · exact hreferences r hr
    · exact .inl ⟨e, _, hrun.trans hpush, hopened.of_bound _, hoffers⟩
    · exact .inr ⟨h, b', hrun.trans hpush, hopened', hkept⟩
  store {known pointer object} hpointer hobject := by
    refine (ready_writes.store hpointer hobject).and fun b hready hopened hknown => ?_
    have hoffers : ∀ t ∈ known, b.module.Provides Computed t := fun t ht => (hknown t ht).2
    obtain ⟨e, hpush⟩ | ⟨h, b', hpush, hopened', hkept⟩ :=
      hopened.push_cases (i := .plain (.store pointer object [])) hready hoffers fun r hr => by
          obtain rfl | rfl : r = pointer ∨ r = object := by
            simpa [Inst.references, Inst.plain, Kind.operands] using hr
          · exact .inr hpointer
          · exact .inr hobject
    · exact .inl ⟨e, b, hpush, hopened, hoffers⟩
    · exact .inr ⟨h, b', hpush, hopened', fun t ht => hkept t (List.mem_cons_of_mem _ ht)⟩
  ret {known} := by
    refine ready_writes.ret.and fun b hready hopened hknown => ?_
    have hoffers : ∀ t ∈ known, b.module.Provides Computed t := fun t ht => (hknown t ht).2
    have hrun : ret b = (do
      let _ ← push (.plain .ret)
      modify fun b => { b with block := none } : Build Unit) b := rfl
    rw [hrun, bind_apply]
    obtain ⟨e, hpush⟩ | ⟨h, b', hpush, hopened', hkept⟩ :=
      hopened.push_cases (i := .plain .ret) hready hoffers
        (by simp [Inst.references, Inst.plain, Kind.operands])
    · rw [hpush]
      exact .inl ⟨e, b, rfl, hopened, hoffers⟩
    · rw [hpush]
      exact .inr ⟨(), _, rfl, ⟨hopened'.declared, hopened'.inScope, hopened'.last⟩,
        fun t ht => hkept t (List.mem_cons_of_mem _ ht)⟩

theorem scopes_edit {α : Type} {known : List Use} {made : α → List Use} {e : Edit α}
    (he : ∀ m₀,
      Keeps (Arranged m₀) (fun m t => m.Usable t.handle ∧ m.Provides Computed t) known e made) :
    KeepsTrying (Scopes base) Gives known (edit e) made := by
  intro b hb hknown
  obtain ⟨harranged, hmade⟩ := he b.module b.module ⟨hb.1.sound.edited, hb.2.declared⟩ hknown
  exact ⟨⟨hb.1.edit harranged.toEdited, hb.2.edit hb.1 harranged⟩, hmade⟩

theorem scopes_attempt {α : Type} {known : List Use} {made : α → List Use}
    {e : ExceptT ModuleError Edit α} (he : ∀ m₀, KeepsTrying (Arranged m₀)
      (fun m t => m.Usable t.handle ∧ m.Provides Computed t) known e made) :
    KeepsTrying (Scopes base) Gives known (attempt e) made := by
  intro b hb hknown
  obtain ⟨harranged, hmade⟩ := he b.module b.module ⟨hb.1.sound.edited, hb.2.declared⟩ hknown
  exact ⟨⟨hb.1.edit harranged.toEdited, hb.2.edit hb.1 harranged⟩, hmade⟩

theorem scopes_rules (base : Nat) : CodeRules (Scopes base) Gives :=
  (scopes_writes base).codeRules (arranged_rules Computed) (fun he => scopes_edit he)
    fun he => scopes_attempt he

end Builder

namespace Module

open Builder

variable {base : Nat} {m m' : Module} {k : Kernel}

/-! ## Entry points -/

structure Orderly (base : Nat) (m : Module) : Prop where
  sound : m.Sound
  declared : m.Declared
  base_le : base ≤ m.functions.length
  inScope : ∀ f ∈ m.functions.drop base, m.Scoped f

theorem Orderly.edit (hm : m.Orderly base) (hmm : m.Arranged m') : m'.Orderly base := by
  refine ⟨hmm.sound, hmm.declared, hmm.code.functions.symm ▸ hm.base_le, fun f hf => ?_⟩
  rw [hmm.code.functions] at hf
  exact hmm.continues.scoped hm.sound (List.mem_of_mem_drop hf) (hm.inScope f hf)

theorem orderly_rules (base : Nat) : EntryRules (Orderly base)
    (fun m t => m.Usable t.handle ∧ m.Provides FunctionDef.Heads t) (Scopes base) Gives where
  toCodeRules := scopes_rules base
  declareType hkind hreferences m hm hknown := by
    obtain ⟨harranged, hmade⟩ :=
      (arranged_rules FunctionDef.Heads m).internType hkind hreferences m
      ⟨hm.sound.edited, hm.declared⟩ hknown
    exact ⟨hm.edit harranged, hmade⟩
  opens {m known void type entry b} hm hknown hvoid htype hrun := by
    obtain ⟨hready, husable⟩ :=
      sound_rules.opens hm.sound (fun t ht => (hknown t ht).1) hvoid htype hrun
    obtain ⟨entry', m₁, label, m₂, hentry, hlabel, hopen⟩ := openEntry_runs m void type
    obtain ⟨heq, rfl⟩ := Prod.mk.inj (hopen.symm.trans hrun)
    obtain rfl := Except.ok.inj heq
    obtain ⟨hedits₁, ⟨id, hget⟩, hfresh⟩ := define_edits hentry
    obtain ⟨hedits₂, ⟨id', hget'⟩, -⟩ := define_edits hlabel
    let opened : FunctionDef := ⟨entry', [], [⟨label, []⟩]⟩
    let m' : Module := { m₂ with functions := m.functions ++ [opened] }
    have hextends : m.Extends [] m' := (hedits₁.toExtends.trans hedits₂.toExtends).trans
      (Adds.of_code m₂ m'.functions m₂.entryPoints).toExtends
    have hcontinues : m.Continues m' := by
      refine hextends.continues ⟨[opened], rfl, by simpa using hfresh⟩ ?_
      have hentries : m'.entryPoints = m.entryPoints :=
        hedits₂.code.entryPoints.trans hedits₁.code.entryPoints
      exact ⟨[], (List.append_nil _).trans hentries.symm⟩
    have hkept₁ := define_globals hentry
    have hkept₂ := define_globals hlabel
    have hglobals : m'.globals = m.globals := hkept₂.1.trans hkept₁.1
    have hinst : m'.inst entry' = ⟨some void, some id, .function 0 type⟩ :=
      inst_of_get? (hedits₂.insts entry' _ hget)
    have hinst' : m'.inst label = ⟨none, some id', .label⟩ := inst_of_get? hget'
    refine ⟨⟨hready, hm.declared.of_globals_eq hm.sound hextends hglobals
      (hkept₂.2.trans hkept₁.2) (by simp), fun f hf => ?_, m.functions, entry', label, [], rfl,
      hm.base_le, rfl⟩, fun t ht => ⟨husable t ht, ?_⟩⟩
    · have hf : f ∈ (m.functions ++ [opened]).drop base := hf
      rw [List.drop_append_of_le_length hm.base_le, List.mem_append, List.mem_singleton] at hf
      obtain hf | rfl := hf
      · exact hcontinues.scoped hm.sound (List.mem_of_mem_drop hf) (hm.inScope f hf)
      · refine ⟨fun h hh => .inr ?_, by simp [opened]⟩
        rw [show (⟨m', some m.functions.length, some 0⟩ : Builder).module = m' from rfl,
          hglobals]
        obtain rfl | rfl : h = entry' ∨ h = label := by
          simpa [opened, FunctionDef.handles] using hh
        · rw [hinst]
          simpa [Inst.references, Kind.operands, List.filterMap_cons] using
            ⟨(hknown _ hvoid).2, (hknown _ htype).2⟩
        · rw [hinst']
          simp [Inst.references, Kind.operands]
    · obtain rfl | ht := List.mem_cons.1 ht
      · exact .inl ⟨opened, List.mem_append_right _ (List.mem_singleton_self _), rfl⟩
      · cases t with
        | declaration h | element h => exact hcontinues.globals.subset (hknown _ ht).2
        | value h =>
            obtain ⟨f, hf, heq⟩ := (hknown _ ht).2
            exact .inl ⟨f, List.mem_append_left _ hf, heq⟩
  closes {b} hb := by
    obtain ⟨fs, entry, label, body, hfs, hbase, -⟩ := hb.2.last
    refine ⟨hb.1.sound, hb.2.declared, ?_, hb.2.inScope⟩
    rw [hfs, List.length_append]
    exact Nat.le_add_right_of_le hbase

def DeclaresTypes (m : Module) (name : String) : Prop := ∀ f ∈ m.findFunction? name,
  ∀ h ∈ f.function :: f.parameters, ∀ t ∈ m.typeOf? h, t ∈ m.globals

instance (m : Module) (name : String) : Decidable (m.DeclaresTypes name) :=
  inferInstanceAs (Decidable (∀ f ∈ m.findFunction? name, _))

theorem Continues.declaresTypes (hmm : m.Continues m') (hm : m.Sound) {name : String}
    (htypes : m.DeclaresTypes name) : m'.DeclaresTypes name := by
  intro f hf h hh t ht
  rw [hmm.findFunction?_eq hm] at hf
  have hlisted : h ∈ m.listed := by
    refine mem_listed.2 (.inr ⟨f, mem_functions_of_findFunction? hf, ?_⟩)
    rw [FunctionDef.handles]
    exact List.mem_append_left _ hh
  rw [typeOf?, hmm.inst_eq (hm.stored hlisted)] at ht
  exact hmm.globals.subset (htypes f hf h hh t ht)

theorem DeclaresTypes.offers (htypes : m.DeclaresTypes k.name) {c : Callee}
    (hcallee : k.callee? m = .ok (some c)) : ∀ t ∈ c.uses, m.Provides FunctionDef.Heads t := by
  obtain ⟨f, hf⟩ := Kernel.exists_findFunction? hcallee
  obtain ⟨_, heq, hcalls⟩ := Kernel.calls_of_callee? hf hcallee
  obtain rfl := Option.some.inj heq
  have hresult : c.resultType ∈ m.globals := htypes f hf f.function (by simp) _ hcalls.resultType
  have hinputs : ∀ t ∈ c.inputTypes, t ∈ m.globals := by
    intro t ht
    have hsome : some t ∈ c.inputTypes.map some := List.mem_map_of_mem ht
    rw [← mapM_eq_some.1 hcalls.inputTypes] at hsome
    obtain ⟨p, hp, htype⟩ := List.mem_map.1 hsome
    exact htypes f hf p (List.mem_cons_of_mem _ (List.mem_of_mem_take hp)) t htype
  refine Callee.forall_mem_uses.2 ⟨⟨f, mem_functions_of_findFunction? hf, hcalls.function.symm⟩,
    hresult, hinputs, fun t ht => ?_⟩
  exact Callee.forall_mem_bufferTypes hresult hinputs t ht

theorem Orderly.addEntry (hm : m.Orderly base) (htypes : m.DeclaresTypes k.name) :
    (addEntry k m).2.Orderly base := by
  refine (orderly_rules base).addEntry hm (fun c hcallee t ht =>
    ⟨hm.sound.usable_of_uses hcallee t ht, htypes.offers hcallee t ht⟩) ?_
  intro c m₁ word void type entry cell b hcallee hm₁ hrun hb hentry hinterface
  have hclosed := (orderly_rules base).closes hb
  refine ⟨hm.sound.enter_emitted hcallee hm₁.sound hrun hb.1 hentry.1 fun h hh =>
    (hinterface h hh).1,
    ⟨hclosed.declared.ordered, hclosed.declared.interned, hclosed.declared.builtIns⟩,
    hclosed.base_le, fun f hf => ?_⟩
  have hscoped := hclosed.inScope f hf
  exact ⟨hscoped.outline, hscoped.body⟩

theorem Orderly.consolidate (hm : m.Orderly base) : m.consolidate.Orderly base :=
  ⟨hm.sound.consolidate.sound, hm.declared.consolidate, hm.base_le, fun f hf =>
    ⟨(hm.inScope f hf).outline, (hm.inScope f hf).body⟩⟩

end Module

theorem AddsEntries.orderly {base : Nat} {ks : List Kernel} {m m' : Module}
    (hadds : AddsEntries ks m m') (hm : m.Orderly base)
    (htypes : ∀ k ∈ ks, m.DeclaresTypes k.name) :
    m'.Orderly base := by
  induction hadds with
  | nil => exact hm
  | @cons k ks m m₁ m₂ outcome hrun _ ih =>
      rw [List.forall_mem_cons] at htypes
      have hwraps := hm.sound.wraps_addEntry hrun
      refine ih ?_ fun k' hk' => hwraps.continues.declaresTypes hm.sound (htypes.2 k' hk')
      exact hrun.state_eq ▸ hm.addEntry htypes.1

/-! ## What is read -/

namespace Inst

variable {ρ : Type}

theorem references_uniform (i : Inst ρ) : i.uniform.references = i.references := by
  unfold uniform
  split
  · rw [references, references]
    cases i.kind <;> rfl
  · rfl

theorem isDeclaration_uniform (i : Inst ρ) :
    i.uniform.kind.isDeclaration = i.kind.isDeclaration := by
  unfold uniform
  split
  · cases i.kind <;> rfl
  · rfl

theorem exists_uniform_typePointer {i : Inst ρ} {storage : StorageClass} {pointee : ρ}
    (hi : i.kind = .typePointer storage pointee) :
    ∃ storage', i.uniform.kind = .typePointer storage' pointee := by
  unfold uniform
  split
  · exact ⟨.uniform, by rw [hi]; rfl⟩
  · exact ⟨storage, hi⟩

theorem exists_uniform_typeForwardPointer {i : Inst ρ} {pointer : ρ} {storage : StorageClass}
    (hi : i.kind = .typeForwardPointer pointer storage) :
    ∃ storage', i.uniform.kind = .typeForwardPointer pointer storage' := by
  unfold uniform
  split
  · exact ⟨.uniform, by rw [hi]; rfl⟩
  · exact ⟨storage, hi⟩

end Inst

namespace Module

variable {base : Nat} {m m' : Module}

theorem Readied.typePointer (hmm : Readied m m') (hm : m.Sound) {r pointee : Handle}
    {storage : StorageClass} (hlisted : r ∈ m.listed)
    (hr : m.kindOf r = .typePointer storage pointee) :
    ∃ storage', m'.kindOf r = .typePointer storage' pointee := by
  obtain ⟨s, hs⟩ | ⟨f, hf, hmem⟩ := mem_listed.1 hlisted
  · have hsection := (hm.sections s r hs).1
    rw [hr] at hsection
    obtain rfl : s = .globals := hsection.symm
    rw [kindOf, hmm.insts r hs]
    exact Inst.exists_uniform_typePointer hr
  · rw [kindOf, hmm.bodies f hf r hmem]
    exact ⟨storage, hr⟩

theorem Readied.ordered (hmm : Readied m m') (hm : m.Sound)
    (hbound : m.header.bound ≤ maxIdBound) (hordered : m.Ordered) : m'.Ordered := by
  intro i h hget hdeclares r hr
  rw [hmm.globals] at hget ⊢
  have hh : h ∈ m.globals := List.mem_of_getElem? hget
  rw [kindOf, hmm.insts h hh, Inst.isDeclaration_uniform] at hdeclares
  rw [hmm.insts h hh, Inst.references_uniform] at hr
  obtain hmem | ⟨⟨storage, pointee, hpointer⟩, g, hg, storage', hforward⟩ :=
    hordered i h hget hdeclares r hr
  · exact .inl hmem
  · obtain ⟨storage, hpointer⟩ :=
      hmm.typePointer hm ((hm.references h r hr).listed hbound) hpointer
    obtain ⟨storage', hforward⟩ := Inst.exists_uniform_typeForwardPointer hforward
    refine .inr ⟨⟨storage, pointee, hpointer⟩, g, hg, storage', ?_⟩
    rw [kindOf, hmm.insts g (List.mem_of_mem_take hg)]
    exact hforward

structure Prepared (m : Module) (ks : List Kernel) : Prop where
  ordered : m.Ordered
  types : ∀ k ∈ ks, m.DeclaresTypes k.name
  builtIns : ∀ var words, .decorate var .builtIn words ∈ m.notes → (m.kindOf var).isVar →
    var ∈ m.globals

instance (m : Module) (ks : List Kernel) : Decidable (m.Prepared ks) :=
  decidable_of_iff (m.Ordered ∧ (∀ k ∈ ks, m.DeclaresTypes k.name) ∧ ∀ k ∈ m.notes,
      k.statesBuiltIn → ∀ var ∈ k.references, (m.kindOf var).isVar → var ∈ m.globals) <| by
    constructor
    · rintro ⟨hordered, htypes, hbuiltIns⟩
      refine ⟨hordered, htypes,
        fun var words hmem => hbuiltIns _ hmem (by simp [Kind.statesBuiltIn]) var ?_⟩
      simp [Kind.references, Kind.operands, List.filterMap_cons]
    · rintro ⟨hordered, htypes, hbuiltIns⟩
      refine ⟨hordered, htypes, fun k hk hstates var hvar => ?_⟩
      cases k
      case decorate target decoration words =>
        obtain rfl : var = target := by
          simpa [Kind.references, Kind.operands, List.filterMap_cons] using hvar
        obtain rfl : decoration = .builtIn := by simpa [Kind.statesBuiltIn] using hstates
        exact hbuiltIns var words hk
      all_goals cases hstates

theorem Readied.declaresTypes (hmm : Readied m m') {name : String}
    (htypes : m.DeclaresTypes name) : m'.DeclaresTypes name := by
  intro f hf h hh t ht
  rw [Option.mem_def, hmm.functions] at hf
  have hmem : h ∈ f.handles := by
    rw [FunctionDef.handles]
    exact List.mem_append_left _ hh
  rw [typeOf?, hmm.bodies f (mem_functions_of_findFunction? hf) h hmem] at ht
  rw [hmm.globals]
  exact htypes f hf h hh t ht

/-- There are no functions yet that a lowering made. -/
theorem Readied.orderly (hmm : Readied m m') {w : List Word} (hload : load w = .ok m)
    (hm' : m'.Sound) {ks : List Kernel}
    (hm : m.Prepared ks) : m'.Orderly m.functions.length where
  sound := hm'
  declared := {
    ordered := hmm.ordered (sound_of_load hload) (header_bound_le_of_load hload) hm.ordered
    interned d h hh := hmm.globals.symm ▸ hmm.interned (interned_of_load hload) d h hh
    builtIns var words hmem hvar := hmm.globals.symm ▸
      hm.builtIns var words ((hmm.notes _).1 hmem) (hmm.vars var hvar) }
  base_le := hmm.code.functions.symm ▸ le_rfl
  inScope f hf := by
    rw [hmm.code.functions, List.drop_length] at hf
    cases hf

/-! ## The global block and the metadata -/

theorem Orderly.decorateGlobalBlock {host : Host} {outcome : BlockOutcome} (hm : m.Orderly base)
    (hrun : Runs (decorateGlobalBlock host) m outcome m') : m'.Orderly base := by
  have hedited := hm.sound.decorateGlobalBlock hrun
  obtain ⟨-, rfl⟩ | ⟨var, block, members, notes, -, -, hnotes, hmm⟩ :=
    decorateGlobalBlock_annotates hrun
  · exact hm
  · exact hm.edit ⟨hedited, hm.declared.annotates hm.sound hmm fun target words hmem =>
      absurd hmem (hnotes.not_builtIn target words)⟩

theorem Orderly.declareMetadata (hm : m.Orderly base) : (declareMetadata m).2.Orderly base := by
  have harranged := (arranged_rules FunctionDef.Heads m).declareMetadata.state
    ⟨hm.sound.edited, hm.declared⟩
  exact hm.edit harranged

/-! ## Reading again -/

section

variable {h h' r r' : Handle} {f f' : FunctionDef} (hmm : Paired m m')

include hmm

theorem Paired.mem_of_map_wire {hs hs' : List Handle} (hlists : hs.map m.wire = hs'.map m'.wire)
    (hlisted : ∀ g ∈ hs', g ∈ m'.listed) (ht : Twins m m' r r') (hr : r ∈ hs) : r' ∈ hs' := by
  have hmem : m.wire r ∈ hs.map m.wire := List.mem_map_of_mem hr
  rw [hlists] at hmem
  obtain ⟨g, hg, heq⟩ := List.mem_map.1 hmem
  exact hmm.eq_of_wire_eq ht (hlisted g hg) heq ▸ hg

theorem Paired.mem_globals (ht : Twins m m' r r') (hr : r ∈ m.globals) : r' ∈ m'.globals :=
  hmm.mem_of_map_wire (hmm.agree.sections .globals (by decide))
    (fun _ hg => mem_listed.2 (.inl ⟨.globals, hg⟩)) ht hr

theorem Paired.heads (ht : Twins m m' r r') (hr : FunctionDef.Heads m.functions r) :
    FunctionDef.Heads m'.functions r' := by
  obtain ⟨f, hf, rfl⟩ := hr
  have hmem : f.handles.map m.wire ∈ m.wireFunctions := List.mem_map_of_mem hf
  rw [hmm.agree.functions] at hmem
  obtain ⟨f', hf', heq⟩ := List.mem_map.1 hmem
  have hhead : m'.wire f'.function = m.wire f.function := (List.cons.inj heq).1
  refine ⟨f', hf', hmm.eq_of_wire_eq ht (mem_listed.2 (.inr ⟨f', hf', ?_⟩)) hhead⟩
  exact List.mem_cons_self

theorem Paired.announced {before before' : List Handle}
    (hlists : before.map m.wire = before'.map m'.wire) (hlisted : ∀ g ∈ before', g ∈ m'.listed)
    (ht : Twins m m' r r') (hr : m.Announced before r) : m'.Announced before' r' := by
  obtain hr | ⟨⟨storage, pointee, hpointer⟩, g, hg, storage', hforward⟩ := hr
  · exact .inl (hmm.mem_of_map_wire hlists hlisted ht hr)
  · have hkind := ht.kind_eq
    rw [hpointer] at hkind
    obtain ⟨pointee', hpointer', -⟩ := Kind.map_eq_typePointer.1 hkind.symm
    have hmem : m.wire g ∈ before.map m.wire := List.mem_map_of_mem hg
    rw [hlists] at hmem
    obtain ⟨g', hg', heq⟩ := List.mem_map.1 hmem
    have hkind : (m'.kindOf g').map m'.idOf = (m.kindOf g).map m.idOf := congrArg Inst.kind heq
    rw [hforward] at hkind
    obtain ⟨pointer, hforward', hid⟩ := Kind.map_eq_typeForwardPointer.1 hkind
    have husable : m'.Usable pointer := hmm.sound'.usable_of_kindOf (h := g') (by
      simp [hforward', Kind.references, Kind.operands, List.filterMap_cons])
    obtain rfl : pointer = r' := (hmm.sound'.numbered hmm.bound_le').idOf_inj husable.isSome
      ht.usable'.isSome (hid.trans ht.idOf_eq)
    exact .inr ⟨⟨storage, pointee', hpointer'⟩, g', hg', storage', hforward'⟩

theorem Paired.ordered (hm : m.Ordered) : m'.Ordered := by
  have hlists : m.globals.map m.wire = m'.globals.map m'.wire :=
    hmm.agree.sections .globals (by decide)
  intro i h' hget' hdeclares r' hr'
  obtain ⟨h, hget, heq⟩ : ∃ h, m.globals[i]? = some h ∧ m.wire h = m'.wire h' := by
    have hsome := congrArg (·[i]?) hlists
    simp only [List.getElem?_map, hget', Option.map_some] at hsome
    exact Option.map_eq_some_iff.1 hsome
  have hkind : (m.kindOf h).map m.idOf = (m'.kindOf h').map m'.idOf := congrArg Inst.kind heq
  rw [← Kind.isDeclaration_map m'.idOf, ← hkind, Kind.isDeclaration_map] at hdeclares
  obtain ⟨r, hr, ht⟩ := hmm.exists_reference heq hr'
  refine hmm.announced ?_ (fun g hg => ?_) ht (hm i h hget hdeclares r hr)
  · rw [List.map_take, List.map_take, hlists]
  · exact mem_listed.2 (.inl ⟨.globals, List.mem_of_mem_take hg⟩)

theorem Paired.scoped (hf : f ∈ m.functions) (hf' : f' ∈ m'.functions)
    (heq : f.handles.map m.wire = f'.handles.map m'.wire)
    (hscoped : m.Scoped f) : m'.Scoped f' := by
  have hopcode {g g' : Handle} (hwire : m.wire g = m'.wire g') :
      (m.kindOf g).opcode = (m'.kindOf g').opcode := by
    have hop := congrArg Inst.opcode hwire
    rwa [wire, wire, Inst.opcode_map, Inst.opcode_map] at hop
  have hbody := (hmm.sound.functions f hf).body_eq
  have hbody' := (hmm.sound'.functions f' hf').body_eq
  have hlists : f.body.map m.wire = f'.body.map m'.wire := by
    have hfilter {m : Module} {f : FunctionDef}
        (hbody : f.body = f.handles.filter fun h => (m.kindOf h).opcode ∉
          FunctionDef.outlineOpcodes) : f.body.map m.wire =
          (f.handles.map m.wire).filter fun i => i.opcode ∉ FunctionDef.outlineOpcodes := by
      rw [hbody, List.filter_map]
      congr 1
      refine List.filter_congr fun h _ => ?_
      rw [Function.comp_apply, wire, Inst.opcode_map]
      rfl
    rw [hfilter hbody, hfilter hbody', heq]
  have hlisted : ∀ g ∈ f'.body, g ∈ m'.listed := fun g hg => by
    rw [hbody'] at hg
    exact mem_listed.2 (.inr ⟨f', hf', (List.mem_filter.1 hg).1⟩)
  constructor
  · intro h' hh'
    have hmem : m'.wire h' ∈ f'.handles.map m'.wire := List.mem_map_of_mem hh'
    rw [← heq] at hmem
    obtain ⟨h, hh, hwire⟩ := List.mem_map.1 hmem
    obtain hcode | hglobals := hscoped.outline h hh
    · rw [hbody, List.mem_filter, hopcode hwire] at hcode
      rw [hbody', List.mem_filter]
      exact .inl ⟨hh', hcode.2⟩
    · refine .inr fun r' hr' => ?_
      obtain ⟨r, hr, ht⟩ := hmm.exists_reference hwire hr'
      exact hmm.mem_globals ht (hglobals r hr)
  · intro i h' hget' r' hr'
    obtain ⟨h, hget, hwire⟩ : ∃ h, f.body[i]? = some h ∧ m.wire h = m'.wire h' := by
      have hsome := congrArg (·[i]?) hlists
      simp only [List.getElem?_map, hget', Option.map_some] at hsome
      exact Option.map_eq_some_iff.1 hsome
    obtain ⟨r, hr, ht⟩ := hmm.exists_reference hwire hr'
    refine (hscoped.body i h hget r hr).imp (hmm.mem_globals ht)
      (Or.imp (hmm.heads ht) fun hmem => ?_)
    refine hmm.mem_of_map_wire ?_ (fun g hg => hlisted g (List.mem_of_mem_take hg)) ht hmem
    rw [List.map_take, List.map_take, hlists]

theorem Paired.orderly (hm : m.Orderly base)
    (hinterned : ∀ d h, (d, h) ∈ m'.interned → h ∈ m'.globals) : m'.Orderly base := by
  have hlength : m.functions.length = m'.functions.length := by
    simpa [wireFunctions] using congrArg List.length hmm.agree.functions
  refine ⟨hmm.sound',
    ⟨hmm.ordered hm.declared.ordered, hinterned, fun var' words hmem hvar => ?_⟩,
    hlength ▸ hm.base_le, fun f' hf' => ?_⟩
  · obtain ⟨g', -, hkind⟩ := List.mem_map.1 hmem
    have husable : m'.Usable var' := hmm.sound'.usable_of_kindOf (h := g') (by
      simp [hkind, Kind.references, Kind.operands, List.filterMap_cons])
    obtain ⟨var, ht⟩ := hmm.symm.exists_twins husable
    have hnote : .decorate var .builtIn words ∈ m.notes := by
      refine hmm.symm.mem_notes hmem (congrArg (Kind.decorate · .builtIn words) ht.idOf_eq) ?_
      simpa [Kind.references, Kind.operands, List.filterMap_cons] using ht.usable'
    refine hmm.mem_globals ⟨ht.usable', ht.usable, ht.wire_eq.symm⟩
      (hm.declared.builtIns var words hnote ?_)
    rw [← Kind.isVar_map m.idOf, ← ht.kind_eq, Kind.isVar_map]
    exact hvar
  · have hdrop : (m.functions.drop base).map (fun f => f.handles.map m.wire) =
        (m'.functions.drop base).map fun f => f.handles.map m'.wire := by
      rw [List.map_drop, List.map_drop]
      exact congrArg (List.drop base) hmm.agree.functions
    have hmem := List.mem_map_of_mem (f := fun f : FunctionDef => f.handles.map m'.wire) hf'
    rw [← hdrop] at hmem
    obtain ⟨f, hf, heq⟩ := List.mem_map.1 hmem
    exact hmm.scoped (List.mem_of_mem_drop hf) (List.mem_of_mem_drop hf') heq (hm.inScope f hf)

end

end Module

/-! ## What is written -/

namespace Job

variable {job : Job} {m p n : Module} {out : List Word}

theorem Prepares.orderly (hp : job.Prepares m p) (hload : Module.load job.words = .ok m)
    (hm : m.Prepared job.kernels) : p.Orderly m.functions.length := by
  obtain ⟨outcome, m₂, m₃, m₄, hreadied, hsound₂, hdecorate, hadds, rfl⟩ :=
    hp.exists_readied (sound_of_load hload)
  have horderly := (hreadied.orderly hload hsound₂ hm).decorateGlobalBlock hdecorate
  have hedited := hsound₂.decorateGlobalBlock hdecorate
  refine (hadds.orderly horderly fun k hk => ?_).consolidate
  exact hedited.continues.declaresTypes hsound₂ (hreadied.declaresTypes (hm.types k hk))

/-- If declarations are in order where a lowering begins, then they are in order in what it
writes, and every function that it adds mentions only declarations, functions and what stands
in front in its code. -/
theorem declared_of_load_lower (hload : Module.load job.words = .ok m)
    (hm : m.Prepared job.kernels) (hlower : (job.lower .passThrough).1 = .ok out)
    (hout : Module.load out = .ok n) : n.Declared ∧ m.wireFunctions <+: n.wireFunctions ∧
      ∀ f ∈ n.functions.drop m.functions.length, n.Scoped f := by
  obtain ⟨_, p, m', q, hl⟩ := exists_lowers hlower
  obtain rfl := Except.ok.inj (hload.symm.trans hl.load)
  have hsound := sound_of_load hload
  obtain ⟨words, hencode, hreload⟩ := hl.reload
  have hp := hl.prepares.orderly hload hm
  have hpaired := (hp.sound.reloads hencode hreload).paired
  have hm' : m'.Orderly m.functions.length := hpaired.orderly hp (interned_of_load hreload)
  have hq : q.Orderly m.functions.length := hl.completes ▸ hm'.declareMetadata.consolidate
  have hpaired' := (hq.sound.reloads hl.encode hout).paired
  have hn : n.Orderly m.functions.length := hpaired'.orderly hq (interned_of_load hout)
  refine ⟨hn.declared, ?_, hn.inScope⟩
  obtain ⟨-, es, houtgrows, -⟩ := hl.prepares.exists_outgrows hsound
  have hprefix : m'.wireFunctions <+: q.wireFunctions :=
    hl.completes ▸ hm'.sound.outgrows_metadata.functions
  have hprepared : m.wireFunctions <+: p.wireFunctions :=
    hsound.recasts_prepared.wireFunctions_eq hsound ▸ houtgrows.functions
  rw [← hpaired'.agree.functions]
  exact hprepared.trans (hpaired.agree.functions ▸ hprefix)

/-- A kernel from word to word, with the position of its invocation in a variable and a pointer
that is announced before the struct that holds it. -/
def announcedKernel : Job where
  words :=
    [Stream.magic, 0x10000, 0, 11, 0, 0x30005, 6, 0x66, 0x40047, 4, 11, 28, 0x40015, 1, 32, 0,
    0x40017, 2, 1, 3, 0x40020, 3, 1, 2, 0x4003b, 3, 4, 1, 0x30027, 10, 2, 0x3001e, 9, 10,
    0x40020, 10, 2, 9, 0x40021, 5, 1, 1, 0x50036, 1, 6, 0, 5, 0x30037, 1, 7, 0x200f8, 8,
    0x200fe, 7, 0x10038]
  kernels := [⟨"f", (Signature.kernel.union .input).union .output, 1⟩]
  host := .bare
  validates := false

/-- One function is added. -/
theorem declared_of_load_lower_announcedKernel :
    ∃ m out n, Module.load announcedKernel.words = .ok m ∧
    m.Prepared announcedKernel.kernels ∧ (announcedKernel.lower .passThrough).1 = .ok out ∧
    Module.load out = .ok n ∧ n.functions.length = m.functions.length + 1 ∧ n.Declared ∧
    m.wireFunctions <+: n.wireFunctions ∧
    ∀ f ∈ n.functions.drop m.functions.length, n.Scoped f := by
  have hprepared : (Module.load announcedKernel.words).toOption.map
      (fun m => (decide (m.Prepared announcedKernel.kernels), m.functions.length)) =
      some (true, 1) := by
    decide +kernel
  have hout : (announcedKernel.lower .passThrough).1.toOption.map
      (fun out => (Module.load out).toOption.map fun n => n.functions.length) =
      some (some 2) := by
    decide +kernel
  cases hload : Module.load announcedKernel.words with
  | error e =>
      rw [hload] at hprepared
      cases hprepared
  | ok m =>
      rw [hload] at hprepared
      obtain ⟨hm, hfunctions⟩ := by
        simpa only [Except.toOption, Option.map_some, Option.some.injEq, Prod.mk.injEq,
          decide_eq_true_eq] using hprepared
      cases hlower : (announcedKernel.lower .passThrough).1 with
      | error e =>
          rw [hlower] at hout
          cases hout
      | ok out =>
          rw [hlower] at hout
          cases hn : Module.load out with
          | error e =>
              simp only [Except.toOption, Option.map_some, hn] at hout
              cases hout
          | ok n =>
              simp only [Except.toOption, Option.map_some, hn, Option.some.injEq] at hout
              exact ⟨m, out, n, rfl, hm, rfl, hn, by rw [hout, hfunctions],
                declared_of_load_lower hload hm hlower hn⟩

end Job

end KernelGrid
