import KernelGrid.Proofs.Kernel.Output
import KernelGrid.Proofs.Module.Contents

/-!
# What a lowering conserves

A lowering without transformations keeps what was read: each section is found again in the
output, with the requirements of compute programs added where they were missing, and what is
new stands behind it.
-/

namespace KernelGrid

open KernelGrid.Module

namespace Module

variable {m m' : Module} {h : Handle}

/-! ## Normalization -/

theorem Sound.recasts_normalizeStorage (hm : m.Sound) :
    Recasts (only .globals (List.map Inst.uniform)) m m.normalizeStorage.2 := by
  obtain ⟨hany, heq⟩ | ⟨insts, heq, hinst⟩ := m.normalizeStorage_cases
  · rw [heq]
    refine recasts_only_self ?_
    rw [contents, List.map_map]
    refine List.map_congr_left fun h hh => ?_
    have hstorage : (m.kindOf h).storage? ≠ some .function := by
      simpa [isInFunctionStorage] using List.any_eq_false.1 hany h hh
    exact if_neg hstorage
  · rw [heq]
    refine hm.recasts_only (fun g => ?_) (fun g hg => ?_) ?_
    · rw [hinst]
      split
      · exact (replaces_makeUniform _).resultId
      · rfl
    · rw [hinst, if_neg (show g ∉ m.globals from hg)]
    · rw [contents, List.map_map]
      refine List.map_congr_left fun g hg => ?_
      rw [hinst, if_pos (show g ∈ m.globals from hg)]
      rfl

theorem recasts_consolidate (m : Module) :
    Recasts (only .annotations List.eraseDups) m m.consolidate := by
  refine ⟨rfl, rfl, fun s => ?_, ⟨rfl, rfl⟩, fun _ _ _ _ => rfl, fun _ _ => id⟩
  by_cases hs : s = .annotations
  · subst hs
    rw [only, Function.update_self]
    exact annotations_consolidate m
  · rw [only, Function.update_of_ne hs]
    cases s <;> first | rfl | exact absurd rfl hs

/-! ## The preamble -/

theorem exists_contents_iff (s : Section) (p : Kind Handle → Prop) :
    (∃ i ∈ m.contents s, p i.kind) ↔ ∃ h ∈ s.handles m, p (m.kindOf h) := by
  simp only [contents, List.mem_map, exists_exists_and_eq_and]
  rfl

theorem Sound.recasts_addCapability (hm : m.Sound) {c : Capability} {u : Unit}
    (hrun : addCapability c m = (u, m')) :
    Recasts (only .capabilities (Inst.addMissing (.plain (.capability c)))) m m' := by
  obtain ⟨hthere, rfl⟩ | ⟨hmissing, h, m₁, hstored, rfl⟩ := addCapability_cases hrun
  · have hthere := (exists_contents_iff .capabilities (· = .capability c)).2 hthere
    exact recasts_only_self (if_pos hthere)
  · refine ((puts_append rfl hstored).recasts_add hm (by decide)).congr_only
      (if_neg fun hthere => ?_).symm
    obtain ⟨g, hg, hkind⟩ := (exists_contents_iff .capabilities (· = .capability c)).1 hthere
    exact hmissing g hg hkind

theorem Sound.recasts_addExtInstImport (hm : m.Sound) {name : String}
    (hrun : addExtInstImport name m = (h, m')) :
    Recasts (only .extInstImports
      (Inst.addMissing ⟨none, some m.header.bound, .extInstImport name⟩)) m m' := by
  obtain ⟨hmem, hkind, rfl⟩ | ⟨hmissing, m₁, hstored, rfl⟩ := addExtInstImport_cases hrun
  · have hthere :=
      (exists_contents_iff .extInstImports (· = .extInstImport name)).2 ⟨h, hmem, hkind⟩
    exact recasts_only_self (if_pos hthere)
  · refine ((puts_define hstored).recasts_add hm (by decide)).congr_only
      (if_neg fun hthere => ?_).symm
    obtain ⟨g, hg, hkind⟩ :=
      (exists_contents_iff .extInstImports (· = .extInstImport name)).1 hthere
    exact hmissing g hg hkind

/-- Where an instruction without a result gets another kind, its section has been recast. -/
theorem Sound.recasts_setKind (hm : m.Sound) {s : Section} {kind : Kind Handle}
    {rule : List (Inst Handle) → List (Inst Handle)} (hh : h ∈ s.handles m)
    (hplain : kind.opcode.layout = .plain) (hop : (m.kindOf h).opcode = kind.opcode)
    (hrule : (s.handles m).map (fun g => if g = h then .plain kind else m.inst g) =
      rule (m.contents s)) : Recasts (only s rule) m (Module.setKind h kind m).2 := by
  have hlisted : h ∈ m.listed := mem_listed.2 (.inl ⟨s, hh⟩)
  have hplaced : ({ m.inst h with kind } : Inst Handle) = .plain kind := by
    have hlayout := (hm.writable h hlisted).layout
    have hopcode : (m.inst h).opcode = kind.opcode := hop
    rw [Inst.HasLayout, hopcode, hplain] at hlayout
    rw [Inst.plain, ← hlayout.1, ← hlayout.2]
  have hinst (g : Handle) : ({ m with insts := m.insts.modify h fun i => { i with kind } } :
      Module).inst g = if g = h then .plain kind else m.inst g := by
    rw [inst_modify]
    by_cases hg : g = h
    · subst hg
      rw [if_pos ⟨rfl, hm.stored hlisted⟩, if_pos rfl, hplaced]
    · rw [if_neg fun hand => hg hand.1.symm, if_neg hg]
  change Recasts (only s rule) m
    { m with insts := m.insts.modify h fun i => { i with kind }, interned := m.interned }
  refine hm.recasts_only (fun g => ?_) (fun g hg => ?_) ?_
  · rw [hinst]
    split
    · rename_i heq
      rw [heq, ← hplaced]
    · rfl
  · have hne : g ≠ h := fun heq => hg (heq ▸ hh)
    rw [hinst, if_neg hne]
  · exact (List.map_congr_left fun g _ => hinst g).trans hrule

theorem Sound.recasts_setMemoryModel (hm : m.Sound) {addressing : AddressingModel}
    {memory : MemoryModel} {u : Unit} (hrun : setMemoryModel addressing memory m = (u, m')) :
    Recasts (only .memoryModel fun _ => [.plain (.memoryModel addressing memory)]) m m' := by
  obtain ⟨h, hmodel, rfl⟩ | ⟨hnone, h, m₁, hstored, rfl⟩ := setMemoryModel_cases hrun
  · have hhandles : Section.memoryModel.handles m = [h] := by simp [Section.handles, hmodel]
    have hh : h ∈ Section.memoryModel.handles m := by simp [hhandles]
    refine hm.recasts_setKind hh (Form.layout_opcode .memoryModel)
      (Section.eq_of_memoryModel (hm.sections .memoryModel h hh).1) ?_
    rw [hhandles, List.map_singleton, if_pos rfl]
  · have hp := puts_append rfl hstored
    refine hp.recasts_only hm ⟨rfl, rfl, rfl, rfl⟩ (fun t ht => ?_) ?_
    · rw [Section.handles_add, if_neg ht.symm]
    · rw [Section.handles_add, if_pos rfl, if_pos rfl, List.map_singleton, hp.inst_self]

theorem map_eq_set_findIdx {α β : Type} [DecidableEq α] {f : α → β} {p : β → Bool} {xs : List α}
    {a : α} {b : β} (hxs : xs.Nodup) (hfind : xs.find? (p ∘ f) = some a) :
    xs.map (fun x => if x = a then b else f x) = (xs.map f).set ((xs.map f).findIdx p) b := by
  induction xs with
  | nil => cases hfind
  | cons x xs ih =>
      obtain ⟨hx, hxs⟩ := List.nodup_cons.1 hxs
      rw [List.find?_cons] at hfind
      cases hp : p (f x) with
      | true =>
          simp only [Function.comp_apply, hp, Option.some.injEq] at hfind
          subst hfind
          have hrest : xs.map (fun y => if y = x then b else f y) = xs.map f :=
            List.map_congr_left fun y hy => if_neg (ne_of_mem_of_not_mem hy hx)
          rw [List.map_cons, List.map_cons, if_pos rfl, hrest, List.findIdx_cons, hp]
          rfl
      | false =>
          simp only [Function.comp_apply, hp] at hfind
          have hne : x ≠ a := fun heq => hx (heq ▸ List.mem_of_find?_eq_some hfind)
          rw [List.map_cons, List.map_cons, if_neg hne, ih hxs hfind, List.findIdx_cons, hp]
          rfl

theorem Puts.recasts_insertSource {m₁ : Module} {i : Inst Handle} (hp : m.Puts i h m₁)
    (hm : m.Sound) : Recasts (only .debug (Inst.insertUnnamed i)) m (insertSource h m₁).2 := by
  refine hp.recasts_only hm ⟨rfl, rfl, rfl, rfl⟩ (fun t ht => ?_) ?_
  · cases t <;> first | rfl | exact absurd rfl ht
  · have hcontents : m.contents .debug = m₁.debug.map m₁.inst := by
      have hhandles : m₁.debug = m.debug := hp.handles_eq .debug
      rw [hhandles]
      exact (List.map_congr_left fun g hg =>
        hp.inst_eq_of_listed hm (mem_listed.2 (.inl ⟨.debug, hg⟩))).symm
    rw [hcontents, Inst.insertUnnamed, List.takeWhile_map, List.dropWhile_map]
    change ((m₁.debug.takeWhile _) ++ h :: m₁.debug.dropWhile _).map m₁.inst = _
    rw [List.map_append, List.map_cons, hp.inst_self]
    rfl

theorem Sound.recasts_setSource (hm : m.Sound) {language version : Word} {u : Unit}
    (hrun : setSource language version m = (u, m')) :
    Recasts (only .debug (Inst.replaceSource (.plain (.raw Opcode.source [language, version]))))
      m m' := by
  obtain ⟨h, hfind, rfl⟩ | ⟨hnone, h, m₁, hstored, rfl⟩ := setSource_cases hrun
  · obtain ⟨hh, hsource⟩ := findKind?_eq_some hfind
    refine hm.recasts_setKind (s := .debug) hh layout_source (Kind.opcode_of_isSource hsource) ?_
    rw [Inst.replaceSource,
      if_pos ((exists_contents_iff .debug fun k => k.isSource).2 ⟨h, hh, hsource⟩)]
    exact map_eq_set_findIdx (hm.nodup_handles .debug) hfind
  · refine ((puts_append rfl hstored).recasts_insertSource hm).congr_only
      (if_neg fun hthere => ?_).symm
    obtain ⟨g, hg, hsource⟩ := (exists_contents_iff .debug fun k => k.isSource).1 hthere
    have hother := findKind?_isNone.1 (Option.isNone_iff_eq_none.2 hnone) g hg
    rw [hsource] at hother
    cases hother

theorem Sound.recasts_addSourceExtension (hm : m.Sound) {name : String} {u : Unit}
    (hrun : addSourceExtension name m = (u, m')) :
    Recasts (only .debug (Inst.insertMissing (.plain (.sourceExtension name)))) m m' := by
  obtain ⟨hthere, rfl⟩ | ⟨hmissing, h, m₁, hstored, rfl⟩ := addSourceExtension_cases hrun
  · exact recasts_only_self
      (if_pos ((exists_contents_iff .debug (· = .sourceExtension name)).2 hthere))
  · refine ((puts_append rfl hstored).recasts_insertSource hm).congr_only
      (if_neg fun hthere => ?_).symm
    obtain ⟨g, hg, hkind⟩ := (exists_contents_iff .debug (· = .sourceExtension name)).1 hthere
    exact hmissing g hg hkind

theorem Sound.recasts_addSourceExtensions {names : List String}
    (hnames : ∀ name ∈ names, '\x00' ∉ name.toList) (hm : m.Sound) {u : Unit}
    (hrun : names.forM addSourceExtension m = (u, m')) :
    Recasts (only .debug fun is => names.foldl
      (fun is name => Inst.insertMissing (.plain (.sourceExtension name)) is) is) m m' := by
  induction names generalizing m with
  | nil =>
      obtain ⟨-, rfl⟩ := edit_pure.1 hrun
      exact recasts_only_self rfl
  | cons name names ih =>
      rw [List.forall_mem_cons] at hnames
      change (addSourceExtension name >>= fun _ => names.forM addSourceExtension) m = _ at hrun
      obtain ⟨u', m₁, hadd, hrun⟩ := edit_bind.1 hrun
      have hsound : m₁.Sound := by
        have hkept : (addSourceExtension name m).2.Sound :=
          (keeps_addSourceExtension hnames.1).state hm
        rwa [hadd] at hkept
      exact ((hm.recasts_addSourceExtension hadd).trans (ih hnames.2 hsound hrun)).only_comp

end Module

/-- What a section holds when entry points are about to be made, in place of what was read:
globals have been moved out of function storage, repeated decorations have been dropped, and
what a compute program requires has been added where it was missing, with a new id for an
import. -/
def Section.prepared {ρ : Type} [DecidableEq ρ] (new : ResultId) :
    Section → List (Inst ρ) → List (Inst ρ)
  | capabilities => Inst.addMissing (.plain (.capability .shader))
  | extInstImports => Inst.addMissing ⟨none, some new, .extInstImport extInstSet⟩
  | memoryModel => fun _ => [.plain (.memoryModel .physical32 .glsl450)]
  | debug => fun is =>
    sourceExtensions.foldl
      (fun is name => Inst.insertMissing (.plain (.sourceExtension name)) is)
      (Inst.replaceSource (.plain (.raw Opcode.source [sourceLanguage, sourceVersion])) is)
  | annotations => List.eraseDups
  | globals => List.map Inst.uniform
  | extensions | executionModes => id

theorem Section.map_prepared {ρ σ : Type} [Nonempty ρ] [DecidableEq ρ] [DecidableEq σ]
    {f : ρ → σ} {refs : Set ρ} (hf : refs.InjOn f) (new : ResultId) (s : Section)
    {is : List (Inst ρ)} (his : ∀ i ∈ is, ∀ r ∈ i.references, r ∈ refs) :
    (s.prepared new is).map (Inst.map f) = s.prepared new (is.map (Inst.map f)) := by
  cases s
  case capabilities => exact Inst.map_addMissing rfl
  case extInstImports => exact Inst.map_addMissing rfl
  case debug =>
    have hmissing (names : List String) (is : List (Inst ρ)) :
        (names.foldl (fun is name => Inst.insertMissing (.plain (.sourceExtension name)) is)
          is).map (Inst.map f) =
        names.foldl (fun is name => Inst.insertMissing (.plain (.sourceExtension name)) is)
          (is.map (Inst.map f)) := by
      induction names generalizing is with
      | nil => rfl
      | cons name names ih =>
          rw [List.foldl_cons, List.foldl_cons, ih, Inst.map_insertMissing rfl]
          rfl
    rw [prepared, prepared, hmissing, Inst.map_replaceSource]
    rfl
  case annotations => exact Inst.map_eraseDups hf is his
  case globals =>
    simp only [prepared, List.map_map]
    exact List.map_congr_left fun i _ => Inst.map_uniform i
  all_goals rfl

namespace Module

variable {m m' : Module} {h : Handle}

theorem header_normalize (m : Module) : m.normalize.2.header = m.header := by
  rw [normalize_eq]
  obtain ⟨-, heq⟩ | ⟨insts, heq, -⟩ := m.normalizeStorage_cases
  all_goals
    rw [heq]
    rfl

theorem Puts.header_eq {i : Inst Handle} (hp : m.Puts i h m') (hid : i.resultId = none) :
    m'.header = m.header := by
  obtain ⟨bound, ids, rfl⟩ := hp.frame
  obtain ⟨-, hbound⟩ | ⟨hsome, -⟩ := hp.bound
  · exact congrArg (fun bound => { m.header with bound }) hbound
  · rw [hid] at hsome
    cases hsome

theorem header_addCapability {c : Capability} {u : Unit} (hrun : addCapability c m = (u, m')) :
    m'.header = m.header := by
  obtain ⟨-, rfl⟩ | ⟨-, h, m₁, hstored, rfl⟩ := addCapability_cases hrun
  · rfl
  · exact (puts_append rfl hstored).header_eq rfl

theorem header_setMemoryModel {addressing : AddressingModel} {memory : MemoryModel} {u : Unit}
    (hrun : setMemoryModel addressing memory m = (u, m')) : m'.header = m.header := by
  obtain ⟨h, -, rfl⟩ | ⟨-, h, m₁, hstored, rfl⟩ := setMemoryModel_cases hrun
  · rfl
  · exact (puts_append rfl hstored).header_eq rfl

/-- Each section has been prepared, and nothing else has changed. -/
theorem Sound.recasts_prepared (hm : m.Sound) :
    Recasts (Section.prepared m.header.bound) m (Module.addComputePreamble m.normalize.2).2 := by
  have hnormalize : Recasts (fun s => only .annotations List.eraseDups s ∘
      only .globals (List.map Inst.uniform) s) m m.normalize.2 := by
    rw [normalize_eq]
    exact hm.recasts_normalizeStorage.trans (recasts_consolidate _)
  have hsound := hm.normalize.sound
  have hheader := header_normalize m
  revert hnormalize hsound hheader
  generalize m.normalize.2 = m₀
  intro hnormalize hm₀ hheader
  rcases hrun : Module.addComputePreamble m₀ with ⟨u, m'⟩
  obtain ⟨_, m₁, hcapability, hrun⟩ := edit_bind.1 hrun
  have hm₁ : m₁.Sound := by
    have hkept : (addCapability .shader m₀).2.Sound := (keeps_addCapability .shader).state hm₀
    rwa [hcapability] at hkept
  obtain ⟨_, m₂, hmodel, hrun⟩ := edit_bind.1 hrun
  have hm₂ : m₂.Sound := by
    have hkept : (setMemoryModel .physical32 .glsl450 m₁).2.Sound :=
      (keeps_setMemoryModel .physical32 .glsl450).state hm₁
    rwa [hmodel] at hkept
  obtain ⟨_, m₃, himport, hrun⟩ := edit_bind.1 hrun
  have hm₃ : m₃.Sound := by
    have hkept : (addExtInstImport extInstSet m₂).2.Sound :=
      (keeps_addExtInstImport (by decide)).state hm₂
    rwa [himport] at hkept
  obtain ⟨_, m₄, hsource, hrun⟩ := edit_bind.1 hrun
  have hm₄ : m₄.Sound := by
    have hkept : (setSource sourceLanguage sourceVersion m₃).2.Sound :=
      (keeps_setSource sourceLanguage sourceVersion).state hm₃
    rwa [hsource] at hkept
  have hnames : ∀ name ∈ sourceExtensions, '\x00' ∉ name.toList := by decide
  have hrecasts := ((((hnormalize.trans (hm₀.recasts_addCapability hcapability)).trans
    (hm₁.recasts_setMemoryModel hmodel)).trans (hm₂.recasts_addExtInstImport himport)).trans
    (hm₃.recasts_setSource hsource)).trans (hm₄.recasts_addSourceExtensions hnames hrun)
  have hbound : m₂.header = m.header :=
    (header_setMemoryModel hmodel).trans ((header_addCapability hcapability).trans hheader)
  rw [hbound] at hrecasts
  exact hrecasts.congr fun s => by cases s <;> rfl

end Module

/-! ## Names of functions -/

namespace Inst

def named? {ρ : Type} (name : String) (i : Inst ρ) : Option ρ :=
  match i.kind with
  | .debugName target text => if text = name then some target else none
  | _ => none

variable {ρ : Type} {name : String} {i : Inst ρ} {is : List (Inst ρ)}

theorem filterMap_insertUnnamed (hi : i.named? name = none) :
    (insertUnnamed i is).filterMap (named? name) = is.filterMap (named? name) := by
  rw [insertUnnamed, List.filterMap_append, List.filterMap_cons_none hi, ← List.filterMap_append,
    List.takeWhile_append_dropWhile]

theorem filterMap_insertMissing [DecidableEq ρ] (hi : i.named? name = none) :
    (insertMissing i is).filterMap (named? name) = is.filterMap (named? name) := by
  unfold insertMissing
  split
  · rfl
  · exact filterMap_insertUnnamed hi

theorem named?_of_isSource (hi : i.kind.isSource) : i.named? name = none := by
  unfold named?
  split
  · rename_i heq
    rw [heq] at hi
    cases hi
  · rfl

theorem filterMap_replaceSource (hi : i.kind.isSource) :
    (replaceSource i is).filterMap (named? name) = is.filterMap (named? name) := by
  unfold replaceSource
  split
  · clear * - hi
    induction is with
    | nil => rfl
    | cons j is ih =>
        rw [List.findIdx_cons]
        cases hj : j.kind.isSource with
        | true =>
            exact (List.filterMap_cons_none (named?_of_isSource hi)).trans
              (List.filterMap_cons_none (named?_of_isSource hj)).symm
        | false =>
            rw [cond_false, List.set_cons_succ, List.filterMap_cons, ih, List.filterMap_cons]
  · exact filterMap_insertUnnamed (named?_of_isSource hi)

end Inst

theorem Section.filterMap_prepared {ρ : Type} [DecidableEq ρ] (new : ResultId) (name : String)
    (is : List (Inst ρ)) : (debug.prepared new is).filterMap (Inst.named? name) =
      is.filterMap (Inst.named? name) := by
  have hmissing (names : List String) (is : List (Inst ρ)) :
      (names.foldl (fun is name => Inst.insertMissing (.plain (.sourceExtension name)) is)
        is).filterMap (Inst.named? name) = is.filterMap (Inst.named? name) := by
    induction names generalizing is with
    | nil => rfl
    | cons name' names ih => rw [List.foldl_cons, ih, Inst.filterMap_insertMissing rfl]
  rw [prepared, hmissing, Inst.filterMap_replaceSource rfl]

namespace Module

variable {m m' : Module} {k : Kernel} {outcome : EntryOutcome}

theorem named_eq (m : Module) (name : String) :
    m.named name = (m.contents .debug).filterMap (Inst.named? name) := by
  rw [contents, List.filterMap_map]
  refine List.filterMap_congr fun h _ => ?_
  rw [Function.comp_apply, Inst.named?, kindOf]
  cases (m.inst h).kind <;> rfl

/-- The same functions carry a name after a module has been prepared. -/
theorem Sound.findFunction?_prepared (hm : m.Sound) (name : String) :
    (Module.addComputePreamble m.normalize.2).2.findFunction? name = m.findFunction? name := by
  have hprepared := hm.recasts_prepared
  have hdef : (Module.addComputePreamble m.normalize.2).2.functionDef? = m.functionDef? := by
    funext target
    rw [functionDef?, functionDef?, hprepared.code.functions]
  rw [findFunction?, findFunction?, named_eq, hprepared.contents, Section.filterMap_prepared,
    ← named_eq, hdef]

theorem Continues.findFunction?_eq (hmm : m.Continues m') (hm : m.Sound) (name : String) :
    m'.findFunction? name = m.findFunction? name :=
  hmm.findFunction?_eq_of_stored (fun _ hh => hm.stored (mem_listed.2 (.inl ⟨.debug, hh⟩)))
    fun _ hh => (hm.usable_of_named hh).stored

/-! ## Entry points -/

end Module

/-- Whether a kernel is passed over: only the root kernel is, where it is missing. -/
def Kernel.Skipped (k : Kernel) (m : Module) : Prop :=
  k.name = rootKernel ∧ m.findFunction? k.name = none

instance (k : Kernel) (m : Module) : Decidable (k.Skipped m) :=
  inferInstanceAs (Decidable (_ ∧ _))

theorem Kernel.skipped_of_callee? {k : Kernel} {m : Module} (hr : k.callee? m = .ok none) :
    k.Skipped m := by
  cases hf : m.findFunction? k.name with
  | some f =>
      obtain ⟨c, hc, -⟩ := calls_of_callee? hf hr
      cases hc
  | none =>
      unfold callee? at hr
      simp only [hf] at hr
      split at hr
      · exact ⟨‹_›, hf⟩
      · cases hr

namespace Module

variable {m m' : Module} {k : Kernel} {ks : List Kernel} {outcome : EntryOutcome}

theorem Continues.skipped_iff (hmm : m.Continues m') (hm : m.Sound) (k : Kernel) :
    k.Skipped m' ↔ k.Skipped m := by
  rw [Kernel.Skipped, Kernel.Skipped, hmm.findFunction?_eq hm]

structure Wraps (ks : List Kernel) (m m' : Module) : Prop where
  continues : m.Continues m'
  entries : ∃ es, m'.entryPoints = m.entryPoints ++ es ∧
    (∀ e ∈ es, m.insts.get? e.function = none) ∧
    es.map (fun e => (e.model, e.name, e.localSize)) =
      ks.map fun k => (.compute, entryName k.name, some ⟨1, 1, 1⟩)

theorem Wraps.refl (m : Module) : Wraps [] m m :=
  ⟨.refl m, [], (List.append_nil _).symm, by simp, rfl⟩

theorem Wraps.trans {m'' : Module} {ks' : List Kernel} (h₁ : Wraps ks m m')
    (h₂ : Wraps ks' m' m'') : Wraps (ks ++ ks') m m'' := by
  obtain ⟨es, hentries, hfresh, hes⟩ := h₁.entries
  obtain ⟨es', hentries', hfresh', hes'⟩ := h₂.entries
  refine ⟨h₁.continues.trans h₂.continues, es ++ es', ?_, ?_, ?_⟩
  · rw [hentries', hentries, List.append_assoc]
  · refine List.forall_mem_append.2 ⟨hfresh, fun e he => ?_⟩
    cases hget : m.insts.get? e.function with
    | none => rfl
    | some i =>
        have hstored := h₁.continues.insts _ i hget
        rw [hfresh' e he] at hstored
        cases hstored
  · rw [List.map_append, List.map_append, hes, hes']

theorem addEntry_cases (hrun : Runs (Module.addEntry k) m outcome m') :
    k.Skipped m ∧ m' = m ∨ ∃ f, m.findFunction? k.name = some f := by
  obtain ⟨_, _, hget, hrun⟩ := runs_bind.1 hrun
  obtain ⟨rfl, rfl⟩ := runs_get.1 hget
  obtain ⟨r, _, hcallee, hrun⟩ := runs_bind.1 hrun
  obtain ⟨hr, rfl⟩ := runs_ofExcept.1 hcallee
  cases r with
  | none => exact .inl ⟨Kernel.skipped_of_callee? hr, (runs_pure.1 hrun).2.symm⟩
  | some c => exact .inr (Kernel.exists_findFunction? hr)

theorem Sound.wraps_addEntry (hm : m.Sound) (hrun : Runs (Module.addEntry k) m outcome m') :
    Wraps (if k.Skipped m then [] else [k]) m m' := by
  obtain ⟨hskipped, rfl⟩ | ⟨f, hf⟩ := addEntry_cases hrun
  · rw [if_pos hskipped]
    exact .refl m'
  · have hskipped : ¬k.Skipped m := fun hskipped => by
      rw [hskipped.2] at hf
      cases hf
    rw [if_neg hskipped]
    obtain ⟨notes, entry, word, void, type, c, e, -, -, hentries, -, -, -, hadded, -⟩ :=
      addEntry_adds hm.interns hf hrun
    obtain ⟨label, hfunctions⟩ := hadded.functions
    have hfresh := hadded.isFunction.1
    refine ⟨hadded.adds.toExtends.continues ⟨_, hfunctions, ?_⟩ ⟨_, hentries.symm⟩, _, hentries,
      ?_, rfl⟩
    · exact List.forall_mem_singleton.2 hfresh
    · exact List.forall_mem_singleton.2 hfresh

end Module

theorem AddsEntries.wraps {ks : List Kernel} {m m' : Module} (hadds : AddsEntries ks m m')
    (hm : m.Sound) : Wraps (ks.filter fun k => ¬k.Skipped m) m m' := by
  induction hadds with
  | nil m => exact .refl m
  | @cons k ks m m₁ m₂ outcome hrun _ ih =>
      have hwraps := hm.wraps_addEntry hrun
      have hm₁ := hm.of_runs_addEntry hrun
      have htrans := hwraps.trans (ih hm₁)
      simp only [hwraps.continues.skipped_iff hm] at htrans
      rw [List.filter_cons]
      by_cases hk : k.Skipped m
      · simpa [hk] using htrans
      · simpa [hk] using htrans

/-! ## Settled stages -/

namespace Module

variable {m m' : Module}

theorem Recasts.settled {rule : Section → List (Inst Handle) → List (Inst Handle)}
    (hmm : Recasts rule m m') (hrule : rule .executionModes = id)
    (hm : m.Settled) : m'.Settled := by
  intro h hh function x y z hkind e he
  have hmodes : m'.contents .executionModes = m.contents .executionModes := by
    rw [hmm.contents, hrule]
    rfl
  have hmem : m'.inst h ∈ m'.contents .executionModes := List.mem_map_of_mem hh
  rw [hmodes] at hmem
  obtain ⟨g, hg, heq⟩ := List.mem_map.1 hmem
  rw [hmm.code.entryPoints] at he
  exact hm g hg function x y z ((congrArg Inst.kind heq).trans hkind) e he

theorem Wraps.settled {ks : List Kernel} (hmm : Wraps ks m m') (hm : m.Sound)
    (hsettled : m.Settled) : m'.Settled := by
  intro h hh function x y z hkind e he heq
  rw [show m'.executionModes = m.executionModes from
    hmm.continues.sections .executionModes (by decide) (by decide)] at hh
  rw [hmm.continues.kindOf_eq (hm.stored (mem_listed.2 (.inl ⟨.executionModes, hh⟩)))] at hkind
  obtain ⟨es, hentries, hfresh, -⟩ := hmm.entries
  rw [hentries, List.mem_append] at he
  obtain he | he := he
  · exact hsettled h hh function x y z hkind e he heq
  · -- a mode refers to functions that were there, and a new entry point has a new function
    have hstored := (hm.usable_of_kindOf (h := h) (r := function)
      (by simp [hkind, Kind.references, Kind.operands])).stored
    rw [← heq, hfresh e he] at hstored
    cases hstored

/-- What was written of a sound module says the same when it is loaded. -/
theorem Sound.agrees_of_load (hm : m.Sound) (hsettled : m.Settled) {w : List Word}
    (hencode : m.encode = .ok w) (hload : load w = .ok m') : m'.Agrees m := by
  have hbound := bound_le_of_load hload _ (bound_of_encode hencode)
  obtain ⟨d, hdecode, -, rfl⟩ := load_eq_ok.1 hload
  obtain ⟨d', hdecode', hagrees⟩ := (hm.regular hbound hsettled).exists_agrees hencode
  obtain rfl := Except.ok.inj (hdecode.symm.trans hdecode')
  have hreintern : d.reintern.Agrees d := ⟨rfl, fun s => by cases s <;> rfl, rfl, rfl⟩
  exact hreintern.trans hagrees

theorem header_bound_le_of_load {w : List Word} (hload : load w = .ok m) :
    m.header.bound ≤ maxIdBound := by
  obtain ⟨d, hdecode, -, rfl⟩ := load_eq_ok.1 hload
  obtain ⟨_, _, _, _, _, -, -, _, _, _, -, hD⟩ := exists_decoded hdecode
  exact hD.bound_le

theorem idOf_injOn_of_load {w : List Word} (hload : load w = .ok m) :
    Set.InjOn m.idOf {r | m.Usable r} := fun _ hh _ hg heq =>
  ((sound_of_load hload).numbered (header_bound_le_of_load hload)).idOf_inj hh.isSome
    hg.isSome heq

theorem Recasts.wires_prepared {new : ResultId} (hmm : Recasts (Section.prepared new) m m')
    (hm : m.Sound) (hids : Set.InjOn m.idOf {r | m.Usable r}) (s : Section) :
    m'.wires s = s.prepared new (m.wires s) := by
  have hinj : Set.InjOn m'.idOf {r | m.Usable r} :=
    hids.congr fun r hr => (hmm.keepsIds.idOf_eq (Usable.isSome hr)).symm
  have : Nonempty Handle := ⟨⟨0⟩⟩
  refine hmm.wires_eq hm (Section.map_prepared hinj new s fun i hi r hr => ?_)
  obtain ⟨h, -, rfl⟩ := List.mem_map.1 hi
  exact hm.references h r hr

theorem Sound.outgrows_metadata (hm : m.Sound) :
    Outgrows [] m (Module.declareMetadata m).2.consolidate := by
  have hedited := hm.declareMetadata
  have hsame : (Module.declareMetadata m).2.entryPoints = m.entryPoints ++ [] := by
    rw [hedited.code.entryPoints, List.append_nil]
  exact (hedited.continues.outgrows hm hsame).trans (outgrows_consolidate _)

end Module

/-! ## Whole lowerings -/

/-- What a lowering makes of the module it reads: each section as it is prepared, with more
annotations and globals behind it, the functions with more functions behind them, and the entry
points with one for each kernel behind them. -/
structure Job.Conserves (job : Job) (m n : Module) : Prop where
  version : n.header.version = m.header.version
  generator : n.header.generator = m.header.generator
  sections : ∀ s : Section, s ≠ .annotations → s ≠ .globals →
    n.wires s = s.prepared m.header.bound (m.wires s)
  annotations : (m.wires .annotations).eraseDups <+: n.wires .annotations
  globals : (m.wires .globals).map Inst.uniform <+: n.wires .globals
  entryPoints : ∃ es, n.wireEntries = m.wireEntries ++ es ∧
    es.map (fun e => (e.model, e.name, e.localSize)) =
      (job.kernels.filter fun k => ¬k.Skipped m).map fun k =>
        (.compute, entryName k.name, some ⟨1, 1, 1⟩)
  functions : m.wireFunctions <+: n.wireFunctions

namespace Job

variable {job : Job} {m n p q : Module} {out : List Word}

/-- From the preamble on there is only more, up to the module that is handed over first. -/
theorem Prepares.exists_outgrows (hp : job.Prepares m p) (hm : m.Sound) :
    (m.Settled → p.Settled) ∧ ∃ es, Outgrows es (addComputePreamble m.normalize.2).2 p ∧
      es.map (fun e => (e.model, e.name, e.localSize)) =
        (job.kernels.filter fun k => ¬k.Skipped m).map fun k =>
          (.compute, entryName k.name, some ⟨1, 1, 1⟩) := by
  obtain ⟨outcome, m₂, m₃, hdecorate, hadds, rfl⟩ := hp.stages
  have hm₁ := hm.normalize.sound.addComputePreamble
  have hedited := hm₁.decorateGlobalBlock hdecorate
  have hwraps := hadds.wraps hedited.sound
  have hskipped (k : Kernel) : k.Skipped m₂ ↔ k.Skipped m := by
    rw [Kernel.Skipped, Kernel.Skipped, hedited.continues.findFunction?_eq hm₁,
      hm.findFunction?_prepared]
  simp only [hskipped] at hwraps
  refine ⟨fun hsettled => ?_, ?_⟩
  · exact hwraps.settled hedited.sound
      (hedited.settled hm₁ (hm.recasts_prepared.settled rfl hsettled))
  · obtain ⟨es, hentries, -, hes⟩ := hwraps.entries
    have hsame : m₂.entryPoints = (addComputePreamble m.normalize.2).2.entryPoints ++ [] := by
      rw [hedited.code.entryPoints, List.append_nil]
    have houtgrows := ((hedited.continues.outgrows hm₁ hsame).trans
      (hwraps.continues.outgrows hedited.sound hentries)).trans (outgrows_consolidate m₃)
    rw [List.map_nil, List.nil_append, List.append_nil] at houtgrows
    refine ⟨_, houtgrows, ?_⟩
    rw [← hes, List.map_map]
    rfl

theorem Lowers.outgrows {m' : Module} (hl : job.Lowers m p m' n out) (hp : p.Sound)
    (hsettled : p.Settled) : Outgrows [] p n := by
  obtain ⟨words, hencode, hreload⟩ := hl.reload
  have hm' := (hp.load_encode hencode hreload).1
  rw [hl.completes]
  exact (hp.agrees_of_load hsettled hencode hreload).outgrows.trans hm'.outgrows_metadata

/-- A lowering without transformations conserves what it reads. -/
theorem conserves_of_load_lower
    (hsizes : SizesFollow (Stream.Record.split ⟨Stream.headerWords,
      job.words.drop Stream.headerWords⟩).1)
    (hlower : (job.lower .passThrough).1 = .ok out) (hload : load out = .ok n) :
    ∃ m, load job.words = .ok m ∧ job.Conserves m n := by
  obtain ⟨m, p, m', q, hl⟩ := exists_lowers hlower
  obtain ⟨hq, hqsettled⟩ := hl.result
  have hm := sound_of_load hl.load
  obtain ⟨hsettled, es, houtgrows, hes⟩ := hl.prepares.exists_outgrows hm
  have hwhole := (houtgrows.trans (hl.outgrows (hl.prepares.sound hm)
    (hsettled (settled_of_load hl.load hsizes)))).trans
      (hq.agrees_of_load hqsettled hl.encode hload).outgrows
  rw [List.append_nil, List.append_nil] at hwhole
  have hprepared := hm.recasts_prepared
  have hwires := hprepared.wires_prepared hm (idOf_injOn_of_load hl.load)
  refine ⟨m, hl.load, hwhole.version.trans hprepared.version,
    hwhole.generator.trans hprepared.generator,
    fun s hs hs' => (hwhole.sections s hs hs').trans (hwires s),
    hwhole.annotations _ (nodup_eraseDups _) ?_, ?_, ⟨es, ?_, hes⟩, ?_⟩
  · have hannotations : _ = (m.wires .annotations).eraseDups := hwires .annotations
    simp only [hannotations, List.prefix_rfl]
  · have hglobals := hwhole.globals
    rwa [hwires] at hglobals
  · rw [hwhole.entryPoints, hprepared.wireEntries_eq hm]
  · have hfunctions := hwhole.functions
    rwa [hprepared.wireFunctions_eq hm] at hfunctions

/-- A kernel that is also an entry point, with the size of its work group behind that and a
pointer into function storage; the root kernel is asked for and missing. -/
def sizedKernel : Job where
  words :=
    [Stream.magic, 0x10000, 0, 5, 0, 0x5000f, 5, 3, 0x6e69616d, 0, 0x60010, 3, 17, 4, 1, 1,
    0x30005, 3, 0x66, 0x20013, 1, 0x40020, 4, 7, 1, 0x30021, 2, 1, 0x50036, 1, 3, 0, 2, 0x10038]
  kernels := [⟨rootKernel, .kernel, 0⟩, ⟨"f", .kernel, 0⟩]
  host := .bare
  validates := false

/-- The root kernel is passed over, and the pointer leads into uniform storage. -/
theorem conserves_of_load_lower_sizedKernel : ∃ out n m,
    (sizedKernel.lower .passThrough).1 = .ok out ∧ load out = .ok n ∧
      load sizedKernel.words = .ok m ∧ sizedKernel.Conserves m n := by
  have hok : (sizedKernel.lower .passThrough).1.toOption.map (fun out => (load out).toBool) =
      some true := by decide +kernel
  have hsizes : SizesFollow (Stream.Record.split ⟨Stream.headerWords,
      sizedKernel.words.drop Stream.headerWords⟩).1 := by
    rintro before r behind f hrecords hsize ⟨r', hr', hentry⟩
    change ([⟨5, 15, [5, 3, 0x6e69616d, 0]⟩, ⟨10, 16, [3, 17, 4, 1, 1]⟩, ⟨16, 5, [3, 0x66]⟩,
      ⟨19, 19, [1]⟩, ⟨21, 32, [4, 7, 1]⟩, ⟨25, 33, [2, 1]⟩, ⟨28, 54, [1, 3, 0, 2]⟩,
      ⟨33, 56, []⟩] : List Stream.Record) = _ at hrecords
    cases before with
    | nil =>
        obtain ⟨rfl, -⟩ := List.cons.inj hrecords
        cases hsize
    | cons first before =>
        rw [List.cons_append] at hrecords
        obtain ⟨-, hrest⟩ := List.cons.inj hrecords
        have hnone : ∀ x ∈ before ++ r :: behind, x.opcode ≠ Opcode.entryPoint := by
          rw [← hrest]
          decide
        exact absurd (Record.opcode_of_mark_entryPoint hentry) (hnone r' (by simp [hr']))
  cases hlower : (sizedKernel.lower .passThrough).1 with
  | error e =>
      rw [hlower] at hok
      cases hok
  | ok out =>
      rw [hlower] at hok
      cases hload : load out with
      | error e =>
          change some (load out).toBool = some true at hok
          rw [hload] at hok
          cases hok
      | ok n =>
          obtain ⟨m, hm, hconserves⟩ := conserves_of_load_lower hsizes hlower hload
          exact ⟨out, n, m, rfl, hload, hm, hconserves⟩

end Job

end KernelGrid
