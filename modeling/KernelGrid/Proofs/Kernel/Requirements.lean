import KernelGrid.Proofs.Kernel.DebugOrder
import KernelGrid.Proofs.Kernel.Operations
import KernelGrid.Proofs.Module.Intake
import KernelGrid.Proofs.Module.StorageClasses
import Mathlib.Data.List.Find

/-!
# What a compute program requires

The preamble states what is not stated yet, next to what is there: nothing is moved or lost,
and of what is there only the memory model and the first source language are ever stated anew.
Once all is stated, stating it again changes nothing.
-/

namespace KernelGrid

theorem Arena.modify_eq_self {α : Type} {a : Arena α} {h : Handle} {f : α → α}
    (hf : ∀ value ∈ a.get? h, f value = value) : a.modify h f = a := by
  refine congrArg Arena.mk (Array.ext_getElem? fun n => ?_)
  rw [Array.getElem?_modify]
  split
  next heq =>
    subst heq
    cases hget : a.values[h.index]? with
    | none => rfl
    | some value => rw [Option.map_some, hf value hget]
  · rfl

theorem Kind.debugGroup?_of_memoryModel {ρ : Type} {k : Kind ρ}
    (hk : k.opcode = Form.memoryModel.opcode) : k.debugGroup? = none ∧ k.isSource = false := by
  cases k
  case raw opcode operands =>
    obtain rfl : opcode = Form.memoryModel.opcode := hk
    exact ⟨rfl, decide_eq_false (show Form.memoryModel.opcode ≠ Opcode.source by decide)⟩
  case sourceExtension => exact absurd (show Form.sourceExtension.opcode = _ from hk) (by decide)
  case debugName => exact absurd (show Form.debugName.opcode = _ from hk) (by decide)
  case memberName => exact absurd (show Form.memberName.opcode = _ from hk) (by decide)
  all_goals exact ⟨rfl, rfl⟩

namespace Module

open Relation

variable {m m₁ m' m'' : Module} {h : Handle} {may may' : Handle → Prop} {u : Unit}

/-- Whether what a module takes for its memory model is a statement of one. -/
def StatesModel (m : Module) : Prop :=
  ∀ h ∈ m.memoryModel, (m.kindOf h).opcode = Form.memoryModel.opcode

def States (m : Module) (s : Section) (kind : Kind Handle) : Prop :=
  ∃ h ∈ s.handles m, m.kindOf h = kind

/-- Whether a module states what a compute program requires.  Of several source languages the
first counts. -/
structure StatesRequirements (m : Module) : Prop where
  capability : m.States .capabilities (.capability .shader)
  memoryModel : m.States .memoryModel (.memoryModel .physical32 .glsl450)
  extInstImport : m.States .extInstImports (.extInstImport extInstSet)
  source : ∃ h, m.findKind? (·.isSource) m.debug = some h ∧
    m.kindOf h = .raw Opcode.source [sourceLanguage, sourceVersion]
  sourceExtensions : ∀ name ∈ sourceExtensions, m.States .debug (.sourceExtension name)

def IsRestated (m : Module) (h : Handle) : Prop :=
  m.memoryModel = some h ∨ m.findKind? (·.isSource) m.debug = some h

def isUnnamed (m : Module) (h : Handle) : Bool := !(m.kindOf h).isName

/-- What a module holds is kept in its order, and what is new about the source stands in front
of the first name.  Only some instructions may be stated anew. -/
structure Amends (may : Handle → Prop) (m m' : Module) : Prop where
  owns : ∀ h, m.Owns h → m'.Owns h
  kept : ∀ h, m.Owns h → ¬may h → m'.inst h = m.inst h
  groups : ∀ h, m.Owns h → (m'.kindOf h).debugGroup? = (m.kindOf h).debugGroup?
  sources : ∀ h, m.Owns h → (m'.kindOf h).isSource = (m.kindOf h).isSource
  sections : ∀ s : Section, (s.handles m).Sublist (s.handles m')
  entryPoints : m'.entryPoints = m.entryPoints
  functions : m'.functions = m.functions
  debug : ∃ new,
    m'.debug = m.debug.takeWhile m.isUnnamed ++ new ++ m.debug.dropWhile m.isUnnamed ∧
    ∀ h ∈ new, ¬m.Owns h ∧ m'.Owns h ∧ (m'.kindOf h).debugGroup? = some .source

/-! ## Amendments -/

theorem owns_of_kindOf (hh : m.kindOf h ≠ .placeholder) : m.Owns h :=
  owns_iff.2 (isSome_of_kindOf hh)

theorem StatesModel.owns (hm : m.StatesModel) (hmodel : m.memoryModel = some h) : m.Owns h := by
  refine owns_of_kindOf fun heq => ?_
  have hop := hm h hmodel
  rw [heq] at hop
  exact absurd hop (by decide)

theorem isUnnamed_of_debugGroup?
    (hgroup : (m'.kindOf h).debugGroup? = (m.kindOf h).debugGroup?) :
    m'.isUnnamed h = m.isUnnamed h := by
  rw [isUnnamed, isUnnamed, Bool.eq_iff_iff, Bool.not_eq_true', Bool.not_eq_true',
    ← Bool.not_eq_true, ← Bool.not_eq_true, Kind.isName_iff, Kind.isName_iff, hgroup]

/-- What is put in where a list is parted comes before the parting. -/
theorem parted_of_inserted {α : Type} {p q : α → Bool} {xs new : List α}
    (hxs : ∀ x ∈ xs, q x = p x) (hnew : ∀ x ∈ new, q x) :
    (xs.takeWhile p ++ new ++ xs.dropWhile p).takeWhile q = xs.takeWhile p ++ new ∧
      (xs.takeWhile p ++ new ++ xs.dropWhile p).dropWhile q = xs.dropWhile p := by
  have hnil : new.takeWhile q = new ∧ new.dropWhile q = [] :=
    ⟨List.takeWhile_eq_self_iff.2 hnew, List.dropWhile_eq_nil_iff.2 hnew⟩
  induction xs with
  | nil => simpa using hnil
  | cons x xs ih =>
      rw [List.forall_mem_cons] at hxs
      obtain ⟨htake, hdrop⟩ := ih hxs.2
      by_cases hx : p x
      · have hqx : q x := hxs.1.trans hx
        simp only [List.takeWhile_cons_of_pos hx, List.dropWhile_cons_of_pos hx,
          List.cons_append, List.takeWhile_cons_of_pos hqx, List.dropWhile_cons_of_pos hqx,
          htake, hdrop, and_self]
      · have hqx : ¬q x := by rwa [hxs.1]
        simp only [List.takeWhile_cons_of_neg hx, List.dropWhile_cons_of_neg hx, List.nil_append,
          List.takeWhile_append_of_pos hnew, List.dropWhile_append_of_pos hnew,
          List.takeWhile_cons_of_neg hqx, List.dropWhile_cons_of_neg hqx, List.append_nil,
          and_self]

namespace Amends

theorem of_debug_eq (howns : ∀ h, m.Owns h → m'.Owns h)
    (hkept : ∀ h, m.Owns h → ¬may h → m'.inst h = m.inst h)
    (hgroups : ∀ h, m.Owns h → (m'.kindOf h).debugGroup? = (m.kindOf h).debugGroup?)
    (hsources : ∀ h, m.Owns h → (m'.kindOf h).isSource = (m.kindOf h).isSource)
    (hsections : ∀ s : Section, (s.handles m).Sublist (s.handles m'))
    (hentries : m'.entryPoints = m.entryPoints) (hfunctions : m'.functions = m.functions)
    (hdebug : m'.debug = m.debug) : m.Amends may m' := by
  refine ⟨howns, hkept, hgroups, hsources, hsections, hentries, hfunctions, [], ?_, by simp⟩
  rw [hdebug, List.append_nil, List.takeWhile_append_dropWhile]

theorem refl (m : Module) : m.Amends may m :=
  of_debug_eq (fun _ => id) (fun _ _ _ => rfl) (fun _ _ => rfl) (fun _ _ => rfl)
    (fun _ => .refl _) rfl rfl rfl

theorem mono (hmm : m.Amends may m') (hmay : ∀ h, may h → may' h) : m.Amends may' m' where
  __ := hmm
  kept h hh hnot := hmm.kept h hh fun hmayh => hnot (hmay h hmayh)

/-- What may be new and what is there is parted by the same name before and after. -/
theorem trans (hmm : m.Amends may m₁) (hmm' : m₁.Amends may m') (hm : ∀ h ∈ m.debug, m.Owns h) :
    m.Amends may m' where
  owns h hh := hmm'.owns h (hmm.owns h hh)
  kept h hh hmay := (hmm'.kept h (hmm.owns h hh) hmay).trans (hmm.kept h hh hmay)
  groups h hh := (hmm'.groups h (hmm.owns h hh)).trans (hmm.groups h hh)
  sources h hh := (hmm'.sources h (hmm.owns h hh)).trans (hmm.sources h hh)
  sections s := (hmm.sections s).trans (hmm'.sections s)
  entryPoints := hmm'.entryPoints.trans hmm.entryPoints
  functions := hmm'.functions.trans hmm.functions
  debug := by
    obtain ⟨new, hdebug, hnew⟩ := hmm.debug
    obtain ⟨new', hdebug', hnew'⟩ := hmm'.debug
    have hunnamed : ∀ h ∈ m.debug, m₁.isUnnamed h = m.isUnnamed h := fun h hh =>
      isUnnamed_of_debugGroup? (hmm.groups h (hm h hh))
    have hnew₁ : ∀ h ∈ new, m₁.isUnnamed h := by
      intro h hh
      rw [isUnnamed, Bool.not_eq_true', ← Bool.not_eq_true, Kind.isName_iff, (hnew h hh).2.2]
      simp
    obtain ⟨hfront, hback⟩ := parted_of_inserted hunnamed hnew₁
    refine ⟨new ++ new', ?_, List.forall_mem_append.2 ⟨fun h hh => ?_, fun h hh => ?_⟩⟩
    · rw [hdebug', hdebug, hfront, hback]
      simp only [List.append_assoc]
    · obtain ⟨hold, howns, hgroup⟩ := hnew h hh
      exact ⟨hold, hmm'.owns h howns, (hmm'.groups h howns).trans hgroup⟩
    · obtain ⟨hold, howns, hgroup⟩ := hnew' h hh
      exact ⟨fun hh => hold (hmm.owns h hh), howns, hgroup⟩

theorem owns_debug (hmm : m.Amends may m') (hm : ∀ h ∈ m.debug, m.Owns h) :
    ∀ h ∈ m'.debug, m'.Owns h := by
  obtain ⟨new, hdebug, hnew⟩ := hmm.debug
  intro h hh
  rw [hdebug, List.append_assoc, List.mem_append, List.mem_append] at hh
  obtain hh | hh | hh := hh
  · exact hmm.owns h (hm h (List.takeWhile_subset _ hh))
  · exact (hnew h hh).2.1
  · exact hmm.owns h (hm h ((List.dropWhile_suffix _).subset hh))

theorem states {s : Section} {kind : Kind Handle} (hmm : m.Amends may m')
    (hstates : m.States s kind) (hkind : kind ≠ .placeholder)
    (hnot : ∀ h, m.kindOf h = kind → ¬may h) : m'.States s kind := by
  obtain ⟨h, hh, rfl⟩ := hstates
  refine ⟨h, (hmm.sections s).subset hh, ?_⟩
  rw [kindOf, hmm.kept h (owns_of_kindOf hkind) (hnot h rfl), kindOf]

theorem statesModel (hmm : m.Amends (fun _ => False) m') (hm : m.StatesModel)
    (hmodel : m'.memoryModel = m.memoryModel) : m'.StatesModel := by
  intro h hh
  rw [hmodel] at hh
  rw [kindOf, hmm.kept h (hm.owns hh) id]
  exact hm h hh

end Amends

/-! ## Storing and replacing -/

section

variable {i : Inst Handle} {g : Handle}

theorem Puts.owns_iff (hp : m.Puts i h m₁) : m₁.Owns g ↔ g = h ∨ m.Owns g := by
  rw [Module.owns_iff, Module.owns_iff, hp.get?_eq]
  by_cases hg : g = h
  · simp [hg]
  · simp [hg]

theorem Puts.not_owns (hp : m.Puts i h m₁) : ¬m.Owns h := by
  rw [Module.owns_iff, hp.handle, Arena.get?_nextHandle]
  simp

theorem Puts.inst_of_owns (hp : m.Puts i h m₁) (hg : m.Owns g) : m₁.inst g = m.inst g :=
  hp.inst_eq_of_ne fun heq => hp.not_owns (heq ▸ hg)

theorem Puts.entryPoints_eq (hp : m.Puts i h m₁) : m₁.entryPoints = m.entryPoints := by
  obtain ⟨bound, ids, rfl⟩ := hp.frame
  rfl

theorem Puts.memoryModel_eq (hp : m.Puts i h m₁) : m₁.memoryModel = m.memoryModel := by
  obtain ⟨bound, ids, rfl⟩ := hp.frame
  rfl

theorem Puts.amends_add (hp : m.Puts i h m₁) {s : Section} (hs : s ≠ .debug)
    (hmodel : s = .memoryModel → m.memoryModel = none) : m.Amends may (s.add h m₁) := by
  have hinst {g : Handle} (hg : m.Owns g) : (s.add h m₁).inst g = m.inst g := by
    rw [inst, Section.insts_add, ← inst, hp.inst_of_owns hg]
  have hkind {g : Handle} (hg : m.Owns g) : (s.add h m₁).kindOf g = m.kindOf g :=
    congrArg Inst.kind (hinst hg)
  refine .of_debug_eq (fun g hg => ?_) (fun g hg _ => hinst hg) (fun g hg => by rw [hkind hg])
    (fun g hg => by rw [hkind hg]) (fun t => ?_) ?_ ?_ ?_
  · rw [Owns, Section.insts_add]
    exact hp.owns_iff.2 (.inr hg)
  · rw [Section.handles_add]
    split
    next hst =>
      subst hst
      split
      next hmemory =>
        subst hmemory
        rw [Section.handles, hmodel rfl]
        exact List.nil_sublist _
      · rw [hp.handles_eq]
        exact List.sublist_append_left _ _
    · rw [hp.handles_eq]
  · rw [Section.entryPoints_add, hp.entryPoints_eq]
  · rw [Section.functions_add, hp.functions_eq]
  · exact (Section.handles_add s .debug h m₁).trans
      (by rw [if_neg hs]; exact hp.handles_eq .debug)

theorem Puts.states_add (hp : m.Puts i h m₁) (s : Section) : (s.add h m₁).States s i.kind := by
  refine ⟨h, ?_, ?_⟩
  · rw [Section.handles_add, if_pos rfl]
    split
    · exact List.mem_singleton_self h
    · exact List.mem_append_right _ (List.mem_singleton_self h)
  · rw [kindOf, inst, Section.insts_add, ← inst, hp.inst_self]

theorem Puts.debug_insertSource (hp : m.Puts i h m₁) (hm : ∀ h ∈ m.debug, m.Owns h) :
    (insertSource h m₁).2.debug =
      m.debug.takeWhile m.isUnnamed ++ [h] ++ m.debug.dropWhile m.isUnnamed := by
  have hunnamed : ∀ g ∈ m.debug, m₁.isUnnamed g = m.isUnnamed g := fun g hg =>
    isUnnamed_of_debugGroup? (by rw [kindOf, hp.inst_of_owns (hm g hg), kindOf])
  obtain ⟨htake, hdrop⟩ := parted_of_inserted hunnamed (List.forall_mem_nil _)
  simp only [List.append_nil, List.takeWhile_append_dropWhile] at htake hdrop
  change m₁.debug.takeWhile m₁.isUnnamed ++ h :: m₁.debug.dropWhile m₁.isUnnamed = _
  have hdebug : m₁.debug = m.debug := hp.handles_eq .debug
  rw [hdebug, htake, hdrop, List.append_assoc]
  rfl

theorem Puts.findSource?_eq (hp : m.Puts i h m₁) (hm : ∀ h ∈ m.debug, m.Owns h) :
    m₁.findKind? (·.isSource) m.debug = m.findKind? (·.isSource) m.debug :=
  List.find?_congr fun g hg => by rw [kindOf, hp.inst_of_owns (hm g hg), kindOf]

theorem Puts.amends_insertSource (hp : m.Puts i h m₁) (hi : i.kind.debugGroup? = some .source)
    (hm : ∀ h ∈ m.debug, m.Owns h) : m.Amends may (insertSource h m₁).2 where
  owns g hg := hp.owns_iff.2 (.inr hg)
  kept g hg _ := hp.inst_of_owns hg
  groups g hg := congrArg (fun i => i.kind.debugGroup?) (hp.inst_of_owns hg)
  sources g hg := congrArg (fun i => i.kind.isSource) (hp.inst_of_owns hg)
  sections s := by
    cases s
    case debug =>
      rw [Section.handles, Section.handles, hp.debug_insertSource hm, List.append_assoc]
      exact sublist_inserted m.isUnnamed m.debug h
    all_goals exact (hp.handles_eq _).symm ▸ List.Sublist.refl _
  entryPoints := hp.entryPoints_eq
  functions := hp.functions_eq
  debug := by
    refine ⟨[h], hp.debug_insertSource hm, ?_⟩
    rw [List.forall_mem_singleton]
    exact ⟨hp.not_owns, hp.owns_iff.2 (.inl rfl),
      congrArg (fun i => i.kind.debugGroup?) hp.inst_self ▸ hi⟩

end

/-- Something is stated anew that says as much about the order of the debug section. -/
theorem amends_setKind {kind : Kind Handle}
    (hgroup : kind.debugGroup? = (m.kindOf h).debugGroup?)
    (hsource : kind.isSource = (m.kindOf h).isSource) (hmay : may h) :
    m.Amends may (setKind h kind m).2 := by
  have hkept {α : Type} {f : Kind Handle → α} (hf : f kind = f (m.kindOf h)) (g : Handle) :
      f ((setKind h kind m).2.kindOf g) = f (m.kindOf g) := by
    rw [kindOf_setKind]
    split
    next heq => rw [← heq.1, hf]
    · rfl
  refine .of_debug_eq (fun g => (owns_modify _).2) (fun g hg hnot => ?_)
    (fun g _ => hkept hgroup g) (fun g _ => hkept hsource g) (fun s => ?_) rfl rfl rfl
  · rw [inst_setKind, if_neg]
    rintro ⟨rfl, -⟩
    exact hnot hmay
  · cases s <;> exact .refl _

theorem setKind_kindOf (h : Handle) (m : Module) : (setKind h (m.kindOf h) m).2 = m := by
  refine congrArg (fun insts => { m with insts }) (Arena.modify_eq_self fun i hi => ?_)
  rw [kindOf, inst_of_get? hi]

/-! ## Single requirements -/

theorem find?_insert {α : Type} {p q : α → Bool} {xs : List α} {x : α} (hxs : xs.find? q = none)
    (hx : q x) : (xs.takeWhile p ++ [x] ++ xs.dropWhile p).find? q = some x := by
  have hfront : (xs.takeWhile p).find? q = none := by
    rw [List.find?_eq_none] at hxs ⊢
    exact fun y hy => hxs y (List.takeWhile_subset _ hy)
  rw [List.append_assoc, List.find?_append, hfront, Option.none_or]
  exact List.find?_cons_of_pos hx

/-- Of source statements the first counts, and a source extension is none. -/
theorem findKind?_insertSource (hkind : (m.kindOf h).isSource = false) :
    (insertSource h m).2.findKind? (·.isSource) (insertSource h m).2.debug =
      m.findKind? (·.isSource) m.debug := by
  change (m.debug.takeWhile m.isUnnamed ++ h :: m.debug.dropWhile m.isUnnamed).find?
    (fun g => (m.kindOf g).isSource) = m.debug.find? fun g => (m.kindOf g).isSource
  rw [List.find?_append, List.find?_cons_of_neg (by simp [hkind]), ← List.find?_append,
    List.takeWhile_append_dropWhile]

theorem Amends.findSource?_eq (hmm : m.Amends may m') (hdebug : m'.debug = m.debug)
    (hm : ∀ h ∈ m.debug, m.Owns h) :
    m'.findKind? (·.isSource) m'.debug = m.findKind? (·.isSource) m.debug := by
  rw [hdebug]
  exact List.find?_congr fun h hh => hmm.sources h (hm h hh)

theorem addCapability_spec {c : Capability} (hrun : addCapability c m = (u, m')) :
    m.Amends (fun _ => False) m' ∧ m'.States .capabilities (.capability c) ∧
      m'.memoryModel = m.memoryModel ∧ m'.debug = m.debug := by
  obtain ⟨hex, rfl⟩ | ⟨-, h, m₁, hstored, rfl⟩ := addCapability_cases hrun
  · exact ⟨.refl _, hex, rfl, rfl⟩
  · have hp := puts_append rfl hstored
    exact ⟨hp.amends_add (by decide) nofun, hp.states_add .capabilities, hp.memoryModel_eq,
      hp.handles_eq .debug⟩

theorem setMemoryModel_spec {addressing : AddressingModel} {memory : MemoryModel}
    (hrun : setMemoryModel addressing memory m = (u, m')) (hm : m.StatesModel) :
    m.Amends (fun h => m.memoryModel = some h) m' ∧
      m'.States .memoryModel (.memoryModel addressing memory) ∧
      m'.debug = m.debug := by
  obtain ⟨h, hmodel, rfl⟩ | ⟨hnone, h, m₁, hstored, rfl⟩ := setMemoryModel_cases hrun
  · obtain ⟨hgroup, hsource⟩ := Kind.debugGroup?_of_memoryModel (hm h hmodel)
    refine ⟨amends_setKind hgroup.symm hsource.symm hmodel, ⟨h, Option.mem_toList.2 hmodel, ?_⟩,
      rfl⟩
    rw [kindOf_setKind, if_pos ⟨rfl, owns_iff.1 (hm.owns hmodel)⟩]
  · have hp := puts_append rfl hstored
    exact ⟨hp.amends_add (by decide) fun _ => hnone, hp.states_add .memoryModel,
      hp.handles_eq .debug⟩

theorem addExtInstImport_spec {name : String} (hrun : addExtInstImport name m = (h, m')) :
    m.Amends (fun _ => False) m' ∧ m'.States .extInstImports (.extInstImport name) ∧
      m'.debug = m.debug := by
  obtain ⟨hh, hkind, rfl⟩ | ⟨-, m₁, hstored, rfl⟩ := addExtInstImport_cases hrun
  · exact ⟨.refl _, ⟨h, hh, hkind⟩, rfl⟩
  · have hp := puts_define hstored
    exact ⟨hp.amends_add (by decide) nofun, hp.states_add .extInstImports, hp.handles_eq .debug⟩

theorem setSource_spec {language version : Word} (hrun : setSource language version m = (u, m'))
    (hm : ∀ h ∈ m.debug, m.Owns h) :
    m.Amends (fun h => m.findKind? (·.isSource) m.debug = some h) m' ∧
      ∃ h, m'.findKind? (·.isSource) m'.debug = some h ∧
        m'.kindOf h = .raw Opcode.source [language, version] := by
  obtain ⟨h, hfind, rfl⟩ | ⟨hnone, h, m₁, hstored, rfl⟩ := setSource_cases hrun
  · obtain ⟨hh, hsource⟩ := findKind?_eq_some hfind
    have hamends : m.Amends (fun h => m.findKind? (·.isSource) m.debug = some h)
        (setKind h (.raw Opcode.source [language, version]) m).2 :=
      amends_setKind (Kind.debugGroup?_of_isSource hsource).symm hsource.symm hfind
    refine ⟨hamends, h, (hamends.findSource?_eq rfl hm).trans hfind, ?_⟩
    rw [kindOf_setKind, if_pos ⟨rfl, owns_iff.1 (hm h hh)⟩]
  · have hp := puts_append rfl hstored
    refine ⟨hp.amends_insertSource rfl hm, h, ?_, congrArg Inst.kind hp.inst_self⟩
    rw [hp.debug_insertSource hm]
    exact find?_insert ((hp.findSource?_eq hm).trans hnone)
      (congrArg (fun i => i.kind.isSource) hp.inst_self)

theorem addSourceExtension_spec {name : String} (hrun : addSourceExtension name m = (u, m'))
    (hm : ∀ h ∈ m.debug, m.Owns h) :
    m.Amends (fun _ => False) m' ∧ m'.States .debug (.sourceExtension name) ∧
      m'.findKind? (·.isSource) m'.debug = m.findKind? (·.isSource) m.debug := by
  obtain ⟨hex, rfl⟩ | ⟨-, h, m₁, hstored, rfl⟩ := addSourceExtension_cases hrun
  · exact ⟨.refl _, hex, rfl⟩
  · have hp := puts_append rfl hstored
    refine ⟨hp.amends_insertSource rfl hm, ⟨h, ?_, congrArg Inst.kind hp.inst_self⟩, ?_⟩
    · rw [Section.handles, hp.debug_insertSource hm]
      simp
    · rw [findKind?_insertSource (by rw [kindOf, hp.inst_self]; rfl)]
      have hdebug : m₁.debug = m.debug := hp.handles_eq .debug
      rw [hdebug, hp.findSource?_eq hm]

theorem addSourceExtensions_cons {name : String} {names : List String}
    (hrun : (name :: names).forM addSourceExtension m = (u, m')) :
    ∃ m₁, addSourceExtension name m = ((), m₁) ∧ names.forM addSourceExtension m₁ = (u, m') := by
  change (addSourceExtension name >>= fun _ => names.forM addSourceExtension) m = _ at hrun
  obtain ⟨_, m₁, hadd, hrun⟩ := edit_bind.1 hrun
  exact ⟨m₁, hadd, hrun⟩

theorem addSourceExtensions_spec {names : List String}
    (hrun : names.forM addSourceExtension m = (u, m')) (hm : ∀ h ∈ m.debug, m.Owns h) :
    m.Amends (fun _ => False) m' ∧ (∀ name ∈ names, m'.States .debug (.sourceExtension name)) ∧
      m'.findKind? (·.isSource) m'.debug = m.findKind? (·.isSource) m.debug := by
  induction names generalizing m with
  | nil =>
      obtain ⟨-, rfl⟩ := edit_pure.1 hrun
      exact ⟨.refl _, List.forall_mem_nil _, rfl⟩
  | cons name names ih =>
      obtain ⟨m₁, hadd, hrun⟩ := addSourceExtensions_cons hrun
      obtain ⟨hamends, hstates, hsource⟩ := addSourceExtension_spec hadd hm
      obtain ⟨hamends', hrest, hsource'⟩ := ih hrun (hamends.owns_debug hm)
      exact ⟨hamends.trans hamends' hm,
        List.forall_mem_cons.2 ⟨hamends'.states hstates nofun fun _ _ => id, hrest⟩,
        hsource'.trans hsource⟩

/-! ## All requirements -/

theorem addComputePreamble_runs (hrun : addComputePreamble m = (u, m')) : ∃ m₁ h m₂ m₃ m₄,
    addCapability .shader m = ((), m₁) ∧ setMemoryModel .physical32 .glsl450 m₁ = ((), m₂) ∧
      addExtInstImport extInstSet m₂ = (h, m₃) ∧
      setSource sourceLanguage sourceVersion m₃ = ((), m₄) ∧
        sourceExtensions.forM addSourceExtension m₄ = (u, m') := by
  obtain ⟨_, m₁, hrun₁, hrun⟩ := edit_bind.1 hrun
  obtain ⟨_, m₂, hrun₂, hrun⟩ := edit_bind.1 hrun
  obtain ⟨h, m₃, hrun₃, hrun⟩ := edit_bind.1 hrun
  obtain ⟨_, m₄, hrun₄, hrun₅⟩ := edit_bind.1 hrun
  exact ⟨m₁, h, m₂, m₃, m₄, hrun₁, hrun₂, hrun₃, hrun₄, hrun₅⟩

theorem addComputePreamble_spec (hm : ∀ h ∈ m.debug, m.Owns h) (hmodel : m.StatesModel)
    (hrun : addComputePreamble m = (u, m')) : m'.StatesRequirements ∧
    m.Amends m.IsRestated m' := by
  obtain ⟨m₁, _, m₂, m₃, m₄, hrun₁, hrun₂, hrun₃, hrun₄, hrun₅⟩ := addComputePreamble_runs hrun
  obtain ⟨hmm₁, hcapability, hmodel₁, hdebug₁⟩ := addCapability_spec hrun₁
  have hstates₁ := hmm₁.statesModel hmodel hmodel₁
  obtain ⟨hmm₂, hmemory, hdebug₂⟩ := setMemoryModel_spec hrun₂ hstates₁
  obtain ⟨hmm₃, himport, hdebug₃⟩ := addExtInstImport_spec hrun₃
  -- Up to here the debug section is as it was, so the same statement of a source language is
  -- the first.
  have hbefore : m.Amends m.IsRestated m₃ :=
    ((hmm₁.mono fun _ => False.elim).trans (hmm₂.mono fun h hh => .inl (hmodel₁ ▸ hh)) hm).trans
      (hmm₃.mono fun _ => False.elim) hm
  have hfirst := hbefore.findSource?_eq (hdebug₃.trans (hdebug₂.trans hdebug₁)) hm
  obtain ⟨hmm₄, h, hfind, hsource⟩ := setSource_spec hrun₄ (hbefore.owns_debug hm)
  have hthere : m.Amends m.IsRestated m₄ :=
    hbefore.trans (hmm₄.mono fun h hh => .inr (hfirst ▸ hh)) hm
  obtain ⟨hmm₅, hextensions, hkept⟩ := addSourceExtensions_spec hrun₅ (hthere.owns_debug hm)
  have hlast {s : Section} {kind : Kind Handle} (hstates : m₃.States s kind)
      (hkind : kind ≠ .placeholder) (hnot : kind.isSource = false) : m'.States s kind := by
    refine hmm₅.states (hmm₄.states hstates hkind fun h heq hh => ?_) hkind fun _ _ => id
    have hsource := (findKind?_eq_some hh).2
    rw [heq, hnot] at hsource
    cases hsource
  have hcapability₂ := hmm₂.states hcapability nofun fun h heq hh => by
    have hop := hstates₁ h hh
    rw [heq] at hop
    exact absurd hop (by decide)
  refine ⟨⟨hlast (hmm₃.states hcapability₂ nofun fun _ _ => id) nofun rfl,
    hlast (hmm₃.states hmemory nofun fun _ _ => id) nofun rfl, hlast himport nofun rfl,
    ⟨h, hkept.trans hfind, ?_⟩, hextensions⟩, hthere.trans (hmm₅.mono fun _ => False.elim) hm⟩
  rw [kindOf, hmm₅.kept h (owns_of_kindOf (by simp [hsource])) id]
  exact hsource

theorem eq_of_addSourceExtensions {names : List String}
    (hnames : ∀ name ∈ names, m.States .debug (.sourceExtension name))
    (hrun : names.forM addSourceExtension m = (u, m')) : m' = m := by
  induction names with
  | nil => exact (edit_pure.1 hrun).2.symm
  | cons name names ih =>
      rw [List.forall_mem_cons] at hnames
      obtain ⟨⟨h, hh, hkind⟩, hnames⟩ := hnames
      obtain ⟨m₁, hadd, hrest⟩ := addSourceExtensions_cons hrun
      obtain ⟨-, rfl⟩ | ⟨hmissing, -⟩ := addSourceExtension_cases hadd
      · exact ih hnames hrest
      · exact absurd hkind (hmissing h hh)

/-- What is stated is not stated again. -/
theorem StatesRequirements.eq_of_addComputePreamble (hm : m.StatesRequirements)
    (hrun : addComputePreamble m = (u, m')) : m' = m := by
  obtain ⟨m₁, _, m₂, m₃, m₄, hrun₁, hrun₂, hrun₃, hrun₄, hrun₅⟩ := addComputePreamble_runs hrun
  obtain rfl : m₁ = m := by
    obtain ⟨h, hh, hkind⟩ := hm.capability
    obtain ⟨-, heq⟩ | ⟨hmissing, -⟩ := addCapability_cases hrun₁
    · exact heq
    · exact absurd hkind (hmissing h hh)
  obtain rfl : m₂ = m₁ := by
    obtain ⟨h, hh, hkind⟩ := hm.memoryModel
    obtain ⟨g, hg, heq⟩ | ⟨hnone, -⟩ := setMemoryModel_cases hrun₂
    · obtain rfl := Option.some.inj ((Option.mem_toList.1 hh).symm.trans hg)
      rw [heq, ← hkind, setKind_kindOf]
    · rw [Section.handles, hnone] at hh
      cases hh
  obtain rfl : m₃ = m₂ := by
    obtain ⟨h, hh, hkind⟩ := hm.extInstImport
    obtain ⟨-, -, heq⟩ | ⟨hmissing, -⟩ := addExtInstImport_cases hrun₃
    · exact heq
    · exact absurd hkind (hmissing h hh)
  obtain rfl : m₄ = m₃ := by
    obtain ⟨h, hfind, hkind⟩ := hm.source
    obtain ⟨g, hg, heq⟩ | ⟨hnone, -⟩ := setSource_cases hrun₄
    · obtain rfl := Option.some.inj (hfind.symm.trans hg)
      rw [heq, ← hkind, setKind_kindOf]
    · rw [hnone] at hfind
      cases hfind
  exact eq_of_addSourceExtensions hm.sourceExtensions hrun₅

/-! ## Statements of memory models -/

theorem StatesModel.of_outlasts (hm : m.StatesModel) (hmm : m.Outlasts m')
    (hmodel : m'.memoryModel = m.memoryModel) : m'.StatesModel := by
  intro h hh
  rw [hmodel] at hh
  rw [hmm.kindOf_eq (owns_iff.1 (hm.owns hh))]
  exact hm h hh

theorem StatesModel.of_insts (hm : m.StatesModel) (hinsts : m'.insts = m.insts)
    (hmodel : m'.memoryModel = m.memoryModel) : m'.StatesModel :=
  hm.of_outlasts (fun h i hi => by rwa [hinsts]) hmodel

theorem StatesModel.append (hm : m.StatesModel) (i : Inst Handle) :
    (append i m).2.StatesModel := by
  rcases hrun : Module.append i m with ⟨h, m₁⟩
  obtain ⟨hedits, -⟩ := append_edits hrun
  obtain ⟨bound, insts, ids, hframe⟩ := append_frame i m
  refine hm.of_outlasts hedits.continues.insts ?_
  rw [hrun] at hframe
  exact (congrArg Module.memoryModel hframe :)

theorem StatesModel.define (hm : m.StatesModel) (type : Option Handle) (kind : Kind Handle) :
    (define type kind m).2.StatesModel := by
  rw [define_eq]
  exact (show (Module.allocId m).2.StatesModel from hm).append _

theorem StatesModel.setKind {kind : Kind Handle} (hm : m.StatesModel)
    (hkind : m.memoryModel = some h → kind.opcode = Form.memoryModel.opcode) :
    (setKind h kind m).2.StatesModel := by
  intro g hg
  rw [kindOf_setKind]
  split
  next heq => exact hkind (heq.1 ▸ hg)
  · exact hm g hg

theorem StatesModel.setMemoryModel (hm : m.StatesModel) (addressing : AddressingModel)
    (memory : MemoryModel) : (setMemoryModel addressing memory m).2.StatesModel := by
  rcases hrun : Module.setMemoryModel addressing memory m with ⟨u, m'⟩
  obtain ⟨h, -, rfl⟩ | ⟨-, h, m₁, hstored, rfl⟩ := setMemoryModel_cases hrun
  · exact hm.setKind fun _ => rfl
  · rintro _ ⟨⟩
    exact congrArg (fun i => i.kind.opcode) (puts_append rfl hstored).inst_self

/-- Nothing that is done to a module makes anything else of its memory model. -/
theorem Primitive.statesModel (hstep : Primitive m m') (hm : m.StatesModel) :
    m'.StatesModel := by
  cases hstep with
  | allocId => exact hm
  | @append i hid => exact hm.append i
  | define type kind => exact hm.define type kind
  | @intern d hd =>
      rcases hrun : Module.intern d m with ⟨h, m₂⟩
      obtain ⟨-, rfl⟩ | ⟨m₁, hstored, rfl⟩ := intern_cases hrun
      · exact hm
      · have hdefine := hm.define d.type d.kind
        rw [hstored] at hdefine
        exact hdefine.of_insts rfl rfl
  | freshStructType members => exact (hm.define none (.typeStruct members)).of_insts rfl rfl
  | addGlobalVar pointer storage =>
      exact (hm.define (some pointer) (.var storage none)).of_insts rfl rfl
  | setMemoryModel addressing memory => exact hm.setMemoryModel addressing memory
  | @restate h words hh =>
      refine hm.setKind fun hmodel => absurd (hm h hmodel) ?_
      rw [Kind.opcode_of_isSource hh]
      decide
  | relist hlists =>
      obtain ⟨_, _, _, _, _, _, _, _, rfl⟩ := hlists
      exact hm
  | normalizeStorage =>
      have hmodel : m.normalizeStorage.2.memoryModel = m.memoryModel := by
        obtain ⟨-, heq⟩ | ⟨insts, heq, -⟩ := m.normalizeStorage_cases
        · rw [heq]
        · rw [heq]
          rfl
      intro h hh
      rw [hmodel] at hh
      rw [kindOf, inst_normalizeStorage]
      split
      · exact (kind_makeUniform (f := Kind.opcode) (fun _ => Kind.opcode_withStorage) _).trans
          (hm h hh)
      · exact hm h hh
  | reintern => exact hm.of_insts rfl rfl

theorem statesModel_of_steps (hsteps : ReflTransGen Primitive m m') (hm : m.StatesModel) :
    m'.StatesModel := by
  induction hsteps with
  | refl => exact hm
  | tail _ hstep ih => exact hstep.statesModel ih

theorem statesModel_of_decode {w : List Word} (hdecode : decode w = .ok m) : m.StatesModel := by
  obtain ⟨_, _, _, _, _, -, -, _, _, _, -, hD⟩ := exists_decoded hdecode
  intro h hh
  exact Section.eq_of_memoryModel (hD.section_eq (s := .memoryModel) (Option.mem_toList.2 hh)).1

/-- Whatever a module holds, the preamble states what a compute program requires, and nothing
more if it is run again.  What is there is kept in its order, and only the memory model and the
first source language are stated anew; what is new about the source stands in front of the
first name. -/
theorem addComputePreamble_settles :
    (∀ w m, decode w = .ok m → m.Contained ∧ m.StatesModel) ∧
    (∀ m m', m.StatesModel → ReflTransGen Operation m m' → m'.StatesModel) ∧
    ∀ m : Module, m.Contained → m.StatesModel → ∃ m', addComputePreamble m = ((), m') ∧
      m'.StatesRequirements ∧ m.Amends m.IsRestated m' ∧ addComputePreamble m' = ((), m') := by
  refine ⟨fun w m hdecode => ⟨contained_of_decode hdecode, statesModel_of_decode hdecode⟩,
    fun m m' hm hops => statesModel_of_steps (steps_of_operations hops) hm,
    fun m hm hmodel => ?_⟩
  rcases hrun : addComputePreamble m with ⟨u, m'⟩
  obtain ⟨hstates, hamends⟩ := addComputePreamble_spec (hm.sections .debug) hmodel hrun
  rcases hagain : addComputePreamble m' with ⟨u', m''⟩
  obtain rfl := hstates.eq_of_addComputePreamble hagain
  exact ⟨m'', rfl, hstates, hamends, hagain⟩

/-- Another memory model, a name in front of two source languages, and one source extension. -/
def statedOtherwise : List Word :=
  [Stream.magic, 0x10000, 0, 2, 0, 0x3000e, 0, 0, 0x30005, 1, 0x66, 0x30003, 0, 100,
    0x30003, 3, 110, 0x80004, 0x475f4c47, 0x4c474f4f, 0x6e695f45, 0x64756c63, 0x69645f65,
    0x74636572, 0x657669, 0x20013, 1]

theorem addComputePreamble_settles_statedOtherwise : ∃ m m', decode statedOtherwise = .ok m ∧
    m.Contained ∧ m.StatesModel ∧ addComputePreamble m = ((), m') ∧ m'.StatesModel ∧
    m'.StatesRequirements ∧ m.Amends m.IsRestated m' ∧ addComputePreamble m' = ((), m') ∧
    m.debug = [⟨2⟩, ⟨3⟩, ⟨4⟩, ⟨5⟩] ∧ m'.debug = [⟨8⟩, ⟨9⟩, ⟨10⟩, ⟨2⟩, ⟨3⟩, ⟨4⟩, ⟨5⟩] := by
  have hread : (decode statedOtherwise).toOption.map (fun m =>
      (m.debug, (addComputePreamble m).2.debug)) =
        some ([⟨2⟩, ⟨3⟩, ⟨4⟩, ⟨5⟩], [⟨8⟩, ⟨9⟩, ⟨10⟩, ⟨2⟩, ⟨3⟩, ⟨4⟩, ⟨5⟩]) := by
    decide +kernel
  obtain ⟨m, hdecode, hread⟩ := exists_of_map_toOption hread
  obtain ⟨hdebug, hadded⟩ := by simpa only [Prod.mk.injEq] using hread
  obtain ⟨hcontained, hmodel⟩ := addComputePreamble_settles.1 _ m hdecode
  obtain ⟨m', hrun, hstates, hamends, hagain⟩ :=
    addComputePreamble_settles.2.2 m hcontained hmodel
  have hop : Operation m (addComputePreamble m).2 := .addComputePreamble
  rw [hrun] at hadded hop
  have hmodel' := addComputePreamble_settles.2.1 m m' hmodel (.single hop)
  exact ⟨m, m', hdecode, hcontained, hmodel, hrun, hmodel', hstates, hamends, hagain,
    hdebug, hadded⟩

end Module

end KernelGrid
