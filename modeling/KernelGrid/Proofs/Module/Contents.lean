import KernelGrid.Proofs.Module.Editing
import KernelGrid.Proofs.Module.Normalization
import Mathlib.Data.Set.Function
import Mathlib.Logic.Function.Basic

/-!
# Contents

What the sections, entry points and functions of a module say, and how much of that is still said
after the module has been changed, or written and read again.
-/

namespace KernelGrid

/-! ## Lists of instructions -/

namespace Inst

variable {ρ σ : Type}

def addMissing [DecidableEq ρ] (i : Inst ρ) (is : List (Inst ρ)) : List (Inst ρ) :=
  if ∃ j ∈ is, j.kind = i.kind then is else is ++ [i]

def insertUnnamed (i : Inst ρ) (is : List (Inst ρ)) : List (Inst ρ) :=
  is.takeWhile (!·.kind.isName) ++ i :: is.dropWhile (!·.kind.isName)

def insertMissing [DecidableEq ρ] (i : Inst ρ) (is : List (Inst ρ)) : List (Inst ρ) :=
  if ∃ j ∈ is, j.kind = i.kind then is else insertUnnamed i is

/-- Puts an instruction in place of the first statement of the source language, or in front of
the first name if there is none. -/
def replaceSource (i : Inst ρ) (is : List (Inst ρ)) : List (Inst ρ) :=
  if ∃ j ∈ is, j.kind.isSource then is.set (is.findIdx (·.kind.isSource)) i
  else insertUnnamed i is

def uniform (i : Inst ρ) : Inst ρ :=
  if i.kind.storage? = some .function then { i with kind := i.kind.withStorage .uniform } else i

/-! ### References -/

/-- An instruction can be told from its image if what it refers to can. -/
theorem map_injOn [Nonempty ρ] {f : ρ → σ} {refs : Set ρ} (hf : refs.InjOn f) {i j : Inst ρ}
    (hi : ∀ r ∈ i.references, r ∈ refs) (hj : ∀ r ∈ j.references, r ∈ refs)
    (heq : i.map f = j.map f) : i = j := by
  have hinverse {i : Inst ρ} (hi : ∀ r ∈ i.references, r ∈ refs) :
      (i.map f).map (Function.invFunOn f refs) = i := by
    have hleft : ∀ r ∈ i.references, (Function.invFunOn f refs ∘ f) r = id r :=
      fun r hr => hf.leftInvOn_invFunOn (hi r hr)
    rw [map_map, map_congr hleft, map_id]
  rw [← hinverse hi, heq, hinverse hj]

end Inst

namespace Kind

variable {ρ σ : Type}

theorem map_eq_map_iff [Nonempty ρ] {f : ρ → σ} {k k' : Kind ρ} (hk' : k'.references = []) :
    k.map f = k'.map f ↔ k = k' := by
  refine ⟨fun heq => ?_, congrArg _⟩
  have hreferences : k.references.map f = [] := by
    have hmap := congrArg references heq
    have hcomp (k : Kind ρ) : (k.map f).references = k.references.map f := by
      simp only [references, operands_map, List.filterMap_map, List.map_filterMap]
      exact List.filterMap_congr fun t _ => Operand.target?_map f t
    rw [hcomp, hcomp, hk'] at hmap
    exact hmap
  obtain ⟨r₀⟩ := ‹Nonempty ρ›
  have hinverse {k : Kind ρ} (hk : k.references = []) : (k.map f).map (fun _ => r₀) = k := by
    have hnone : ∀ r ∈ k.references, ((fun _ => r₀) ∘ f) r = id r := by simp [hk]
    rw [map_map, map_congr hnone, map_id]
  rw [← hinverse (List.map_eq_nil_iff.1 hreferences), heq, hinverse hk']

@[simp] theorem isName_map (f : ρ → σ) (k : Kind ρ) : (k.map f).isName = k.isName := by
  cases k
  case var storage initializer => cases initializer <;> rfl
  all_goals rfl

@[simp] theorem isSource_map (f : ρ → σ) (k : Kind ρ) : (k.map f).isSource = k.isSource := by
  cases k
  case var storage initializer => cases initializer <;> rfl
  all_goals rfl

@[simp] theorem storage?_map (f : ρ → σ) (k : Kind ρ) : (k.map f).storage? = k.storage? := by
  cases k
  case var storage initializer => cases initializer <;> rfl
  all_goals rfl

@[simp] theorem withStorage_map (f : ρ → σ) (k : Kind ρ) (storage : StorageClass) :
    (k.map f).withStorage storage = (k.withStorage storage).map f := by
  cases k
  case var storage initializer => cases initializer <;> rfl
  all_goals rfl

end Kind

namespace Inst

variable {ρ σ : Type} {f : ρ → σ} {i : Inst ρ} {is : List (Inst ρ)}

theorem map_insertUnnamed : (insertUnnamed i is).map (map f) =
    insertUnnamed (i.map f) (is.map (map f)) := by
  simp [insertUnnamed, List.takeWhile_map, List.dropWhile_map, Function.comp_def]

theorem map_replaceSource : (replaceSource i is).map (map f) =
    replaceSource (i.map f) (is.map (map f)) := by
  have hsource : (∃ j ∈ is.map (map f), j.kind.isSource) ↔ ∃ j ∈ is, j.kind.isSource := by simp
  have hindex : (is.map (map f)).findIdx (·.kind.isSource) = is.findIdx (·.kind.isSource) := by
    simp [List.findIdx_map, Function.comp_def]
  simp only [replaceSource, hsource, hindex, apply_ite (List.map (map f)), map_insertUnnamed,
    List.map_set]

theorem map_eraseDups [Nonempty ρ] [DecidableEq ρ] [DecidableEq σ] {refs : Set ρ}
    (hf : refs.InjOn f) (is : List (Inst ρ)) (his : ∀ i ∈ is, ∀ r ∈ i.references, r ∈ refs) :
    is.eraseDups.map (map f) = (is.map (map f)).eraseDups := by
  match is with
  | [] => rfl
  | i :: is =>
      rw [List.forall_mem_cons] at his
      have hkept : (is.map (map f)).filter (fun j => !j == i.map f) =
          (is.filter fun j => !j == i).map (map f) := by
        rw [List.filter_map]
        congr 1
        refine List.filter_congr fun j hj => ?_
        have hiff : j.map f = i.map f ↔ j = i :=
          ⟨map_injOn hf (his.2 j hj) his.1, congrArg _⟩
        simp [hiff]
      rw [List.map_cons, List.eraseDups_cons, List.eraseDups_cons, List.map_cons, hkept,
        map_eraseDups hf _ fun j hj => his.2 j (List.mem_filter.1 hj).1]
termination_by is.length
decreasing_by exact Nat.lt_succ_of_le (List.length_filter_le _ _)

theorem map_uniform (i : Inst ρ) : i.uniform.map f = (i.map f).uniform := by
  simp only [uniform, apply_ite (map f), kind_map, Kind.storage?_map, Kind.withStorage_map]
  rfl

section

variable [Nonempty ρ] [DecidableEq ρ] [DecidableEq σ]

omit [DecidableEq ρ] [DecidableEq σ] in
theorem exists_kind_map_iff (hi : i.kind.references = []) :
    (∃ j ∈ is.map (map f), j.kind = (i.map f).kind) ↔ ∃ j ∈ is, j.kind = i.kind := by
  simp only [List.mem_map, exists_exists_and_eq_and, kind_map, Kind.map_eq_map_iff hi]

theorem map_addMissing (hi : i.kind.references = []) : (addMissing i is).map (map f) =
    addMissing (i.map f) (is.map (map f)) := by
  simp only [addMissing, exists_kind_map_iff hi, apply_ite (List.map (map f)), List.map_append,
    List.map_singleton]

theorem map_insertMissing (hi : i.kind.references = []) : (insertMissing i is).map (map f) =
    insertMissing (i.map f) (is.map (map f)) := by
  simp only [insertMissing, exists_kind_map_iff hi, apply_ite (List.map (map f)),
    map_insertUnnamed]

end

end Inst

namespace Module

variable {m m' m'' : Module} {h : Handle} {s : Section}

def contents (m : Module) (s : Section) : List (Inst Handle) := (s.handles m).map m.inst

/-- What a section says, id by id. -/
def wires (m : Module) (s : Section) : List (Inst ResultId) := (s.handles m).map m.wire

def wireEntries (m : Module) : List (EntryPoint ResultId) :=
  m.entryPoints.map (EntryPoint.map m.idOf)

def wireFunctions (m : Module) : List (List (Inst ResultId)) :=
  m.functions.map fun f => f.handles.map m.wire

theorem wires_eq (m : Module) (s : Section) :
    m.wires s = (m.contents s).map (Inst.map m.idOf) := by
  rw [contents, List.map_map]
  rfl

theorem Agrees.wires_eq (h : m.Agrees m') (s : Section) : m.wires s = m'.wires s := h.sections s

theorem Agrees.wireEntries_eq (h : m.Agrees m') : m.wireEntries = m'.wireEntries := h.entryPoints

theorem Agrees.wireFunctions_eq (h : m.Agrees m') : m.wireFunctions = m'.wireFunctions :=
  h.functions

theorem Sound.wire_eq (hm : m.Sound) (hids : m.KeepsIds m') (hinst : m'.inst h = m.inst h) :
    m'.wire h = m.wire h := by
  rw [wire, hinst]
  exact hids.map_idOf fun r hr => (hm.references h r hr).isSome

theorem Sound.map_entry_eq (hm : m.Sound) (hids : m.KeepsIds m') {e : EntryPoint Handle}
    (he : e ∈ m.entryPoints) : e.map m'.idOf = e.map m.idOf :=
  EntryPoint.map_congr fun r hr => hids.idOf_eq (hm.entryReferences e he r hr).isSome

theorem Sound.not_mem_of_mem_handles (hm : m.Sound) (hh : h ∈ s.handles m) :
    (∀ t : Section, t ≠ s → h ∉ t.handles m) ∧ ∀ f ∈ m.functions, h ∉ f.handles := by
  constructor
  · intro t ht hh'
    exact ht ((hm.sections t h hh').1.symm.trans (hm.sections s h hh).1)
  · intro f hf hh'
    have hnodup := hm.nodup
    rw [listed_eq, List.nodup_append] at hnodup
    refine hnodup.2.2 h ?_ h (List.mem_flatMap.2 ⟨f, hf, hh'⟩) rfl
    exact List.mem_flatMap.2 ⟨s, by cases s <;> simp, hh⟩

theorem Sound.nodup_handles (hm : m.Sound) (s : Section) : (s.handles m).Nodup := by
  have hnodup := hm.nodup
  rw [listed_eq, List.nodup_append] at hnodup
  exact (List.nodup_flatMap.1 hnodup.1).1 s (by cases s <;> simp)

/-! ## Sections that are recast -/

/-- The sections have been recast, each by a rule of its own; functions and entry points stay
as they are. -/
structure Recasts (rule : Section → List (Inst Handle) → List (Inst Handle)) (m m' : Module) :
    Prop where
  version : m'.header.version = m.header.version
  generator : m'.header.generator = m.header.generator
  contents : ∀ s, m'.contents s = rule s (m.contents s)
  code : m.SameCode m'
  bodies : ∀ f ∈ m.functions, ∀ h ∈ f.handles, m'.inst h = m.inst h
  keepsIds : m.KeepsIds m'

namespace Recasts

variable {rule rule' : Section → List (Inst Handle) → List (Inst Handle)}

theorem trans (h₁ : Recasts rule m m') (h₂ : Recasts rule' m' m'') :
    Recasts (fun s => rule' s ∘ rule s) m m'' := by
  refine ⟨h₂.version.trans h₁.version, h₂.generator.trans h₁.generator, fun s => ?_,
    h₁.code.trans h₂.code, fun f hf h hh => ?_,
    fun h id hid => h₂.keepsIds h id (h₁.keepsIds h id hid)⟩
  · rw [h₂.contents, h₁.contents]
    rfl
  · rw [h₂.bodies f (by rwa [h₁.code.functions]) h hh, h₁.bodies f hf h hh]

theorem congr (hmm : Recasts rule m m')
    (heq : ∀ s, rule s (m.contents s) = rule' s (m.contents s)) : Recasts rule' m m' :=
  ⟨hmm.version, hmm.generator, fun s => (hmm.contents s).trans (heq s), hmm.code, hmm.bodies,
    hmm.keepsIds⟩

theorem refl (m : Module) (hrule : ∀ s, rule s (m.contents s) = m.contents s) :
    Recasts rule m m :=
  ⟨rfl, rfl, fun s => (hrule s).symm, .refl m, fun _ _ _ _ => rfl, fun _ _ => id⟩

/-- Rules that do not look at ids recast what is said as they recast what is listed. -/
theorem wires_eq (hmm : Recasts rule m m') (hm : m.Sound)
    {rule' : List (Inst ResultId) → List (Inst ResultId)}
    (hrule : (rule s (m.contents s)).map (Inst.map m'.idOf) =
      rule' ((m.contents s).map (Inst.map m'.idOf))) : m'.wires s = rule' (m.wires s) := by
  rw [Module.wires_eq, hmm.contents, hrule, Module.wires_eq]
  congr 1
  refine List.map_congr_left fun i hi => ?_
  obtain ⟨h, -, rfl⟩ := List.mem_map.1 hi
  exact hmm.keepsIds.map_idOf fun r hr => (hm.references h r hr).isSome

theorem wireEntries_eq (hmm : Recasts rule m m') (hm : m.Sound) :
    m'.wireEntries = m.wireEntries := by
  rw [wireEntries, hmm.code.entryPoints]
  exact List.map_congr_left fun e he => hm.map_entry_eq hmm.keepsIds he

theorem wireFunctions_eq (hmm : Recasts rule m m') (hm : m.Sound) :
    m'.wireFunctions = m.wireFunctions := by
  rw [wireFunctions, hmm.code.functions]
  exact List.map_congr_left fun f hf => List.map_congr_left fun h hh =>
    hm.wire_eq hmm.keepsIds (hmm.bodies f hf h hh)

end Recasts

def only (s : Section) (rule : List (Inst Handle) → List (Inst Handle)) :
    Section → List (Inst Handle) → List (Inst Handle) :=
  Function.update (fun _ => id) s rule

section

variable {rule : List (Inst Handle) → List (Inst Handle)}

theorem recasts_only_self (hrule : rule (m.contents s) = m.contents s) :
    Recasts (only s rule) m m := by
  refine .refl m fun t => ?_
  by_cases ht : t = s
  · subst ht
    rw [only, Function.update_self, hrule]
  · rw [only, Function.update_of_ne ht]
    rfl

theorem Recasts.congr_only {rule' : List (Inst Handle) → List (Inst Handle)}
    (hmm : Recasts (only s rule) m m') (heq : rule (m.contents s) = rule' (m.contents s)) :
    Recasts (only s rule') m m' := by
  refine hmm.congr fun t => ?_
  by_cases ht : t = s
  · subst ht
    rw [only, only, Function.update_self, Function.update_self, heq]
  · rw [only, only, Function.update_of_ne ht, Function.update_of_ne ht]

theorem Recasts.only_comp {rule' : List (Inst Handle) → List (Inst Handle)}
    (hmm : Recasts (fun t => only s rule' t ∘ only s rule t) m m') :
    Recasts (only s (rule' ∘ rule)) m m' := by
  refine hmm.congr fun t => ?_
  by_cases ht : t = s
  · subst ht
    simp only [only, Function.update_self]
  · simp only [only, Function.update_of_ne ht]
    rfl

theorem Sound.recasts_only (hm : m.Sound) {insts : Arena (Inst Handle)}
    {interned : List (Description × Handle)}
    (hids : ∀ g, (({ m with insts } : Module).inst g).resultId = (m.inst g).resultId)
    (hinst : ∀ g, g ∉ s.handles m → ({ m with insts } : Module).inst g = m.inst g)
    (hrule : (s.handles m).map ({ m with insts } : Module).inst = rule (m.contents s)) :
    Recasts (only s rule) m { m with insts, interned } := by
  have hhandles (t : Section) : t.handles { m with insts, interned } = t.handles m := by
    cases t <;> rfl
  refine ⟨rfl, rfl, fun t => ?_, ⟨rfl, rfl⟩, fun f hf h hh => ?_, fun g id hid => ?_⟩
  · rw [Module.contents, hhandles]
    by_cases ht : t = s
    · subst ht
      rw [only, Function.update_self]
      exact hrule
    · rw [only, Function.update_of_ne ht]
      exact List.map_congr_left fun g hg =>
        hinst g fun hg' => (hm.not_mem_of_mem_handles hg).1 s (Ne.symm ht) hg'
  · exact hinst h fun hh' => (hm.not_mem_of_mem_handles hh').2 f hf hh
  · exact (hids g).trans hid

theorem Puts.keepsIds {i : Inst Handle} (hp : m.Puts i h m') : m.KeepsIds m' := by
  intro g id hid
  rw [hp.inst_eq_of_ne (hp.ne_of_isSome (by rw [hid]; rfl))]
  exact hid

theorem Puts.recasts_only {m₁ : Module} {i : Inst Handle} (hp : m.Puts i h m₁) (hm : m.Sound)
    (hframe : m'.header = m₁.header ∧ m'.insts = m₁.insts ∧ m₁.SameCode m')
    (hothers : ∀ t : Section, t ≠ s → t.handles m' = t.handles m₁)
    (hrule : (s.handles m').map m₁.inst = rule (m.contents s)) : Recasts (only s rule) m m' := by
  obtain ⟨hheader, hinsts, hcode⟩ := hframe
  have hinst (g : Handle) : m'.inst g = m₁.inst g := by rw [inst, inst, hinsts]
  have hkept {g : Handle} (hg : g ∈ m.listed) : m'.inst g = m.inst g :=
    (hinst g).trans (hp.inst_eq_of_listed hm hg)
  have hstored : m₁.header.version = m.header.version ∧
      m₁.header.generator = m.header.generator ∧ m.SameCode m₁ := by
    obtain ⟨bound, ids, rfl⟩ := hp.frame
    exact ⟨rfl, rfl, rfl, rfl⟩
  refine ⟨?_, ?_, fun t => ?_, hstored.2.2.trans hcode, fun f hf g hg => ?_, fun g id hid => ?_⟩
  · rw [hheader, hstored.1]
  · rw [hheader, hstored.2.1]
  · by_cases ht : t = s
    · subst ht
      rw [only, Function.update_self, ← hrule]
      exact List.map_congr_left fun g _ => hinst g
    · rw [only, Function.update_of_ne ht, Module.contents, hothers t ht, hp.handles_eq]
      exact List.map_congr_left fun g hg => hkept (mem_listed.2 (.inl ⟨t, hg⟩))
  · exact hkept (mem_listed.2 (.inr ⟨f, hf, hg⟩))
  · rw [hinst]
    exact hp.keepsIds g id hid

theorem Puts.recasts_add {m₁ : Module} {i : Inst Handle} (hp : m.Puts i h m₁) (hm : m.Sound)
    (hs : s ≠ .memoryModel) : Recasts (only s (· ++ [i])) m (s.add h m₁) := by
  refine hp.recasts_only hm ⟨by simp, by simp, by simp, by simp⟩
    (fun t ht => by rw [Section.handles_add, if_neg ht.symm]) ?_
  rw [Section.handles_add, if_pos rfl, if_neg hs, List.map_append, List.map_singleton,
    hp.inst_self, hp.handles_eq]
  congr 1
  exact List.map_congr_left fun g hg => hp.inst_eq_of_listed hm (mem_listed.2 (.inl ⟨s, hg⟩))

end

/-! ## Modules that outgrow others -/

/-- What a module says is said by another one as well: there may be more annotations and
globals, more functions, and the given entry points. -/
structure Outgrows (entries : List (EntryPoint ResultId)) (m m' : Module) : Prop where
  version : m'.header.version = m.header.version
  generator : m'.header.generator = m.header.generator
  sections : ∀ s : Section, s ≠ .annotations → s ≠ .globals → m'.wires s = m.wires s
  annotations : ∀ is : List (Inst ResultId), is.Nodup → is <+: m.wires .annotations →
    is <+: m'.wires .annotations
  globals : m.wires .globals <+: m'.wires .globals
  entryPoints : m'.wireEntries = m.wireEntries ++ entries
  functions : m.wireFunctions <+: m'.wireFunctions

theorem Outgrows.trans {es es' : List (EntryPoint ResultId)} (h₁ : Outgrows es m m')
    (h₂ : Outgrows es' m' m'') : Outgrows (es ++ es') m m'' := by
  refine ⟨h₂.version.trans h₁.version, h₂.generator.trans h₁.generator,
    fun s hs hs' => (h₂.sections s hs hs').trans (h₁.sections s hs hs'),
    fun is his his' => h₂.annotations is his (h₁.annotations is his his'),
    h₁.globals.trans h₂.globals, ?_, h₁.functions.trans h₂.functions⟩
  rw [h₂.entryPoints, h₁.entryPoints, List.append_assoc]

theorem Agrees.outgrows (h : m.Agrees m') : Outgrows [] m' m := by
  refine ⟨congrArg Header.version h.header, congrArg Header.generator h.header,
    fun s _ _ => h.wires_eq s, fun is _ his => ?_, ?_, ?_, ?_⟩
  · rwa [h.wires_eq]
  · exact h.wires_eq .globals ▸ List.prefix_rfl
  · rw [h.wireEntries_eq, List.append_nil]
  · exact h.wireFunctions_eq ▸ List.prefix_rfl

theorem Continues.keepsIds (hmm : m.Continues m') : m.KeepsIds m' := by
  intro h id hid
  rwa [hmm.inst_eq (stored_of_resultId hid)]

theorem Continues.outgrows (hmm : m.Continues m') (hm : m.Sound) {es : List (EntryPoint Handle)}
    (hes : m'.entryPoints = m.entryPoints ++ es) :
    Outgrows (es.map (EntryPoint.map m'.idOf)) m m' := by
  have hwire {h : Handle} (hh : h ∈ m.listed) : m'.wire h = m.wire h :=
    hm.wire_eq hmm.keepsIds (hmm.inst_eq (hm.stored hh))
  have hsection (s : Section) : (s.handles m).map m'.wire = m.wires s :=
    List.map_congr_left fun h hh => hwire (mem_listed.2 (.inl ⟨s, hh⟩))
  have hleads {s : Section} (hs : s.handles m <+: s.handles m') : m.wires s <+: m'.wires s := by
    rw [← hsection]
    exact hs.map _
  refine ⟨hmm.version, hmm.generator, fun s hs hs' => ?_,
    fun is _ his => his.trans (hleads hmm.annotations), hleads hmm.globals, ?_, ?_⟩
  · rw [wires, hmm.sections s hs hs', hsection]
  · rw [wireEntries, hes, List.map_append]
    congr 1
    exact List.map_congr_left fun e he => hm.map_entry_eq hmm.keepsIds he
  · obtain ⟨fs, hfs, -⟩ := hmm.functions
    have hfunctions : (m.functions.map fun f => f.handles.map m'.wire) = m.wireFunctions :=
      List.map_congr_left fun f hf => List.map_congr_left fun h hh =>
        hwire (mem_listed.2 (.inr ⟨f, hf, hh⟩))
    rw [wireFunctions, wireFunctions, hfs, List.map_append, ← wireFunctions, ← hfunctions]
    exact List.prefix_append _ _

/-- Of repeated decorations the first stay where they are. -/
theorem outgrows_consolidate (m : Module) : Outgrows [] m m.consolidate := by
  refine ⟨rfl, rfl, fun s hs _ => ?_, fun is his hleads => ?_, List.prefix_rfl,
    (List.append_nil _).symm, List.prefix_rfl⟩
  · cases s <;> first | rfl | exact absurd rfl hs
  · rw [wires_eq] at hleads ⊢
    obtain ⟨rest, hrest⟩ := hleads
    obtain ⟨js, ks, hsplit, rfl, -⟩ := List.map_eq_append_iff.1 hrest.symm
    have hjs : js.eraseDups = js := eraseDupsBy_eq_self (f := id) (by simpa using his.of_map)
    change js.map (Inst.map m.idOf) <+: (m.consolidate.annotations.map m.inst).map
      (Inst.map m.idOf)
    rw [annotations_consolidate]
    change _ <+: (m.contents .annotations).eraseDups.map (Inst.map m.idOf)
    rw [hsplit, List.eraseDups_append, hjs, List.map_append]
    exact List.prefix_append _ _

end Module

end KernelGrid
