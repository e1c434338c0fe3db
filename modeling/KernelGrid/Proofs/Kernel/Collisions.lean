import KernelGrid.Proofs.Kernel.Slots

/-!
# Collisions of slots

Two variables of a lowered module share a slot exactly if one of them goes by its name, the
other one is declared, and both are at the same place of their parts.
-/

namespace KernelGrid

open KernelGrid.Module

variable {job : Job} {k : Kernel} {m p q : Module} {out : List Word} {r : Roles}

namespace Job

/-- Whether what is bound has its roles in the lowering of a kernel, and two variables collide
exactly if their roles meet. -/
def SharesSlots (job : Job) (k : Kernel) (m q : Module) : Prop :=
  ∃ r : Roles, q.Assigns job.host r ∧ r.Serve k m ∧ r.metadata.isSome ∧
    ∀ v w, v ≠ w → (q.Collide v w ↔ r.Meets v w ∨ r.Meets w v)

theorem sharesSlots_of_assigns (hq : q.Assigns job.host r) (hserve : r.Serve k m)
    (hmetadata : r.metadata.isSome) (hfew : r.Few) : job.SharesSlots k m q :=
  ⟨r, hq, hserve, hmetadata, fun _ _ hne => hq.collide_iff.trans (Roles.shares_iff hfew hne)⟩

/-- Up to the first reading everything has a role but the metadata. -/
theorem Prepares.assigns (hp : job.Prepares m p) (hm : m.Sound) (hkernels : job.kernels = [k])
    (hunbound : ∀ var words, .decorate var .binding words ∉ m.notes)
    (hdistinct : ((globalBlockName :: job.host.allocations.getD []).map m.findNamed?).Nodup) :
    ∃ r : Roles, p.Assigns job.host r ∧ r.Serve k m ∧ r.metadata = none := by
  obtain ⟨outcome, m₂, m₃, m₄, hreadied, hsound₂, hdecorate, hadds, rfl⟩ := hp.exists_readied hm
  have hbinds₂ : m₂.Binds [] := by
    refine ⟨fun var words => ?_, by simp, .nil⟩
    simp [hreadied.notes, hunbound]
  have hnamed : m₂.findNamed? = m.findNamed? := funext hreadied.named
  have hedited := hsound₂.decorateGlobalBlock hdecorate
  obtain ⟨block, allocations, hm₃⟩ :=
    hbinds₂.decorateGlobalBlock hsound₂ (by rwa [hnamed]) hdecorate
  have hskipped : k.Skipped m₃ ↔ k.Skipped m := by
    rw [Kernel.Skipped, Kernel.Skipped, hedited.continues.findFunction?_eq hsound₂,
      hreadied.functions]
  rw [hkernels] at hadds
  cases hadds with
  | cons hrun hrest =>
      cases hrest with
      | nil =>
          obtain ⟨inputs, output, hm₄, hserve⟩ := hm₃.addEntry hedited.sound hrun
          refine ⟨_, hm₄.consolidate, ?_, rfl⟩
          simpa only [Roles.Serve, hskipped] using hserve

/-- In a lowered module, and in what is read of it, variables share slots exactly where the
numbers of the two parts overlap, if nothing was bound before and the host names different
variables. -/
theorem sharesSlots_of_lower (hload : Module.load job.words = .ok m)
    (hkernels : job.kernels = [k])
    (hunbound : ∀ var words, .decorate var .binding words ∉ m.notes)
    (hdistinct : ((globalBlockName :: job.host.allocations.getD []).map m.findNamed?).Nodup)
    (hlower : (job.lower .passThrough).1 = .ok out) :
    ∃ n, n.encode = .ok out ∧ job.SharesSlots k m n ∧
      ∀ q, Module.load out = .ok q → job.SharesSlots k m q := by
  obtain ⟨_, p, m', n, hl⟩ := exists_lowers hlower
  obtain rfl := Except.ok.inj (hload.symm.trans hl.load)
  have hm := sound_of_load hload
  obtain ⟨r, hp, hserve, hnone⟩ := hl.prepares.assigns hm hkernels hunbound hdistinct
  obtain ⟨words, hencode, hreload⟩ := hl.reload
  have hpaired := ((hl.prepares.sound hm).reloads hencode hreload).paired
  obtain ⟨f, hf⟩ := hpaired.exists_twins_map
  have hm' := hpaired.assigns hf hp
  obtain ⟨metadata, hn⟩ :=
    Assigns.declareMetadata hm' hpaired.sound' (by rw [Roles.map, hnone]; rfl)
  let s : Roles := { r.map f with metadata := some metadata }
  have hserves : s.Serve k m := hserve.map f
  -- only what is read has ids in range: the metadata may be given ids beyond
  have hfew' := hm'.few hpaired.sound' hpaired.bound_le'
  have hfew : s.Few := ⟨hfew'.allocations, hfew'.inputs⟩
  have hn : n.Assigns job.host s := hl.completes ▸ hn.consolidate
  refine ⟨n, hl.encode, sharesSlots_of_assigns hn hserves rfl hfew, fun q hq => ?_⟩
  have hpaired' := (hl.result.1.reloads hl.encode hq).paired
  obtain ⟨g, hg⟩ := hpaired'.exists_twins_map
  exact sharesSlots_of_assigns (hpaired'.assigns hg hn) (hserves.map g) rfl (hfew.map g)

def crowdedKernel : Job where
  words := [Stream.magic, 0x10000, 0, 11, 0, 0x50005, 4, 0x50475f5f, 0x6f6c4255, 0x6b63,
    0x30005, 5, 0x61, 0x30005, 7, 0x66, 0x40015, 1, 32, 0, 0x3001e, 2, 1, 0x40020, 3, 7, 2,
    0x4003b, 3, 4, 7, 0x4003b, 3, 5, 7, 0x50021, 6, 1, 1, 1, 0x50036, 1, 7, 0, 6, 0x30037, 1, 8,
    0x30037, 1, 9, 0x200f8, 10, 0x200fe, 8, 0x10038]
  kernels := [⟨"f", (Signature.kernel.union .input).union .output, 2⟩]
  host := ⟨some (.struct [0]), some ["a"]⟩
  validates := false

theorem exists_load_crowdedKernel : ∃ m, Module.load crowdedKernel.words = .ok m ∧
    (∀ var words, .decorate var .binding words ∉ m.notes) ∧
    ((globalBlockName :: crowdedKernel.host.allocations.getD []).map m.findNamed?).Nodup := by
  have hread : (Module.load crowdedKernel.words).toOption.map
      (fun m => (m.notes, m.findNamed? globalBlockName, m.findNamed? "a")) =
        some ([], some ⟨0⟩, some ⟨2⟩) := by
    decide +kernel
  obtain ⟨m, hload, hread⟩ := exists_of_map_toOption hread
  obtain ⟨hnotes, hread⟩ := Prod.mk.inj hread
  obtain ⟨hblock, hbacked⟩ := Prod.mk.inj hread
  refine ⟨m, hload, by simp [hnotes], ?_⟩
  change [m.findNamed? globalBlockName, m.findNamed? "a"].Nodup
  rw [hblock, hbacked]
  decide

theorem exists_lower_crowdedKernel : ∃ out q, (crowdedKernel.lower .passThrough).1 = .ok out ∧
    Module.load out = .ok q ∧ q.IsAt ⟨11⟩ 0 0 ∧ q.IsAt ⟨49⟩ 0 0 := by
  have hread : (crowdedKernel.lower .passThrough).1.toOption.map (fun out =>
      (Module.load out).toOption.map fun q => [⟨11⟩, ⟨49⟩].map fun v : Handle =>
        (q.decorations v .descriptorSet, q.decorations v .binding)) =
      some (some [([[0]], [[0]]), ([[0]], [[0]])]) := by
    decide +kernel
  obtain ⟨out, hlower, hread⟩ := exists_of_map_toOption hread
  obtain ⟨q, hload, hread⟩ := exists_of_map_toOption hread
  obtain ⟨⟨hset, hslot⟩, hset', hslot'⟩ := by
    simpa only [List.map_cons, List.map_nil, List.cons.injEq, Prod.mk.injEq,
      and_true] using hread
  exact ⟨out, q, hlower, hload, ⟨⟨[0], by simp [hset], rfl⟩, [0], by simp [hslot], rfl⟩,
    ⟨[0], by simp [hset'], rfl⟩, [0], by simp [hslot'], rfl⟩

theorem sharesSlots_of_lower_crowdedKernel : ∃ m k out, Module.load crowdedKernel.words = .ok m ∧
    crowdedKernel.kernels = [k] ∧ (∀ var words, .decorate var .binding words ∉ m.notes) ∧
    ((globalBlockName :: crowdedKernel.host.allocations.getD []).map m.findNamed?).Nodup ∧
    (crowdedKernel.lower .passThrough).1 = .ok out ∧ ∃ n, n.encode = .ok out ∧
      crowdedKernel.SharesSlots k m n ∧ ∀ q, Module.load out = .ok q →
      crowdedKernel.SharesSlots k m q := by
  obtain ⟨m, hload, hunbound, hdistinct⟩ := exists_load_crowdedKernel
  obtain ⟨out, -, hlower, -⟩ := exists_lower_crowdedKernel
  exact ⟨m, _, out, hload, rfl, hunbound, hdistinct, hlower,
    sharesSlots_of_lower hload rfl hunbound hdistinct hlower⟩

/-- The global block and the metadata are bound to the same slot. -/
theorem not_apart_crowdedKernel :
    ¬∀ (job : Job) (k : Kernel) (m : Module) (out : List Word) (q : Module),
    Module.load job.words = .ok m → job.kernels = [k] →
      (∀ var words, .decorate var .binding words ∉ m.notes) →
      ((globalBlockName :: job.host.allocations.getD []).map m.findNamed?).Nodup →
      (job.lower .passThrough).1 = .ok out → Module.load out = .ok q →
      ∀ v w, v ≠ w → ¬q.Collide v w := by
  intro hall
  obtain ⟨m, hload, hunbound, hdistinct⟩ := exists_load_crowdedKernel
  obtain ⟨out, q, hlower, hq, hblock, hmetadata⟩ := exists_lower_crowdedKernel
  exact hall crowdedKernel _ m out q hload rfl hunbound hdistinct hlower hq ⟨11⟩ ⟨49⟩ (by decide)
    ⟨0, 0, hblock, hmetadata⟩

end Job

end KernelGrid
