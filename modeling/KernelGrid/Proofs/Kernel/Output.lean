import KernelGrid.Proofs.Kernel.Stages
import KernelGrid.Proofs.Module.Settling

/-!
# The output of a lowering

What a lowering without transformations produces is in the form in which it is written again,
and it is accepted again as long as its ids are in range.
-/

namespace KernelGrid

open KernelGrid.Module

/-! ## Sound stages -/

theorem AddsEntries.sound {ks : List Kernel} {m m' : Module} (hadds : AddsEntries ks m m')
    (hm : m.Sound) : m'.Sound :=
  hadds.keeps hm fun _ k hm => hm.addEntry k

theorem Module.Sound.addComputePreamble {m : Module} (hm : m.Sound) :
    (addComputePreamble m).2.Sound := keeps_addComputePreamble.state hm

theorem Module.Sound.decorateGlobalBlock {m m' : Module} {host : Host} {outcome : BlockOutcome}
    (hm : m.Sound) (hrun : Runs (decorateGlobalBlock host) m outcome m') : m.Edited m' :=
  hrun.state_eq ▸ (keeps_decorateGlobalBlock host).state hm.edited

theorem Module.Sound.declareMetadata {m : Module} (hm : m.Sound) :
    m.Edited (declareMetadata m).2 := keeps_declareMetadata.state hm.edited

namespace Job

variable {job : Job} {m p m' n : Module} {out : List Word}

theorem Prepares.sound (hp : job.Prepares m p) (hm : m.Sound) : p.Sound := by
  obtain ⟨outcome, m₃, m₄, hdecorate, hadds, rfl⟩ := hp.stages
  have hpreamble := hm.normalize.sound.addComputePreamble
  exact (hadds.sound (hpreamble.decorateGlobalBlock hdecorate).sound).consolidate.sound

end Job

/-! ## Settled stages -/

namespace Module

variable {m m' : Module}

theorem Settled.consolidate (hm : m.Settled) : m.consolidate.Settled := hm

theorem Edited.settled (he : m.Edited m') (hm : m.Sound) (hsettled : m.Settled) :
    m'.Settled := by
  have hmodes : m'.executionModes = m.executionModes :=
    he.continues.sections .executionModes (by decide) (by decide)
  intro h hh function x y z hkind e hentry
  rw [hmodes] at hh
  rw [he.code.entryPoints] at hentry
  have hstored := hm.stored (mem_listed.2 (.inl ⟨.executionModes, hh⟩))
  rw [he.continues.kindOf_eq hstored] at hkind
  exact hsettled h hh function x y z hkind e hentry

/-- What is read of what was written of a sound module is sound and settled. -/
theorem Sound.load_encode (hm : m.Sound) {w : List Word} (hencode : m.encode = .ok w)
    (hload : load w = .ok m') : m'.Sound ∧ m'.Settled := by
  obtain ⟨d, hdecode, -, rfl⟩ := load_eq_ok.1 hload
  have hsettled := hm.settled_of_decode hencode hdecode
  exact ⟨sound_of_load hload, hsettled⟩

theorem bound_of_encode {w : List Word} (hencode : m.encode = .ok w) :
    w[3]? = some m.header.bound := by
  rw [encode_eq_ok (fits_of_encode hencode), Except.ok.injEq] at hencode
  rw [← hencode]
  rfl

theorem bound_le_of_load {w : List Word} (hload : load w = .ok m) :
    ∀ bound ∈ w[3]?, bound ≤ maxIdBound := by
  obtain ⟨d, hdecode, -, -⟩ := load_eq_ok.1 hload
  obtain ⟨version, generator, bound, schema, body, rfl, hbound, -⟩ := exists_endOf hdecode
  rintro _ ⟨⟩
  exact hbound

end Module

namespace Job

variable {job : Job} {m p m' n : Module} {out : List Word}

theorem Lowers.result (hl : job.Lowers m p m' n out) : n.Sound ∧ n.Settled := by
  obtain ⟨words, hencode, hreload⟩ := hl.reload
  have hp := hl.prepares.sound (sound_of_load hl.load)
  obtain ⟨hm', hsettled⟩ := hp.load_encode hencode hreload
  have hedited := hm'.declareMetadata
  rw [hl.completes]
  exact ⟨hedited.sound.consolidate.sound, (hedited.settled hm' hsettled).consolidate⟩

/-- What a lowering produced is written as it was read, if it is accepted. -/
theorem encode_of_load_lower (hlower : (job.lower .passThrough).1 = .ok out)
    (hload : Module.load out = .ok m) : m.encode = .ok out := by
  obtain ⟨m₀, p, m', n, hl⟩ := exists_lowers hlower
  obtain ⟨hn, hsettled⟩ := hl.result
  have hbound := bound_le_of_load hload _ (bound_of_encode hl.encode)
  obtain ⟨d, hdecode, -, rfl⟩ := load_eq_ok.1 hload
  obtain ⟨d', hdecode', hagrees⟩ := (hn.regular hbound hsettled).exists_agrees hl.encode
  obtain rfl := Except.ok.inj (hdecode.symm.trans hdecode')
  exact hagrees.encode_eq.trans hl.encode

/-- A kernel without arguments, declared only; it is also an entry point, and the size of its
work group stands in front of that. -/
def enteredKernel : Job where
  words := [Stream.magic, 0x10000, 0, 4, 0, 0x60010, 3, 17, 4, 1, 1,
    0x5000f, 5, 3, 0x6e69616d, 0, 0x30005, 3, 0x66, 0x20013, 1, 0x30021, 2, 1,
    0x50036, 1, 3, 0, 2, 0x10038]
  kernels := [⟨"f", .kernel, 0⟩]
  host := .bare
  validates := true

theorem lower_enteredKernel : (enteredKernel.lower .passThrough).1.toOption.map
    (fun out => (out[3]?, (Module.load out).toBool)) = some (some 17, true) := by
  decide +kernel

/-- The size is joined to its entry point between the two readings. -/
theorem encode_of_load_lower_enteredKernel :
    ∃ out m, (enteredKernel.lower .passThrough).1 = .ok out ∧ Module.load out = .ok m ∧
      m.encode = .ok out := by
  have hok := lower_enteredKernel
  cases hlower : (enteredKernel.lower .passThrough).1 with
  | error e =>
      rw [hlower] at hok
      cases hok
  | ok out =>
      rw [hlower] at hok
      obtain ⟨-, hloads⟩ := Prod.mk.inj (Option.some.inj hok)
      cases hload : Module.load out with
      | error e =>
          rw [hload] at hloads
          cases hloads
      | ok m => exact ⟨out, m, rfl, hload, encode_of_load_lower hlower hload⟩

/-- What a lowering produced is accepted if its bound is in range. -/
theorem exists_load_lower (hlower : (job.lower .passThrough).1 = .ok out)
    (hbound : ∀ bound ∈ out[3]?, bound ≤ maxIdBound) : ∃ m, Module.load out = .ok m := by
  obtain ⟨m₀, p, m', n, hl⟩ := exists_lowers hlower
  obtain ⟨hn, hsettled⟩ := hl.result
  have hle := hbound _ (bound_of_encode hl.encode)
  obtain ⟨d, r, hdecode, hresolve, -⟩ := (hn.regular hle hsettled).exists_resolved hl.encode
    (hn.defines_of_mem_mentions hle)
  refine ⟨r, ?_⟩
  rw [Module.load, hdecode]
  exact mapError_eq_ok.2 hresolve

/-- The new entry point and the metadata take 13 ids. -/
theorem exists_load_lower_enteredKernel :
    ∃ out, (enteredKernel.lower .passThrough).1 = .ok out ∧ out[3]? = some 17 ∧
      ∃ m, Module.load out = .ok m := by
  have hbound := lower_enteredKernel
  cases hlower : (enteredKernel.lower .passThrough).1 with
  | error e =>
      rw [hlower] at hbound
      cases hbound
  | ok out =>
      rw [hlower] at hbound
      obtain ⟨hfirst, -⟩ := Prod.mk.inj (Option.some.inj hbound)
      refine ⟨out, rfl, hfirst, exists_load_lower hlower ?_⟩
      rw [hfirst]
      rintro _ ⟨⟩
      decide

def nearLimit : Job where
  words := [Stream.magic, 0x10000, 0, 4194302, 0]
  kernels := []
  host := .bare
  validates := false

/-- The ids of the metadata are not checked against the limit: near it, what a lowering
produced is not accepted. -/
theorem not_load_lower_nearLimit : ¬∀ (job : Job) (m : Module) (out : List Word),
    Module.load job.words = .ok m → (job.lower .passThrough).1 = .ok out →
      ∃ n, Module.load out = .ok n := by
  intro hall
  have hload : (Module.load nearLimit.words).toBool = true := by decide +kernel
  have hrejected : (nearLimit.lower .passThrough).1.toOption.map
      (fun out => (Module.load out).toBool) = some false := by
    decide +kernel
  cases hm : Module.load nearLimit.words with
  | error e =>
      rw [hm] at hload
      cases hload
  | ok m =>
      cases hlower : (nearLimit.lower .passThrough).1 with
      | error e =>
          rw [hlower] at hrejected
          cases hrejected
      | ok out =>
          obtain ⟨n, hn⟩ := hall nearLimit m out hm hlower
          rw [hlower] at hrejected
          change some (Module.load out).toBool = some false at hrejected
          rw [hn] at hrejected
          cases hrejected

end Job

end KernelGrid
