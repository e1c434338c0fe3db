import KernelGrid.Proofs.Kernel.HandleSafety
import KernelGrid.Proofs.Kernel.Numbering
import KernelGrid.Proofs.Kernel.Output
import KernelGrid.Proofs.Module.Resolution

/-!
# Ids that a lowering hands out

Every id that a record of a stream mentions is defined and below the bound of the header, and a
lowering hands out ids from the bound on.  The words behind the result of an instruction that
is not modelled are kept as they are: they may be ids that nothing defines, and only below the
bound are they safe.
-/

namespace KernelGrid

open KernelGrid.Module KernelGrid.Stream Relation

/-- What is not modelled is kept word for word: behind the result it may mention ids or hold
anything else. -/
theorem Item.operands_of_raw {bound : ResultId} {r : Record} {type result : Option ResultId}
    {op : Opcode} {words : List Word}
    (hread : Item.ofRecord bound r = .ok (.inst ⟨type, result, .raw op words⟩)) :
    r.operands = type.toList ++ result.toList ++ words := by
  obtain ⟨hreadable, hop, hwords⟩ := Item.readable_of_ofRecord hread
  obtain ⟨hform, hentry, -⟩ : (Kind.raw op words : Kind ResultId).Genuine := hreadable.genuine
  have hop : op = r.opcode := hop
  subst hop
  rw [Record.canonical] at hwords
  simp only [hform, if_neg hentry] at hwords
  rw [← hwords]
  exact (Inst.words_statement _).trans (by simp [Kind.operands])

namespace Module

variable {m m' : Module}

theorem bound_le_of_reload {w : List Word} (hencode : m.encode = .ok w)
    (hload : load w = .ok m') : m.header.bound ≤ m'.header.bound := by
  have hword := bound_of_encode hencode
  obtain ⟨d, hdecode, -, rfl⟩ := load_eq_ok.1 hload
  obtain ⟨version, generator, bound, schema, body, rfl, hheader, -⟩ := exists_decoded hdecode
  obtain rfl : bound = m.header.bound := Option.some.inj hword
  have hreintern : d.reintern.header.bound = max m.header.bound 1 :=
    congrArg Header.bound hheader
  rw [hreintern]
  exact Word.le_max_left _ _

theorem Operation.of_make {r : Request} {h : Handle} (hrun : r.make m = (h, m')) :
    Operation m m' := by
  have hop := Operation.request (m := m) r
  rwa [hrun] at hop

end Module

namespace Job

variable {job : Job} {m m' m₀ : Module}

theorem Step.operations (hstep : job.Step m m') : ReflTransGen Operation m m' := by
  cases hstep with
  | normalize =>
      rw [normalize_eq]
      exact (ReflTransGen.single (.pass .storageClass)).tail (.pass .consolidation)
  | preamble => exact .single .addComputePreamble
  | globalBlock => exact .single (.decorateGlobalBlock job.host)
  | entry => exact .single (.addEntry _)
  | consolidate => exact .single (.pass .consolidation)
  | metadata =>
      rcases hrun : declareMetadata m with ⟨var, m'⟩
      obtain ⟨metadata, m₁, hmetadata, hrun⟩ := edit_bind.1 hrun
      obtain ⟨word, m₂, hword, hrun⟩ := edit_bind.1 hrun
      obtain ⟨_, m₃, hzero, hrun⟩ := edit_bind.1 hrun
      obtain ⟨_, m₄, hone, hrun⟩ := edit_bind.1 hrun
      obtain ⟨_, m₅, hpointer, hrun⟩ := edit_bind.1 hrun
      obtain ⟨-, rfl⟩ := edit_pure.1 hrun
      have hbuffer : Operation m m₁ := by
        have hop := Operation.addMetadata (m := m)
        rwa [hmetadata] at hop
      have htyped := (ReflTransGen.single hbuffer).tail (.of_make (r := .int 32 false) hword)
      exact ((htyped.tail (.of_make (r := .constant word 0) hzero)).tail
        (.of_make (r := .constant word 1) hone)).tail
        (.of_make (r := .pointer .uniform word) hpointer)

theorem Passes.bound_le (hload : Module.load job.words = .ok m₀) (hm : job.Passes m) :
    m₀.header.bound ≤ m.header.bound := by
  induction hm with
  | load hload' =>
      obtain rfl := Except.ok.inj (hload.symm.trans hload')
      exact UInt32.le_refl _
  | step _ hstep ih =>
      exact UInt32.le_trans ih
        (renumbers_of_steps (steps_of_operations hstep.operations)).bound_le
  | reload _ hencode hreload ih => exact UInt32.le_trans ih (bound_le_of_reload hencode hreload)

/-- The ids that are handed out in the stages of a lowering, each of which is made of primitive
changes. -/
def HandsOut (job : Job) (id : ResultId) : Prop :=
  ∃ m m', job.Passes m ∧ ReflTransGen Primitive m m' ∧ id = (allocId m').1

theorem HandsOut.bound_le {id : ResultId} (hload : Module.load job.words = .ok m₀)
    (hid : job.HandsOut id) : m₀.header.bound ≤ id := by
  obtain ⟨m, m', hm, hsteps, rfl⟩ := hid
  exact UInt32.le_trans (hm.bound_le hload) (renumbers_of_steps hsteps).bound_le

/-- In a stream that is accepted everything that is looked at is defined, and a lowering hands
out no id that is looked at, nor one that is only kept, unless the latter is beyond the bound
of the header. -/
theorem not_handsOut_of_load (hload : Module.load job.words = .ok m) :
    ∃ version generator bound schema body,
      job.words = magic :: version :: generator :: bound :: schema :: body ∧ ∃ records,
      Record.split ⟨Stream.headerWords, body⟩ = (records, none) ∧
      ∃ item : Record → Item ResultId,
      (∀ r ∈ records, Item.ofRecord (max bound 1) r = .ok (item r)) ∧
      (∀ r ∈ records, ∀ id ∈ (item r).references, ∃ d ∈ records, (item d).result? = some id) ∧
      (∀ r ∈ records, ∀ id ∈ (item r).mentions, ¬job.HandsOut id) ∧
      ∀ r ∈ records, ∀ type result op words, item r = .inst ⟨type, result, .raw op words⟩ →
        r.operands = type.toList ++ result.toList ++ words ∧
          ∀ word ∈ words, word < max bound 1 → ¬job.HandsOut word := by
  obtain ⟨d, hdecode, hall, hm⟩ := load_eq_ok.1 hload
  obtain ⟨version, generator, bound, schema, body, hw, -, records, hsplit, item, hd⟩ :=
    exists_endOf hdecode
  obtain ⟨hheader, origin, hN⟩ := hd.named
  have hbound : m.header.bound = max bound 1 := by
    rw [hm]
    exact congrArg Header.bound hheader
  have hfresh {id : ResultId} (hid : id < max bound 1) : ¬job.HandsOut id := fun hout =>
    absurd (hbound ▸ hout.bound_le hload) (UInt32.not_le.2 hid)
  refine ⟨version, generator, bound, schema, body, hw, records, hsplit, item, hd.read,
    fun r hr id hid => ?_, fun r hr id hid => hfresh (hd.mentions_below r hr id hid).2,
    fun r hr type result op words hitem => ⟨?_, fun word _ => hfresh⟩⟩
  · by_contra hnone
    have hdangling : Dangling records item id :=
      ⟨⟨r, hr, hid⟩, fun d hd hresult => hnone ⟨d, hd, hresult⟩⟩
    rw [← hN.mem_undefinedIds_iff, hall] at hdangling
    cases hdangling
  · exact Item.operands_of_raw (hitem ▸ hd.read r hr)

/-- A function that copies what nothing defines: the copy is of an id below the bound. -/
def undefinedCopy : Job where
  words :=
    [magic, 0x10000, 0, 8, 0, 0x20013, 1, 0x40015, 2, 32, 0, 0x30021, 3, 1, 0x50036, 1, 4, 0, 3,
    0x200f8, 5, 0x40053, 2, 6, 7, 0x100fd, 0x10038]
  kernels := []
  host := .bare
  validates := false

theorem not_handsOut_of_load_undefinedCopy : ∃ m, Module.load undefinedCopy.words = .ok m ∧
    ¬undefinedCopy.HandsOut 6 ∧ ¬undefinedCopy.HandsOut 7 := by
  have hok : (Module.load undefinedCopy.words).toBool = true := by decide +kernel
  cases hload : Module.load undefinedCopy.words with
  | error e =>
      rw [hload] at hok
      cases hok
  | ok m =>
      obtain ⟨version, generator, bound, schema, body, hw, records, hsplit, item, hread, -,
        hmentions, hraw⟩ := not_handsOut_of_load hload
      simp only [undefinedCopy, List.cons.injEq] at hw
      obtain ⟨-, rfl, rfl, rfl, rfl, rfl⟩ := hw
      let r : Record := ⟨21, 83, [2, 6, 7]⟩
      have hr : r ∈ records := by
        have hrecords : (Record.split ⟨Stream.headerWords, _⟩).1 = records :=
          congrArg Prod.fst hsplit
        rw [← hrecords]
        decide +kernel
      have hitem : item r = .inst ⟨some 2, some 6, .raw 83 [7]⟩ := by
        have hread := hread r hr
        have hcopy : Item.ofRecord (max 8 1) r = .ok (.inst ⟨some 2, some 6, .raw 83 [7]⟩) := by
          decide +kernel
        exact (Except.ok.inj (hcopy.symm.trans hread)).symm
      refine ⟨m, rfl, hmentions r hr 6 ?_, (hraw r hr _ _ _ _ hitem).2 7 (by simp) (by decide)⟩
      rw [hitem]
      decide

def copyOpcode : Opcode := 83

def capturingCopy : Job where
  words :=
    [magic, 0x10000, 0, 8, 0, 0x20013, 1, 0x40015, 2, 32, 0, 0x30021, 3, 1, 0x50036, 1, 4, 0, 3,
    0x200f8, 5, 0x40053, 2, 6, 8, 0x100fd, 0x10038]
  kernels := []
  host := .bare
  validates := false

/-- What is copied is not looked at: it need not be defined, and a lowering may define it. -/
theorem not_defined_capturingCopy :
    (¬∀ (job : Job) (m : Module), Module.load job.words = .ok m → ∀ h ∈ m.listed, ∀ id,
      m.kindOf h = .raw copyOpcode [id] → ∃ g ∈ m.listed, (m.inst g).resultId = some id) ∧
    ¬∀ (job : Job) (m : Module), Module.load job.words = .ok m → ∀ h ∈ m.listed, ∀ id,
      m.kindOf h = .raw copyOpcode [id] → ¬job.HandsOut id := by
  have hread : (Module.load capturingCopy.words).toOption.map (fun m =>
      (m.header.bound, m.listed.any fun h => m.kindOf h = .raw copyOpcode [8],
        m.listed.all fun g => (m.inst g).resultId ≠ some 8)) = some (8, true, true) := by
    decide +kernel
  cases hload : Module.load capturingCopy.words with
  | error e =>
      rw [hload] at hread
      cases hread
  | ok m =>
      rw [hload] at hread
      obtain ⟨hbound, ⟨h, hh, hcopy⟩, hundefined⟩ := by
        simpa only [Except.toOption, Option.map_some, Option.some.injEq, Prod.mk.injEq,
          List.any_eq_true, List.all_eq_true, decide_eq_true_eq] using hread
      have hout : capturingCopy.HandsOut 8 := ⟨m, m, .load hload, .refl, hbound.symm⟩
      refine ⟨fun hall => ?_, fun hall => hall _ m hload h hh 8 hcopy hout⟩
      obtain ⟨g, hg, hid⟩ := hall _ m hload h hh 8 hcopy
      exact hundefined g hg hid

end Job

end KernelGrid
