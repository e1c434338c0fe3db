import KernelGrid.Proofs.Kernel.GlobalBlock
import KernelGrid.Proofs.Kernel.Metadata
import KernelGrid.Proofs.Kernel.Reloading
import KernelGrid.Proofs.Kernel.Stages

/-!
# Slots of variables

A lowering binds variables that it is told of by name and variables that it declares.  Each of
the two counts its slots by itself.
-/

namespace KernelGrid

open KernelGrid.Module

/-! ## Roles -/

/-- The variables that are bound when a kernel is lowered, as far as that has come: the global
block and what is backed by allocations, which go by their names, and what is declared. -/
structure Roles where
  block : Option Handle
  allocations : List Handle
  inputs : List Handle
  output : Option Handle
  metadata : Option Handle

/-- The names of what a host backs by allocations, where there is a global block for it to lay
out. -/
def Host.backed (host : Host) : List String :=
  match host.layout with
  | some (.struct _) => host.allocations.getD []
  | _ => []

namespace Roles

variable {r : Roles} {var v w : Handle} {binding : Word}

def namedSlots (r : Roles) : List (Handle × Word) :=
  r.block.toList.map (·, metadataBinding) ++ slotsFrom firstAllocationBinding 0 r.allocations

def declaredSlots (r : Roles) : List (Handle × Word) :=
  slotsFrom firstInputBinding 0 r.inputs ++ r.output.toList.map (·, outputBinding) ++
    r.metadata.toList.map (·, metadataBinding)

def slots (r : Roles) : List (Handle × Word) := r.namedSlots ++ r.declaredSlots

def named? (r : Roles) : Nat → Option Handle
  | 0 => r.block
  | n + 3 => r.allocations[n]?
  | _ => none

def declared? (r : Roles) : Nat → Option Handle
  | 0 => r.metadata
  | 1 => r.output
  | n + 2 => r.inputs[n]?

/-- Whether two variables have roles with the same place: the global block and the metadata, or
what is backed by an allocation and the input that is one further. -/
def Meets (r : Roles) (v w : Handle) : Prop :=
  r.block = some v ∧ r.metadata = some w ∨
    ∃ j, r.allocations[j]? = some v ∧ r.inputs[j + 1]? = some w

theorem meets_iff : r.Meets v w ↔ ∃ n, r.named? n = some v ∧ r.declared? n = some w := by
  refine ⟨?_, ?_⟩
  · rintro (h | ⟨j, h⟩)
    · exact ⟨0, h⟩
    · exact ⟨j + 3, h⟩
  · rintro ⟨_ | _ | _ | j, hnamed, hdeclared⟩
    · exact .inl ⟨hnamed, hdeclared⟩
    · cases hnamed
    · cases hnamed
    · exact .inr ⟨j, hnamed, hdeclared⟩

structure Few (r : Roles) : Prop where
  allocations : r.allocations.length ≤ maxIdBound.toNat
  inputs : r.inputs.length ≤ maxIdBound.toNat

theorem toNat_add {first : Word} {i : Nat} (hfirst : first.toNat ≤ 3)
    (hi : i ≤ maxIdBound.toNat) : (first + i.toUInt32).toNat = first.toNat + i := by
  have hbound : maxIdBound.toNat = 4194303 := rfl
  rw [UInt32.toNat_add, Nat.toUInt32_eq,
    UInt32.toNat_ofNat_of_lt' (by simp [UInt32.size]; omega)]
  omega

theorem mem_slotsFrom {first : Word} {vars : List Handle} (hfirst : first.toNat ≤ 3)
    (hfew : vars.length ≤ maxIdBound.toNat) : (var, binding) ∈ slotsFrom first 0 vars ↔
      first.toNat ≤ binding.toNat ∧ vars[binding.toNat - first.toNat]? = some var := by
  have hle {i : Nat} (hi : vars[i]? = some var) : i ≤ maxIdBound.toNat :=
    (List.getElem?_eq_some_iff.1 hi).1.le.trans hfew
  simp only [slotsFrom, List.mem_map, Prod.exists, List.mem_zipIdx_iff_getElem?, Prod.mk.injEq]
  constructor
  · rintro ⟨_, i, hi, rfl, rfl⟩
    rw [toNat_add hfirst (hle hi)]
    exact ⟨Nat.le_add_right _ _, by rwa [Nat.add_sub_cancel_left]⟩
  · rintro ⟨hbinding, hi⟩
    refine ⟨var, _, hi, rfl, UInt32.toNat_inj.1 ?_⟩
    rw [toNat_add hfirst (hle hi), Nat.add_sub_cancel' hbinding]

theorem mem_toList_map {o : Option Handle} {b : Word} :
    (var, binding) ∈ o.toList.map (·, b) ↔ binding = b ∧ o = some var := by
  cases o <;> simp [eq_comm, and_comm]

theorem mem_namedSlots (hfew : r.Few) :
    (var, binding) ∈ r.namedSlots ↔ r.named? binding.toNat = some var := by
  rw [namedSlots, List.mem_append, mem_toList_map, mem_slotsFrom (by decide) hfew.allocations,
    ← UInt32.toNat_inj]
  change binding.toNat = 0 ∧ _ ∨ 3 ≤ binding.toNat ∧ r.allocations[binding.toNat - 3]? = _ ↔ _
  rcases binding.toNat with _ | _ | _ | n <;> simp [named?]

theorem mem_declaredSlots (hfew : r.Few) :
    (var, binding) ∈ r.declaredSlots ↔ r.declared? binding.toNat = some var := by
  rw [declaredSlots, List.mem_append, List.mem_append, mem_toList_map, mem_toList_map,
    mem_slotsFrom (by decide) hfew.inputs, ← UInt32.toNat_inj, ← UInt32.toNat_inj]
  change (2 ≤ binding.toNat ∧ r.inputs[binding.toNat - 2]? = _ ∨ binding.toNat = 1 ∧ _) ∨
    binding.toNat = 0 ∧ _ ↔ _
  rcases binding.toNat with _ | _ | n <;> simp [declared?]

theorem Few.exists_toNat_eq (hfew : r.Few) {n : Nat} (hn : r.named? n = some var) :
    ∃ binding : Word, binding.toNat = n := by
  have hlt : n < 2 ^ 32 := by
    have hbound : maxIdBound.toNat = 4194303 := rfl
    rcases n with _ | _ | _ | j
    · omega
    · omega
    · omega
    · have hj := (List.getElem?_eq_some_iff.1 hn).1
      have hlength := hfew.allocations
      omega
  exact ⟨n.toUInt32, by rw [Nat.toUInt32_eq, UInt32.toNat_ofNat_of_lt' hlt]⟩

/-- Two variables share a slot exactly if their roles have the same place. -/
theorem shares_iff (hfew : r.Few) (hne : v ≠ w) :
    (∃ binding, (v, binding) ∈ r.slots ∧ (w, binding) ∈ r.slots) ↔ r.Meets v w ∨
      r.Meets w v := by
  simp only [meets_iff, slots, List.mem_append, mem_namedSlots hfew, mem_declaredSlots hfew]
  constructor
  · rintro ⟨binding, hv | hv, hw | hw⟩
    · exact absurd (Option.some.inj (hv.symm.trans hw)) hne
    · exact .inl ⟨_, hv, hw⟩
    · exact .inr ⟨_, hw, hv⟩
    · exact absurd (Option.some.inj (hv.symm.trans hw)) hne
  · rintro (⟨n, hv, hw⟩ | ⟨n, hw, hv⟩)
    · obtain ⟨binding, rfl⟩ := hfew.exists_toNat_eq hv
      exact ⟨binding, .inl hv, .inr hw⟩
    · obtain ⟨binding, rfl⟩ := hfew.exists_toNat_eq hw
      exact ⟨binding, .inr hv, .inl hw⟩

def map (f : Handle → Handle) (r : Roles) : Roles :=
  ⟨r.block.map f, r.allocations.map f, r.inputs.map f, r.output.map f, r.metadata.map f⟩

theorem slots_map (f : Handle → Handle) (r : Roles) :
    (r.map f).slots = r.slots.map (Prod.map f id) := by
  have hfrom (first : Word) (vars : List Handle) :
      slotsFrom first 0 (vars.map f) = (slotsFrom first 0 vars).map (Prod.map f id) := by
    rw [slotsFrom, slotsFrom, List.zipIdx_map, List.map_map, List.map_map]
    rfl
  have hsingle (o : Option Handle) (b : Word) :
      (o.map f).toList.map (·, b) = (o.toList.map (·, b)).map (Prod.map f id) := by
    cases o <;> rfl
  simp only [slots, namedSlots, declaredSlots, map, hfrom, hsingle, List.map_append]

theorem Few.map (hfew : r.Few) (f : Handle → Handle) : (r.map f).Few :=
  ⟨(List.length_map f).trans_le hfew.allocations, (List.length_map f).trans_le hfew.inputs⟩

end Roles

namespace Module

variable {m m' : Module} {host : Host} {r : Roles} {slots slots' : List (Handle × Word)}
  {notes : List (Kind Handle)} {var v w : Handle} {binding : Word} {words : List Word}
  {k : Kernel}

/-! ## What is bound -/

def IsAt (m : Module) (var : Handle) (set binding : Word) : Prop :=
  (∃ words ∈ m.decorations var .descriptorSet, words.head? = some set) ∧
    ∃ words ∈ m.decorations var .binding, words.head? = some binding

def Collide (m : Module) (v w : Handle) : Prop :=
  ∃ set binding, m.IsAt v set binding ∧ m.IsAt w set binding

structure Binds (m : Module) (slots : List (Handle × Word)) : Prop where
  bindings : ∀ var words, .decorate var .binding words ∈ m.notes ↔
    ∃ binding, (var, binding) ∈ slots ∧ words = [binding]
  sets : ∀ slot ∈ slots, .decorate slot.1 .descriptorSet [0] ∈ m.notes
  distinct : (slots.map Prod.fst).Nodup

theorem Binds.collide_iff (hm : m.Binds slots) :
    m.Collide v w ↔ ∃ binding, (v, binding) ∈ slots ∧ (w, binding) ∈ slots := by
  have hat {x : Handle} {set b : Word} (hx : m.IsAt x set b) : (x, b) ∈ slots := by
    obtain ⟨-, words, hwords, hhead⟩ := hx
    obtain ⟨b', hmem, rfl⟩ := (hm.bindings x words).1 (mem_decorations.1 hwords)
    exact Option.some.inj hhead ▸ hmem
  have hin {x : Handle} {b : Word} (hx : (x, b) ∈ slots) : m.IsAt x 0 b :=
    ⟨⟨[0], mem_decorations.2 (hm.sets _ hx), rfl⟩,
      [b], mem_decorations.2 ((hm.bindings x [b]).2 ⟨b, hx, rfl⟩), rfl⟩
  constructor
  · rintro ⟨set, binding, hv, hw⟩
    exact ⟨binding, hat hv, hat hw⟩
  · rintro ⟨binding, hv, hw⟩
    exact ⟨0, binding, hin hv, hin hw⟩

theorem Binds.of_notes (hm : m.Binds slots) (hnotes : ∀ k, k ∈ m'.notes ↔ k ∈ m.notes) :
    m'.Binds slots :=
  ⟨fun var words => (hnotes _).trans (hm.bindings var words),
    fun slot hslot => (hnotes _).2 (hm.sets slot hslot), hm.distinct⟩

theorem mem_bindingNotes : .decorate var .binding words ∈ bindingNotes slots ↔
    ∃ binding, (var, binding) ∈ slots ∧ words = [binding] := by
  have hne : Decoration.binding ≠ .descriptorSet := by decide
  simp [bindingNotes, slotNotes, hne]

theorem Binds.append (hm : m.Binds slots) (hnotes : m'.notes = m.notes ++ notes)
    (hslots : notes.filter Kind.isSlot = bindingNotes slots')
    (hdistinct : (slots'.map Prod.fst).Nodup)
    (hnew : ∀ slot ∈ slots', slot.1 ∉ slots.map Prod.fst) : m'.Binds (slots ++ slots') := by
  have hmem {k : Kind Handle} (hk : k.isSlot) : k ∈ notes ↔ k ∈ bindingNotes slots' := by
    rw [← hslots, List.mem_filter, and_iff_left hk]
  refine ⟨fun var words => ?_, fun slot hslot => ?_, ?_⟩
  · rw [hnotes, List.mem_append, hm.bindings, hmem rfl, mem_bindingNotes]
    simp only [List.mem_append, or_and_right, exists_or]
  · rw [hnotes, List.mem_append]
    refine (List.mem_append.1 hslot).imp (hm.sets slot) fun hslot => ?_
    exact (hmem rfl).2 (List.mem_flatMap.2 ⟨slot, hslot, List.mem_cons_self ..⟩)
  · rw [List.map_append]
    refine List.nodup_append.2 ⟨hm.distinct, hdistinct, fun x hx y hy heq => ?_⟩
    obtain ⟨slot, hslot, rfl⟩ := List.mem_map.1 hy
    exact hnew slot hslot (heq ▸ hx)

theorem Binds.usable (hm : m.Binds slots) (hsound : m.Sound) :
    ∀ slot ∈ slots, m.Usable slot.1 := by
  intro slot hslot
  obtain ⟨h, -, hkind⟩ := List.mem_map.1 (hm.sets slot hslot)
  exact hsound.usable_of_kindOf (h := h) (by
    simp [hkind, Kind.references, Kind.operands, List.filterMap_cons])

theorem Binds.not_mem_of_fresh (hm : m.Binds slots) (hsound : m.Sound)
    (hvar : m.insts.get? var = none) : var ∉ slots.map Prod.fst := by
  intro hmem
  obtain ⟨slot, hslot, rfl⟩ := List.mem_map.1 hmem
  have hstored := (hm.usable hsound slot hslot).stored
  rw [hvar] at hstored
  cases hstored

/-- There are no more slots than ids. -/
theorem Binds.length_le (hm : m.Binds slots) (hsound : m.Sound)
    (hbound : m.header.bound ≤ maxIdBound) : slots.length ≤ maxIdBound.toNat := by
  have hnumbered := hsound.numbered hbound
  have husable : ∀ var ∈ slots.map Prod.fst, (m.inst var).resultId.isSome :=
    List.forall_mem_map.2 fun slot hslot => (hm.usable hsound slot hslot).isSome
  have hnodup : ((slots.map Prod.fst).map fun var => (m.idOf var).toNat).Nodup :=
    hm.distinct.map_on fun v hv w hw heq =>
      hnumbered.idOf_inj (husable v hv) (husable w hw) (UInt32.toNat_inj.1 heq)
  have hrange : ((slots.map Prod.fst).map fun var => (m.idOf var).toNat) ⊆
      List.range maxIdBound.toNat := by
    refine List.forall_mem_map.2 fun var hvar => List.mem_range.2 ?_
    exact (hnumbered.idOf_below (husable var hvar)).2.trans_le hbound
  simpa using (hnodup.subperm hrange).length_le

theorem Sound.findNamed?_eq (hm : m.Sound) (hmm : m.Continues m') :
    m'.findNamed? = m.findNamed? :=
  hmm.findNamed?_eq fun _ hh => hm.stored (mem_listed.2 (.inl ⟨.debug, hh⟩))

/-! ## Who is bound -/

/-- Whether variables have these roles: no others are bound, and the names that the host uses are
theirs. -/
structure Assigns (m : Module) (host : Host) (r : Roles) : Prop extends m.Binds r.slots where
  block : m.findNamed? globalBlockName = r.block
  allocations : (if r.block.isSome then host.backed else []).map m.findNamed? =
    r.allocations.map some

theorem Assigns.few (hm : m.Assigns host r) (hsound : m.Sound)
    (hbound : m.header.bound ≤ maxIdBound) : r.Few := by
  have hlength := hm.length_le hsound hbound
  simp only [Roles.slots, Roles.namedSlots, Roles.declaredSlots, slotsFrom, List.length_append,
    List.length_map, List.length_zipIdx] at hlength
  exact ⟨by omega, by omega⟩

theorem Assigns.consolidate (hm : m.Assigns host r) : m.consolidate.Assigns host r :=
  ⟨hm.toBinds.of_notes fun _ => mem_notes_consolidate, hm.block, hm.allocations⟩

/-! ### The global block -/

theorem map_fst_slotsFrom (first : Word) (n : Nat) (vars : List Handle) :
    (slotsFrom first n vars).map Prod.fst = vars := by
  rw [slotsFrom, List.map_map]
  exact List.zipIdx_map_fst n vars

theorem Sound.notes_eq (hm : m.Sound) (hmm : m.Extends notes m') : m'.notes = m.notes ++ notes :=
  hmm.notes_eq fun _ hh => hm.stored (mem_listed.2 (.inl ⟨.annotations, hh⟩))

theorem Binds.decorateGlobalBlock {outcome : BlockOutcome} (hm : m.Binds []) (hsound : m.Sound)
    (hdistinct : ((globalBlockName :: host.allocations.getD []).map m.findNamed?).Nodup)
    (hrun : Runs (decorateGlobalBlock host) m outcome m') :
    ∃ block allocations, m'.Assigns host ⟨block, allocations, [], none, none⟩ := by
  have hnamed := hsound.findNamed?_eq (hsound.decorateGlobalBlock hrun).continues
  obtain ⟨hnone, rfl⟩ | ⟨var, block, members, notes, hfind, -, hnotes, hmm⟩ :=
    decorateGlobalBlock_annotates hrun
  · exact ⟨none, [], hm, hnone, rfl⟩
  have hsaid := hsound.notes_eq hmm.toExtends
  have hbinds {vars : List Handle} (hslots : notes.filter Kind.isSlot =
        bindingNotes ((var, metadataBinding) :: slotsFrom firstAllocationBinding 0 vars))
      (hnodup : (var :: vars).Nodup) :
      m'.Binds (Roles.slots ⟨some var, vars, [], none, none⟩) := by
    have hall := hm.append hsaid hslots (by rwa [List.map_cons, map_fst_slotsFrom]) (by simp)
    simpa [Roles.slots, Roles.namedSlots, Roles.declaredSlots, slotsFrom] using hall
  cases hnotes with
  | unknown hlayout =>
      refine ⟨some var, [], hbinds ?_ (List.nodup_singleton _), by rw [hnamed, hfind], ?_⟩
      · rw [List.filter_append, filter_isSlot_slotNotes]
        rfl
      · simp [Host.backed, hlayout]
  | @known offsets vars hlayout _ _ hnames =>
      have hnames := hnames fun h hh => hsound.stored (mem_listed.2 (.inl ⟨.debug, hh⟩))
      rw [List.map_cons, hfind, hnames, ← List.map_cons] at hdistinct
      refine ⟨some var, vars, hbinds ?_ hdistinct.of_map, by rw [hnamed, hfind], ?_⟩
      · have hplaced : (offsetNotes block offsets.zipIdx).filter Kind.isSlot = [] := by
          refine List.filter_eq_nil_iff.2 (List.forall_mem_map.2 ?_)
          rintro ⟨offset, i⟩ -
          exact Bool.false_ne_true
        rw [List.filter_append, List.filter_append, List.filter_append, filter_isSlot_slotNotes,
          filter_isSlot_bindingNotes, hplaced]
        rfl
      · simpa [Host.backed, hlayout, hnamed] using hnames

/-! ### The entry point -/

end Module

/-- Whether inputs and an output have been declared for a kernel, unless it is passed over. -/
def Roles.Serve (r : Roles) (k : Kernel) (m : Module) : Prop :=
  if k.Skipped m then r.inputs = [] ∧ r.output = none
  else r.inputs.length = k.inputs.toNat ∧ r.output.isSome = k.signature.contains .output

theorem Roles.Serve.map {r : Roles} {k : Kernel} {m : Module} (hr : r.Serve k m)
    (f : Handle → Handle) : (r.map f).Serve k m := by
  unfold Serve at hr ⊢
  split at hr
  · rw [if_pos ‹_›]
    simp [Roles.map, hr.1, hr.2]
  · rw [if_neg ‹_›]
    simpa [Roles.map] using hr

theorem EntryCode.Fits.slots_eq {e : EntryCode} {c : Callee} {word : Handle} {m m' : Module}
    {notes : List (Kind Handle)} (he : e.Fits c word m notes m') :
    e.accesses.map (fun a => (a.buffer, a.binding)) =
      slotsFrom firstInputBinding 0 (e.inputs.map Access.buffer) ++
        (e.output.map Access.buffer).toList.map (·, outputBinding) := by
  rw [EntryCode.accesses, List.map_append]
  congr 1
  · have hbindings := congrArg (List.map Prod.snd) he.inputs
    rw [List.map_map, List.map_map] at hbindings
    refine List.ext_getElem? fun i => ?_
    have hi := congrArg (·[i]?) hbindings
    simp only [List.getElem?_map, List.getElem?_zipIdx, slotsFrom, Option.map_map] at hi ⊢
    cases hget : e.inputs[i]? with
    | none => rfl
    | some a =>
        rw [hget] at hi
        cases htype : c.inputTypes[i]? with
        | none =>
            rw [htype] at hi
            cases hi
        | some type =>
            rw [htype] at hi
            exact congrArg some (Prod.ext rfl (Option.some.inj hi))
  · have houtput := he.output
    cases hget : e.output with
    | none => rfl
    | some a =>
        rw [hget] at houtput
        split at houtput
        · exact congrArg (fun b => [(a.buffer, b)]) (Prod.mk.inj (Option.some.inj houtput)).2
        · cases houtput

namespace Module

variable {m m' : Module} {host : Host} {r : Roles} {slots slots' : List (Handle × Word)}
  {notes : List (Kind Handle)} {var v w : Handle} {binding : Word} {words : List Word}
  {k : Kernel}

theorem Assigns.addEntry {outcome : EntryOutcome} {block : Option Handle}
    {allocations : List Handle} (hm : m.Assigns host ⟨block, allocations, [], none, none⟩)
    (hsound : m.Sound) (hrun : Runs (addEntry k) m outcome m') :
    ∃ inputs output, m'.Assigns host ⟨block, allocations, inputs, output, none⟩ ∧
      Roles.Serve ⟨block, allocations, inputs, output, none⟩ k m := by
  have hnamed := hsound.findNamed?_eq (hsound.wraps_addEntry hrun).continues
  obtain ⟨hskipped, rfl⟩ | ⟨f, hf⟩ := addEntry_cases hrun
  · exact ⟨[], none, hm, by rw [Roles.Serve, if_pos hskipped]; exact ⟨rfl, rfl⟩⟩
  have hskipped : ¬k.Skipped m := fun hskipped => by
    rw [hskipped.2] at hf
    cases hf
  obtain ⟨notes, entry, word, void, type, c, e, -, hc, -, -, -, -, hadded, hfits⟩ :=
    addEntry_adds hsound.interns hf hrun
  refine ⟨e.inputs.map Access.buffer, e.output.map Access.buffer, ⟨?_, ?_, ?_⟩, ?_⟩
  · have hslots : notes.filter Kind.isSlot =
        bindingNotes (e.accesses.map fun a => (a.buffer, a.binding)) := by
      rw [hfits.slots, bindingNotes, List.flatMap_map]
      rfl
    have hdistinct : ((e.accesses.map fun a => (a.buffer, a.binding)).map Prod.fst).Nodup := by
      rw [List.map_map]
      exact hfits.distinct
    have hall := hm.toBinds.append (hsound.notes_eq hadded.adds.toExtends) hslots hdistinct
      (List.forall_mem_map.2 fun a ha =>
        hm.toBinds.not_mem_of_fresh hsound (hfits.accesses a ha).2.1)
    rw [hfits.slots_eq] at hall
    simpa [Roles.slots, Roles.namedSlots, Roles.declaredSlots, slotsFrom] using hall
  · rw [hnamed]
    exact hm.block
  · rw [hnamed]
    exact hm.allocations
  · rw [Roles.Serve, if_neg hskipped]
    constructor
    · have hlength := congrArg List.length hfits.inputs
      rw [List.length_map, List.length_map, List.length_zipIdx, hc.inputTypes_length] at hlength
      rwa [List.length_map]
    · have houtput := congrArg Option.isSome hfits.output
      rw [Option.isSome_map] at houtput ⊢
      rw [houtput, hc.signature]
      split <;> simp [*]

/-! ### The metadata -/

theorem Assigns.declareMetadata (hm : m.Assigns host r)
    (hsound : m.Sound) (hr : r.metadata = none) :
    ∃ metadata,
      (Module.declareMetadata m).2.Assigns host { r with metadata := some metadata } := by
  have hnamed := hsound.findNamed?_eq hsound.declareMetadata.continues
  rcases hrun : Module.declareMetadata m with ⟨metadata, m'⟩
  rw [hrun] at hnamed
  obtain ⟨word, record, array, struct, hdeclares, -, -, -, -, -, -, hfresh⟩ :=
    declareMetadata_declares hsound.interns hrun
  refine ⟨metadata, ?_, by rw [hnamed]; exact hm.block, by rw [hnamed]; exact hm.allocations⟩
  have hslots : (metadataNotes record array struct metadata).filter Kind.isSlot =
      bindingNotes [(metadata, metadataBinding)] := rfl
  have hall := hm.toBinds.append (hsound.notes_eq hdeclares.toExtends) hslots
    (List.nodup_singleton _)
    (List.forall_mem_singleton.2 (hm.toBinds.not_mem_of_fresh hsound hfresh))
  simpa [Roles.slots, Roles.namedSlots, Roles.declaredSlots, hr] using hall

/-! ### Reading again -/

section

variable {f : Handle → Handle} (hmm : Paired m m') (hf : ∀ h, m.Usable h → Twins m m' h (f h))

include hmm

theorem Paired.twins_unique {h g g' : Handle} (hg : Twins m m' h g) (hg' : Twins m m' h g') :
    g = g' :=
  hmm.symm.injOn_idOf hg.usable' hg'.usable' (hg.idOf_eq.symm.trans hg'.idOf_eq)

omit hf in
theorem Paired.exists_twins_map :
    ∃ f : Handle → Handle, ∀ h, m.Usable h → Twins m m' h (f h) := by
  have htwin (h : Handle) : ∃ h', m.Usable h → Twins m m' h h' := by
    by_cases hh : m.Usable h
    · exact (hmm.exists_twins hh).imp fun _ ht _ => ht
    · exact ⟨h, fun husable => absurd husable hh⟩
  exact ⟨fun h => (htwin h).choose, fun h => (htwin h).choose_spec⟩

include hf

theorem Paired.findNamed?_eq (name : String) :
    m'.findNamed? name = (m.findNamed? name).map f := by
  cases hvar' : m'.findNamed? name with
  | some var' =>
      obtain ⟨var, hvar, ht⟩ := hmm.findNamed? hvar'
      rw [hvar, Option.map_some, hmm.twins_unique ht (hf var ht.usable)]
  | none =>
      cases hvar : m.findNamed? name with
      | none => rfl
      | some var =>
          obtain ⟨var', hsome, -⟩ := hmm.symm.findNamed? hvar
          rw [hvar'] at hsome
          cases hsome

theorem Paired.binds (hm : m.Binds slots) : m'.Binds (slots.map (Prod.map f id)) := by
  have husable := hm.usable hmm.sound
  refine ⟨fun var' words => ⟨fun hmem => ?_, ?_⟩, List.forall_mem_map.2 fun slot hslot => ?_, ?_⟩
  · obtain ⟨var, ht, hmem⟩ := hmm.exists_decorate hmem
    obtain ⟨binding, hslot, rfl⟩ := (hm.bindings var words).1 hmem
    refine ⟨binding, List.mem_map.2 ⟨_, hslot, ?_⟩, rfl⟩
    rw [Prod.map_apply, hmm.twins_unique (hf var ht.usable) ht, id]
  · rintro ⟨binding, hslot, rfl⟩
    obtain ⟨⟨var, _⟩, hmem, heq⟩ := List.mem_map.1 hslot
    obtain ⟨rfl, rfl⟩ := Prod.mk.inj heq
    exact hmm.decorate_mem (hf var (husable _ hmem)) ((hm.bindings var _).2 ⟨_, hmem, rfl⟩)
  · exact hmm.decorate_mem (hf _ (husable slot hslot)) (hm.sets slot hslot)
  · have hvars : (slots.map (Prod.map f id)).map Prod.fst = (slots.map Prod.fst).map f := by
      rw [List.map_map, List.map_map]
      rfl
    rw [hvars]
    refine hm.distinct.map_on fun v hv w hw heq => ?_
    obtain ⟨slot, hslot, rfl⟩ := List.mem_map.1 hv
    obtain ⟨slot', hslot', rfl⟩ := List.mem_map.1 hw
    have ht := hf _ (husable slot hslot)
    rw [heq] at ht
    exact hmm.symm.twins_unique ht.symm (hf _ (husable slot' hslot')).symm

theorem Paired.assigns (hm : m.Assigns host r) : m'.Assigns host (r.map f) := by
  refine ⟨?_, ?_, ?_⟩
  · rw [Roles.slots_map]
    exact hmm.binds hf hm.toBinds
  · rw [hmm.findNamed?_eq hf, hm.block]
    rfl
  · have hnames := congrArg (List.map (Option.map f)) hm.allocations
    have hnamed : m'.findNamed? = Option.map f ∘ m.findNamed? := funext (hmm.findNamed?_eq hf)
    rw [List.map_map, List.map_map] at hnames
    simpa [Roles.map, hnamed] using hnames

end

end Module

end KernelGrid
