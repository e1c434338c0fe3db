import KernelGrid.Proofs.Module.SectionOrder

/-!
# Ids of accepted records

A record that is accepted names every id that it mentions, and what it defines was not defined
before. So behind a run the module names exactly what the records mention, and no two records
define the same id.
-/

namespace KernelGrid

open KernelGrid.Stream

namespace Module

def HasId (m : Module) (id : ResultId) : Prop := ∃ h, (m.inst h).resultId = some id

variable {m m' : Module}

theorem KeepsIds.hasId (hmm : m.KeepsIds m') {id : ResultId} (hid : m.HasId id) : m'.HasId id :=
  hid.imp fun h => hmm h id

def Numbers (m : Module) : Prop :=
  ∀ h, (m.insts.get? h).isSome → (m.inst h).isPlaceholder → (m.inst h).resultId.isSome

theorem Mentions.numbers {mentioned : List ResultId} (hmm : m.Mentions mentioned m')
    (hm : m.Numbers) : m'.Numbers := by
  intro h hh hplace
  obtain hh | hid := hmm.grown h hh
  · obtain heq | ⟨-, id, -, hid⟩ := hmm.stored h
    · rw [heq] at hplace ⊢
      exact hm h hh hplace
    · rw [hid]
      rfl
  · exact hid

theorem Inserts.numbers {h : Handle} {i : Inst Handle} (hins : m.Inserts m' h i) (hm : m.Numbers)
    (hi : i.isPlaceholder = false) : m'.Numbers := by
  intro g hg hplace
  by_cases heq : g = h
  · rw [heq, hins.stored, hi] at hplace
    cases hplace
  · rw [hins.others g heq] at hplace ⊢
    exact hm g (hins.grown g heq hg) hplace

/-- What is linked has the ids that stand in the stream. -/
theorem hasId_of_mem_references {rs : List Handle} {ids : List ResultId}
    (hids : rs.map m.idOf = ids) (hrefs : ∀ r ∈ rs, (m.inst r).resultId.isSome) :
    ∀ id ∈ ids, m.HasId id := by
  intro id hid
  rw [← hids] at hid
  obtain ⟨r, hr, rfl⟩ := List.mem_map.1 hid
  obtain ⟨id, hid⟩ := Option.isSome_iff_exists.1 (hrefs r hr)
  exact ⟨r, by rw [idOf_eq hid, hid]⟩

/-- What was stored under an id has taken the place of nothing but a placeholder. -/
theorem Inserts.isPlaceholder {h : Handle} {i : Inst Handle} (hins : m.Inserts m' h i)
    (hm : m.Indexed) (hm' : m'.Indexed) {id : ResultId} (hi : i.resultId = some id) {g : Handle}
    (hg : m.byId? id = some g) : (m.inst g).isPlaceholder := by
  have hgid := hins.keepsIds g id ((hm id g).1 hg)
  have hhid : (m'.inst h).resultId = some id := by rw [hins.stored, hi]
  have heq := (hm' id g).2 hgid
  rw [(hm' id h).2 hhid, Option.some.injEq] at heq
  exact heq ▸ hins.vacant

end Module

theorem Assembly.insts_of_place {op : Opcode} {h : Handle} {a a' : Assembly}
    (hplace : a.place op h = .ok a') : a'.module.insts = a.module.insts := by
  unfold place at hplace
  split at hplace
  · obtain ⟨f, -, hplace⟩ := except_bind.1 hplace
    cases hplace
    rfl
  · split at hplace
    · cases hplace
      rfl
    · split at hplace
      · cases hplace
      · cases hplace
        exact Section.insts_add ..

theorem Assembly.insts_of_close {a a' : Assembly} (hclose : a.close = .ok a') :
    a'.module.insts = a.module.insts := by
  unfold close at hclose
  split at hclose
  · cases hclose
    rfl
  · cases hclose

section

variable {α : Type} {item : α → Item ResultId} {known : ResultId → Prop} {header : Header}
  {bound : ResultId} {xs : List α} {x : α} {a a' : Assembly} {origin : Handle → Option α}

/-- What is linked and stored leaves all ids, has the ids that it mentions, defines none a
second time, and stores nothing without an id but what is defined. -/
theorem Assembled.ids_of_saves {i : Inst ResultId} {j : Inst Handle} {m m' m'' : Module}
    {h : Handle} (hA : Assembled item known header xs a origin) (hread : i.Readable bound)
    (hl : a.module.Links m i j) (hs : m.Saves bound m' h j) (hinsts : m''.insts = m'.insts) :
    a.module.KeepsIds m'' ∧ (∀ id ∈ (Item.inst i).mentions, m''.HasId id) ∧
      (∀ id ∈ i.resultId, ∀ y ∈ xs, id ∉ (item y).result?) ∧
      (a.module.Numbers → m''.Numbers) := by
  have hinst (g : Handle) : m''.inst g = m'.inst g := by rw [Module.inst, hinsts, Module.inst]
  have hkeeps : m.KeepsIds m'' := fun g id hid => by
    rw [hinst]
    exact hs.inserts.keepsIds g id hid
  have hids : ∀ id ∈ i.references, m.HasId id :=
    Module.hasId_of_mem_references ((Inst.references_map ..).symm.trans
      (congrArg Inst.references hl.map_idOf)) hl.isSome
  refine ⟨fun g id hid => hkeeps g id (hl.mentions.keepsIds g id hid), ?_, ?_, fun hm => ?_⟩
  · rw [Item.mentions, List.forall_mem_append]
    refine ⟨fun id hid => hkeeps.hasId (hids id hid), fun id hid => ⟨h, ?_⟩⟩
    rw [hinst, hs.inserts.stored, hl.resultId]
    exact Option.mem_toList.1 hid
  · intro id hid y hy hidy
    obtain ⟨g, hg, hstored⟩ := (hA.stores.mentions hl.mentions hl.indexed).defined y hy id hidy
    have hplace := hs.inserts.isPlaceholder hl.indexed hs.indexed (hl.resultId.trans hid)
      ((hl.indexed id g).2 hg)
    rw [hstored] at hplace
    cases hplace
  · have hnumbers := hs.inserts.numbers (hl.mentions.numbers hm) (hl.isPlaceholder hread)
    simpa only [Module.Numbers, Module.inst, hinsts] using hnumbers

theorem Assembled.ids_of_accept {r : Record} (hA : Assembled item known header xs a origin)
    (hbound : bound ≤ header.bound) (hr : Item.ofRecord bound r = .ok (item x))
    (hacc : a.accept bound r = .ok a') :
    a.module.KeepsIds a'.module ∧ (∀ id ∈ (item x).mentions, a'.module.HasId id) ∧
      (∀ id ∈ (item x).result?, ∀ y ∈ xs, id ∉ (item y).result?) ∧
      (a.module.Numbers → a'.module.Numbers) := by
  have hread := (Item.readable_of_ofRecord hr).1
  have haccepts := hA.accepts hbound hr hacc
  generalize item x = y at hread haccepts
  cases haccepts with
  | entryPoint hmentions hindexed hmap hlinked =>
      refine ⟨hmentions.keepsIds, ?_, by simp [Item.result?], hmentions.numbers⟩
      exact Module.hasId_of_mem_references ((EntryPoint.references_map ..).symm.trans
        (congrArg EntryPoint.references hmap)) hlinked
  | functionEnd hclose =>
      have hinsts : a'.module.insts = a.module.insts := Assembly.insts_of_close hclose
      refine ⟨?_, by simp [Item.mentions], by simp [Item.result?], ?_⟩
      · simp only [Module.KeepsIds, Module.inst, hinsts]
        exact fun _ _ hid => hid
      · simp only [Module.Numbers, Module.inst, hinsts]
        exact fun hm => hm
  | claim hl hmode hclaim =>
      obtain ⟨_, _, _, _, -, hsize⟩ := Module.claimMode?_eq_some.1 hclaim
      obtain ⟨-, -, rfl⟩ := Option.map_eq_some_iff.1 hsize
      have hnone := (hread.plain_of_executionMode hmode).2
      refine ⟨hl.mentions.keepsIds, ?_, by simp [Item.result?, hnone], hl.mentions.numbers⟩
      rw [Item.mentions, hnone, Option.toList_none, List.append_nil]
      exact Module.hasId_of_mem_references ((Inst.references_map ..).symm.trans
        (congrArg Inst.references hl.map_idOf)) hl.isSome
  | mode hl _ hs _ => exact hA.ids_of_saves hread hl hs (Section.insts_add ..)
  | place hl hs _ hplace => exact hA.ids_of_saves hread hl hs (Assembly.insts_of_place hplace)

end

/-- Behind all records, whatever they mention has an id, and no two of them define the same
one. -/
theorem Module.EndOf.ids {m : Module} {header : Header} {records : List Record}
    {item : Record → Item ResultId} (hm : m.EndOf header records item) :
    (∀ r ∈ records, ∀ id ∈ (item r).mentions, m.HasId id) ∧
      (records.filterMap fun r => (item r).result?).Nodup ∧ m.Numbers := by
  refine hm.induction (P := fun xs a => (∀ x ∈ xs, ∀ id ∈ (item x).mentions, a.module.HasId id) ∧
    (xs.filterMap fun x => (item x).result?).Nodup ∧ a.module.Numbers) ⟨by simp, by simp, ?_⟩ ?_
  · intro h hh
    cases hh
  · rintro xs x a a' origin r hA hr hacc ⟨hids, hnodup, hnumbers⟩
    obtain ⟨hkeeps, hmentions, hfresh, hnumbered⟩ := hA.ids_of_accept (UInt32.le_refl _) hr hacc
    refine ⟨?_, ?_, hnumbered hnumbers⟩
    · rw [List.forall_mem_append]
      exact ⟨fun y hy id hid => hkeeps.hasId (hids y hy id hid), by simpa using hmentions⟩
    · rw [List.filterMap_append, List.nodup_append]
      refine ⟨hnodup, ?_, ?_⟩
      · cases hid : (item x).result? <;> simp [hid]
      · intro id hid id' hid' heq
        obtain ⟨y, hy, hidy⟩ := List.mem_filterMap.1 hid
        obtain ⟨x', hx', hidx⟩ := List.mem_filterMap.1 hid'
        rw [List.mem_singleton.1 hx'] at hidx
        exact hfresh id' hidx y hy (heq ▸ hidy)

end KernelGrid
