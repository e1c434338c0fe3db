import KernelGrid.Module.Assembly
import KernelGrid.Module.Encoding
import KernelGrid.Proofs.Inst.Reading
import KernelGrid.Proofs.Inst.Traversal
import KernelGrid.Proofs.Word

/-!
# Ids and handles

While a module is read its table of ids and its stored instructions agree: an id leads to the
one instruction that has it.  A mention stores nothing but placeholders, and a definition
changes nothing but the placeholder that it fills.
-/

namespace KernelGrid.Module

variable {m m' m'' : Module}

def Indexed (m : Module) : Prop :=
  ∀ id h, m.byId? id = some h ↔ (m.inst h).resultId = some id

def Closed (m : Module) : Prop :=
  ∀ h, ∀ r ∈ (m.inst h).references, (m.inst r).resultId.isSome

/-- The instruction at a handle with ids in place of handles. -/
def wire (m : Module) (h : Handle) : Inst ResultId := (m.inst h).map m.idOf

theorem statement_eq_wire (m : Module) (h : Handle) :
    m.statement h = (m.wire h).statement id := by
  rw [statement, wire, Inst.statement_map]
  rfl

theorem idOf_eq {h : Handle} {id : ResultId} (hid : (m.inst h).resultId = some id) :
    m.idOf h = id := by
  rw [idOf, hid, Option.getD_some]

theorem Indexed.byId?_idOf (hm : m.Indexed) {h : Handle} (hid : (m.inst h).resultId.isSome) :
    m.byId? (m.idOf h) = some h := by
  obtain ⟨id, hid⟩ := Option.isSome_iff_exists.1 hid
  rw [idOf_eq hid]
  exact (hm id h).2 hid

theorem Indexed.idOf_inj (hm : m.Indexed) {h g : Handle} (hh : (m.inst h).resultId.isSome)
    (hg : (m.inst g).resultId.isSome) (heq : m.idOf h = m.idOf g) : h = g := by
  have hbyId := hm.byId?_idOf hh
  rw [heq, hm.byId?_idOf hg, Option.some.injEq] at hbyId
  exact hbyId.symm

/-! ## Storing -/

theorem stored_of_resultId {h : Handle} {id : ResultId} (hid : (m.inst h).resultId = some id) :
    (m.insts.get? h).isSome := by
  cases hget : m.insts.get? h with
  | some i => rfl
  | none =>
      rw [inst, hget] at hid
      cases hid

theorem append_of_none {i : Inst Handle} (hid : i.resultId = none) (m : Module) :
    append i m = (m.insts.nextHandle, { m with insts := m.insts.push i }) := by
  simp only [append, modifyGet, MonadStateOf.modifyGet, StateT.modifyGet, hid]
  rfl

theorem append_of_some {i : Inst Handle} {id : ResultId} (hid : i.resultId = some id)
    (m : Module) :
    append i m = (m.insts.nextHandle, { m with
      insts := m.insts.push i
      ids := m.ids.insert id m.insts.nextHandle
      header.bound := max m.header.bound (Word.next id) }) := by
  simp only [append, modifyGet, MonadStateOf.modifyGet, StateT.modifyGet, hid]
  rfl

theorem fst_append (i : Inst Handle) (m : Module) : (append i m).1 = m.insts.nextHandle := by
  cases hid : i.resultId with
  | none => rw [append_of_none hid]
  | some id => rw [append_of_some hid]

theorem insts_append (i : Inst Handle) (m : Module) : (append i m).2.insts = m.insts.push i := by
  cases hid : i.resultId with
  | none => rw [append_of_none hid]
  | some id => rw [append_of_some hid]

theorem inst_append (i : Inst Handle) (m : Module) (h : Handle) :
    (append i m).2.inst h = if h = m.insts.nextHandle then i else m.inst h := by
  rw [inst, insts_append, Arena.get?_push]
  split
  · rfl
  · rfl

theorem byId?_append (i : Inst Handle) (m : Module) (id : ResultId) :
    (append i m).2.byId? id =
      if i.resultId = some id then some m.insts.nextHandle else m.byId? id := by
  cases hid : i.resultId with
  | none => simp [append_of_none hid, byId?]
  | some id' => simp [append_of_some hid, byId?, Std.TreeMap.getElem?_insert]

theorem inst_nextHandle (m : Module) : m.inst m.insts.nextHandle = .plain .placeholder := by
  simp [inst, Arena.get?_nextHandle]

theorem Indexed.append (hm : m.Indexed) {i : Inst Handle}
    (hfresh : ∀ id ∈ i.resultId, m.byId? id = none) : (append i m).2.Indexed := by
  intro id h
  rw [byId?_append, inst_append]
  by_cases hid : i.resultId = some id
  · rw [if_pos hid]
    by_cases hh : h = m.insts.nextHandle
    · simp [hh, hid]
    · have hnone : (m.inst h).resultId ≠ some id := by
        rw [Ne, ← hm, hfresh id hid]
        simp
      simp [hh, hnone, Ne.symm hh]
  · rw [if_neg hid, hm]
    by_cases hh : h = m.insts.nextHandle
    · simp [hh, hid, inst_nextHandle, Inst.plain]
    · rw [if_neg hh]

/-! ## Mentioning -/

/-- Nothing but placeholders of the given ids has been stored. -/
structure Mentions (m : Module) (mentioned : List ResultId) (m' : Module) : Prop where
  frame : ∃ insts ids, m' = { m with insts, ids }
  stored : ∀ h, m'.inst h = m.inst h ∨
    m.inst h = .plain .placeholder ∧ ∃ id ∈ mentioned, m'.inst h = .placeholder id
  grown : ∀ h, (m'.insts.get? h).isSome → (m.insts.get? h).isSome ∨ (m'.inst h).resultId.isSome

variable {mentioned mentioned' : List ResultId}

theorem Mentions.resultId (hmm : m.Mentions mentioned m') {h : Handle} {id : ResultId}
    (hid : (m.inst h).resultId = some id) : (m'.inst h).resultId = some id := by
  obtain heq | ⟨hnone, -⟩ := hmm.stored h
  · rw [heq]
    exact hid
  · rw [hnone] at hid
    cases hid

theorem Mentions.refl (m : Module) (mentioned : List ResultId) : m.Mentions mentioned m :=
  ⟨⟨_, _, rfl⟩, fun _ => .inl rfl, fun _ => .inl⟩

theorem Mentions.trans (h₁ : m.Mentions mentioned m') (h₂ : m'.Mentions mentioned' m'') :
    m.Mentions (mentioned ++ mentioned') m'' := by
  constructor
  · obtain ⟨_, _, rfl⟩ := h₁.frame
    obtain ⟨_, _, rfl⟩ := h₂.frame
    exact ⟨_, _, rfl⟩
  · intro h
    obtain heq | ⟨hnone, id, hmem, hid⟩ := h₂.stored h
    · rw [heq]
      obtain heq' | ⟨hnone, id, hmem, hid⟩ := h₁.stored h
      · exact .inl heq'
      · exact .inr ⟨hnone, id, List.mem_append_left _ hmem, hid⟩
    · obtain heq | ⟨-, id', -, hid'⟩ := h₁.stored h
      · exact .inr ⟨heq ▸ hnone, id, List.mem_append_right _ hmem, hid⟩
      · rw [hnone] at hid'
        cases hid'
  · intro h hh
    obtain hh | hid := h₂.grown h hh
    · refine (h₁.grown h hh).imp_right fun hid => ?_
      obtain ⟨id, hid⟩ := Option.isSome_iff_exists.1 hid
      rw [h₂.resultId hid]
      rfl
    · exact .inr hid

theorem Mentions.inst_eq (hmm : m.Mentions mentioned m') {h : Handle}
    (hh : (m'.inst h).isPlaceholder = false) : m'.inst h = m.inst h := by
  obtain heq | ⟨-, id, -, hid⟩ := hmm.stored h
  · exact heq
  · rw [hid] at hh
    cases hh

theorem Mentions.inst_eq_of_stored (hmm : m.Mentions mentioned m') {h : Handle}
    (hh : (m.inst h).isPlaceholder = false) : m'.inst h = m.inst h := by
  obtain heq | ⟨hnone, -⟩ := hmm.stored h
  · exact heq
  · rw [hnone] at hh
    cases hh

theorem Mentions.closed (hmm : m.Mentions mentioned m') (hm : m.Closed) : m'.Closed := by
  intro h r hr
  obtain heq | ⟨-, id, -, hid⟩ := hmm.stored h
  · rw [heq] at hr
    obtain ⟨id, hid⟩ := Option.isSome_iff_exists.1 (hm h r hr)
    rw [hmm.resultId hid]
    rfl
  · rw [hid] at hr
    cases hr

theorem Mentions.byId? (hmm : m.Mentions mentioned m') (hm : m.Indexed) (hm' : m'.Indexed)
    {id : ResultId} {h : Handle} (hid : m.byId? id = some h) : m'.byId? id = some h :=
  (hm' id h).2 (hmm.resultId ((hm id h).1 hid))

theorem reference_eq (id : ResultId) (m : Module) :
    reference id m =
      match m.byId? id with
      | some h => (h, m)
      | none => append (.placeholder id) m := by
  simp only [reference, bind, StateT.bind, get, getThe, MonadStateOf.get, StateT.get, pure]
  cases m.byId? id <;> rfl

theorem next_le_of_lt {id bound : ResultId} (h : id < bound) : Word.next id ≤ bound := by
  rw [Word.next]
  split
  · exact UInt32.le_of_lt h
  · rename_i hmax
    rw [UInt32.lt_iff_toNat_lt] at h
    rw [← UInt32.toNat_inj] at hmax
    rw [UInt32.le_iff_toNat_le, UInt32.toNat_add]
    have hlt := bound.toNat_lt
    simp at hmax ⊢
    omega

theorem max_next {id bound : ResultId} (h : id < bound) : max bound (Word.next id) = bound :=
  Word.max_of_le (next_le_of_lt h)

theorem mentions_append {id : ResultId} (hid : id < m.header.bound) :
    m.Mentions [id] (append (.placeholder id) m).2 := by
  constructor
  · rw [append_of_some rfl, max_next hid]
    exact ⟨_, _, rfl⟩
  · intro h
    rw [inst_append]
    by_cases hh : h = m.insts.nextHandle
    · rw [if_pos hh, hh, inst_nextHandle]
      exact .inr ⟨rfl, id, List.mem_singleton_self id, rfl⟩
    · exact .inl (if_neg hh)
  · intro h hh
    rw [inst_append]
    by_cases heq : h = m.insts.nextHandle
    · rw [if_pos heq]
      exact .inr rfl
    · rw [insts_append, Arena.get?_push, if_neg heq] at hh
      exact .inl hh

/-- An edit stores what stands for some ids and uses nothing else of the module: its value is
determined by what stands for these ids in the end. -/
def Registers {α : Type} (x : Edit α) (ids : List ResultId) (value : (ResultId → Handle) → α) :
    Prop :=
  ∀ m : Module, m.Indexed → (∀ id ∈ ids, id < m.header.bound) →
    m.Mentions ids (x m).2 ∧ (x m).2.Indexed ∧ (∀ id ∈ ids, ((x m).2.byId? id).isSome) ∧
      ∀ handleOf : ResultId → Handle,
        (∀ id ∈ ids, (x m).2.byId? id = some (handleOf id)) → (x m).1 = value handleOf

namespace Registers

variable {α β : Type} {ids ids' : List ResultId}

theorem pure (a : α) : Registers (pure a) [] fun _ => a := by
  intro m hm _
  exact ⟨.refl m _, hm, by simp, fun _ _ => rfl⟩

theorem bind {x : Edit α} {f : α → Edit β} {value : (ResultId → Handle) → α}
    {value' : α → (ResultId → Handle) → β} (hx : Registers x ids value)
    (hf : ∀ a, Registers (f a) ids' (value' a)) :
    Registers (x >>= f) (ids ++ ids') fun handleOf => value' (value handleOf) handleOf := by
  intro m hm hlt
  simp only [List.forall_mem_append] at hlt ⊢
  obtain ⟨hmm, hm', hsome, hvalue⟩ := hx m hm hlt.1
  have hbound : (x m).2.header.bound = m.header.bound := by
    obtain ⟨_, _, h⟩ := hmm.frame
    rw [h]
  obtain ⟨hmm', hm'', hsome', hvalue'⟩ := hf (x m).1 (x m).2 hm' (hbound ▸ hlt.2)
  have hkeep (id : ResultId) (hid : id ∈ ids) :
      (f (x m).1 (x m).2).2.byId? id = (x m).2.byId? id := by
    obtain ⟨h, hh⟩ := Option.isSome_iff_exists.1 (hsome id hid)
    rw [hh, hmm'.byId? hm' hm'' hh]
  refine ⟨hmm.trans hmm', hm'', ⟨?_, hsome'⟩, ?_⟩
  · intro id hid
    exact (congrArg Option.isSome (hkeep id hid)).trans (hsome id hid)
  · intro handleOf hhandle
    rw [← hvalue handleOf fun id hid => (hkeep id hid).symm.trans (hhandle.1 id hid)]
    exact hvalue' handleOf hhandle.2

theorem map {x : Edit α} {value : (ResultId → Handle) → α} (hx : Registers x ids value)
    (f : α → β) :
    Registers (x >>= fun a => Pure.pure (f a)) ids fun handleOf => f (value handleOf) := by
  intro m hm hlt
  obtain ⟨hmm, hm', hsome, hvalue⟩ := hx m hm hlt
  exact ⟨hmm, hm', hsome, fun handleOf hh => congrArg f (hvalue handleOf hh)⟩

theorem reference (id : ResultId) :
    Registers (reference id) [id] fun handleOf => handleOf id := by
  intro m hm hlt
  simp only [List.mem_singleton, forall_eq] at hlt ⊢
  rw [reference_eq]
  cases hid : m.byId? id with
  | some h => exact ⟨.refl m _, hm, by rw [hid]; rfl, fun handleOf hh => by simpa [hid] using hh⟩
  | none =>
      have hbyId : (append (.placeholder id) m).2.byId? id = some m.insts.nextHandle := by
        rw [byId?_append]
        exact if_pos rfl
      refine ⟨mentions_append hlt, hm.append (by simpa [Inst.placeholder] using hid), ?_, ?_⟩
      · rw [hbyId]
        rfl
      · intro handleOf hh
        rw [fst_append]
        exact Option.some.inj (hbyId.symm.trans hh)

theorem mapM_reference (ids : List ResultId) :
    Registers (ids.mapM Module.reference) ids fun handleOf => ids.map handleOf := by
  induction ids with
  | nil => exact pure []
  | cons id ids ih =>
      rw [List.mapM_cons]
      exact bind (reference id) fun h => map ih (h :: ·)

theorem congr {x : Edit α} {value value' : (ResultId → Handle) → α} (hx : Registers x ids value)
    (hids : ids = ids') (hvalue : ∀ handleOf, value handleOf = value' handleOf) :
    Registers x ids' value' := by
  rw [← hids, ← funext hvalue]
  exact hx

theorem mapM_kind (k : Kind ResultId) :
    Registers (k.mapM Module.reference) k.references fun handleOf => k.map handleOf := by
  cases k
  case executionMode | debugName | memberName | decorate | memberDecorate | typeVector
      | typeRuntimeArray | typePointer | typeForwardPointer | function | load | compositeExtract
      | retValue =>
    refine (map (reference _) _).congr ?_ fun _ => rfl
    simp [Kind.references, Kind.operands, List.filterMap_cons]
  case typeArray | store | iAdd | iMul =>
    exact (bind (reference _) fun _ => map (reference _) _).congr
      (by simp [Kind.references, Kind.operands]) fun _ => rfl
  case typeStruct | constantComposite =>
    exact (map (mapM_reference _) _).congr (by simp [Kind.references, Kind.operands]) fun _ => by
      simp [Kind.map, Kind.mapM]
  case typeFunction | accessChain | functionCall =>
    exact (bind (reference _) fun _ => map (mapM_reference _) _).congr
      (by simp [Kind.references, Kind.operands]) fun _ => by simp [Kind.map, Kind.mapM]
  case var storage initializer =>
    cases initializer with
    | none => exact pure _
    | some id => exact map (reference id) _
  all_goals
    exact (pure _).congr (by simp [Kind.references, Kind.operands, List.filterMap_cons])
      fun _ => rfl

theorem link (i : Inst ResultId) :
    Registers i.link i.references fun handleOf => i.map handleOf := by
  obtain ⟨_ | type, result?, k⟩ := i
  · exact map (mapM_kind k) _
  · exact bind (reference type) fun _ => map (mapM_kind k) _

theorem linkEntryPoint (e : EntryPoint ResultId) :
    Registers e.link e.references fun handleOf => e.map handleOf :=
  bind (reference e.function) fun _ => map (mapM_reference e.interface) _

theorem exists_handleOf {x : Edit α} {value : (ResultId → Handle) → α}
    (hx : Registers x ids value) (hm : m.Indexed) (hlt : ∀ id ∈ ids, id < m.header.bound) :
    m.Mentions ids (x m).2 ∧ (x m).2.Indexed ∧ ∃ handleOf, (x m).1 = value handleOf ∧
      ∀ id ∈ ids, ((x m).2.inst (handleOf id)).resultId = some id := by
  obtain ⟨hmm, hm', hsome, hvalue⟩ := hx m hm hlt
  have hbyId (id : ResultId) (hid : id ∈ ids) :
      (x m).2.byId? id = some (((x m).2.byId? id).getD ⟨0⟩) := by
    obtain ⟨h, hh⟩ := Option.isSome_iff_exists.1 (hsome id hid)
    rw [hh, Option.getD_some]
  exact ⟨hmm, hm', _, hvalue _ hbyId, fun id hid => (hm' id _).1 (hbyId id hid)⟩

end Registers

/-- Linking an instruction leaves it as it stands in the stream. -/
theorem link_spec {i : Inst ResultId} (hm : m.Indexed)
    (hlt : ∀ id ∈ i.references, id < m.header.bound) :
    m.Mentions i.references (i.link m).2 ∧ (i.link m).2.Indexed ∧
      (i.link m).1.map (i.link m).2.idOf = i ∧
      ∀ r ∈ (i.link m).1.references, ((i.link m).2.inst r).resultId.isSome := by
  obtain ⟨hmm, hm', handleOf, hvalue, hid⟩ := (Registers.link i).exists_handleOf hm hlt
  refine ⟨hmm, hm', ?_, ?_⟩
  · rw [hvalue, Inst.map_map]
    calc i.map ((i.link m).2.idOf ∘ handleOf) = i.map id :=
          Inst.map_congr fun id h => idOf_eq (hid id h)
      _ = i := Inst.map_id i
  · rw [hvalue, Inst.references_map]
    intro r hr
    obtain ⟨id, h, rfl⟩ := List.mem_map.1 hr
    rw [hid id h]
    rfl

theorem linkEntryPoint_spec {e : EntryPoint ResultId} (hm : m.Indexed)
    (hlt : ∀ id ∈ e.references, id < m.header.bound) :
    m.Mentions e.references (e.link m).2 ∧ (e.link m).2.Indexed ∧
      (e.link m).1.map (e.link m).2.idOf = e ∧
      ∀ r ∈ (e.link m).1.references, ((e.link m).2.inst r).resultId.isSome := by
  obtain ⟨hmm, hm', handleOf, hvalue, hid⟩ := (Registers.linkEntryPoint e).exists_handleOf hm hlt
  refine ⟨hmm, hm', ?_, ?_⟩
  · rw [hvalue, EntryPoint.map_map]
    calc e.map ((e.link m).2.idOf ∘ handleOf) = e.map id :=
          EntryPoint.map_congr fun id h => idOf_eq (hid id h)
      _ = e := EntryPoint.map_id e
  · rw [hvalue, EntryPoint.references_map]
    intro r hr
    obtain ⟨id, h, rfl⟩ := List.mem_map.1 hr
    rw [hid id h]
    rfl

/-! ## Defining -/

structure Inserts (m m' : Module) (h : Handle) (i : Inst Handle) : Prop where
  frame : ∃ insts ids, m' = { m with insts, ids }
  stored : m'.inst h = i
  others : ∀ g, g ≠ h → m'.inst g = m.inst g
  grown : ∀ g, g ≠ h → (m'.insts.get? g).isSome → (m.insts.get? g).isSome
  vacant : (m.inst h).isPlaceholder
  resultId : ∀ id, (m.inst h).resultId = some id → i.resultId = some id

theorem inserts_append {i : Inst Handle} (hlt : ∀ id ∈ i.resultId, id < m.header.bound) :
    m.Inserts (append i m).2 (append i m).1 i := by
  rw [fst_append]
  refine ⟨?_, ?_, ?_, ?_, ?_, ?_⟩
  · cases hid : i.resultId with
    | none =>
        rw [append_of_none hid]
        exact ⟨_, _, rfl⟩
    | some id =>
        rw [append_of_some hid, max_next (hlt id hid)]
        exact ⟨_, _, rfl⟩
  · rw [inst_append, if_pos rfl]
  · intro g hg
    rw [inst_append, if_neg hg]
  · intro g hg
    rw [insts_append, Arena.get?_push, if_neg hg]
    exact fun h => h
  · rw [inst_nextHandle]
    rfl
  · intro id hid
    rw [inst_nextHandle] at hid
    cases hid

theorem inst_modify (m : Module) (h g : Handle) (f : Inst Handle → Inst Handle) :
    ({ m with insts := m.insts.modify h f } : Module).inst g =
      if h = g ∧ (m.insts.get? g).isSome then f (m.inst g) else m.inst g := by
  simp only [inst, Arena.get?_modify]
  by_cases hh : h = g
  · cases hg : m.insts.get? g <;> simp [hh]
  · simp [hh]

theorem inst_setKind (m : Module) (h g : Handle) (kind : Kind Handle) :
    (setKind h kind m).2.inst g =
      if h = g ∧ (m.insts.get? g).isSome then { m.inst g with kind } else m.inst g :=
  inst_modify m h g fun i => { i with kind }

theorem kindOf_setKind (m : Module) (h g : Handle) (kind : Kind Handle) :
    (setKind h kind m).2.kindOf g =
      if h = g ∧ (m.insts.get? g).isSome then kind else m.kindOf g := by
  rw [kindOf, inst_setKind, apply_ite Inst.kind, kindOf]

theorem insert_spec {bound : ResultId} {i : Inst Handle} {h : Handle} (hm : m.Indexed)
    (hbound : bound ≤ m.header.bound) (hins : insert bound i m = .ok (h, m')) :
    m.Inserts m' h i ∧ m'.Indexed ∧ ∀ id ∈ i.resultId, IdBelow bound id := by
  have hall : ∀ id ∈ i.resultId, IdBelow bound id := by
    intro id hid
    have hid' : i.resultId = some id := hid
    simp only [insert, hid'] at hins
    cases hcheck : checkId bound id with
    | error e =>
        rw [hcheck] at hins
        cases hins
    | ok id' => exact (checkId_eq_ok.1 hcheck).1
  have hlt : ∀ id ∈ i.resultId, id < m.header.bound :=
    fun id hid => UInt32.lt_of_lt_of_le (hall id hid).2 hbound
  have hnew (hfresh : ∀ id ∈ i.resultId, m.byId? id = none) (hstore : append i m = (h, m')) :
      m.Inserts m' h i ∧ m'.Indexed := by
    have hinserts := inserts_append hlt
    have hindexed := hm.append hfresh
    rw [hstore] at hinserts hindexed
    exact ⟨hinserts, hindexed⟩
  refine (and_assoc.1 ⟨?_, hall⟩)
  unfold insert at hins
  split at hins
  · rename_i hid
    exact hnew (by simp [hid]) (Except.ok.inj hins)
  rename_i id hid
  rw [checkId_eq_ok.2 ⟨hall id hid, rfl⟩] at hins
  simp only [bind, Except.bind] at hins
  split at hins
  · rename_i hbyId
    exact hnew (by simp [hid, hbyId]) (Except.ok.inj hins)
  rename_i g hbyId
  split at hins
  · rename_i hplace
    cases hins
    have hg := (hm id h).1 hbyId
    have hinst (f : Handle) :
        ({ m with insts := m.insts.modify h fun _ => i } : Module).inst f =
          if h = f then i else m.inst f := by
      rw [inst_modify]
      by_cases hf : h = f
      · rw [if_pos hf, if_pos ⟨hf, hf ▸ stored_of_resultId hg⟩]
      · rw [if_neg hf, if_neg (fun h => hf h.1)]
    refine ⟨⟨⟨_, _, rfl⟩, ?_, ?_, ?_, hplace, ?_⟩, ?_⟩
    · rw [hinst, if_pos rfl]
    · intro f hf
      rw [hinst, if_neg (Ne.symm hf)]
    · intro f hf
      rw [Arena.get?_modify, if_neg (Ne.symm hf)]
      exact fun h => h
    · intro id' hid'
      rw [hg] at hid'
      rw [hid, hid']
    · intro id' f
      rw [hinst]
      change m.byId? id' = some f ↔ _
      rw [hm]
      split
      · rename_i heq
        rw [← heq, hg, hid]
      · rfl
  · cases hins

/-- An instruction can be stored if its id is in bounds and not defined yet. -/
theorem exists_insert {bound : ResultId} {i : Inst Handle}
    (hbelow : ∀ id ∈ i.resultId, IdBelow bound id)
    (hfree : ∀ id ∈ i.resultId, ∀ h, m.byId? id = some h → (m.inst h).isPlaceholder) :
    ∃ h m', insert bound i m = .ok (h, m') := by
  unfold insert
  split
  · exact ⟨_, _, rfl⟩
  · rename_i id hid
    rw [checkId_eq_ok.2 ⟨hbelow id hid, rfl⟩]
    simp only [bind, Except.bind]
    split
    · exact ⟨_, _, rfl⟩
    · rename_i g hbyId
      rw [if_pos (hfree id hid g hbyId)]
      exact ⟨_, _, rfl⟩

end KernelGrid.Module
