import KernelGrid.Proofs.Module.Containment

/-!
# Handles while a stream is read

Ids that are mentioned get handles of the module, defined ones are stored under their handles,
and what is stored is listed by its handle.  So every assembly of records is contained, whether
the stream goes on well or not.
-/

namespace KernelGrid

open Relation KernelGrid.Stream

namespace Module

variable {m₀ m m' : Module} {known : List Handle}

/-! ## Linking -/

theorem reaches_reference (id : ResultId) :
    Keeps (Reaches m₀) Owns known (reference id) fun h => [h] := by
  apply keeps_reaches
  intro m h m' hrun hm hknown
  rw [reference_eq] at hrun
  cases hid : m.byId? id with
  | some g =>
      rw [hid] at hrun
      obtain ⟨rfl, rfl⟩ := Prod.mk.inj hrun
      exact ⟨.refl, List.forall_mem_singleton.2 (hm.ids id g hid)⟩
  | none =>
      rw [hid] at hrun
      have hreferences : ∀ r ∈ (Inst.placeholder id : Inst Handle).references, m.Owns r := by
        simp [Inst.references, Inst.placeholder, Kind.operands]
      exact ⟨.single (move_append hreferences hrun),
        List.forall_mem_singleton.2 (owns_self hrun)⟩

theorem reaches_references (ids : List ResultId) :
    Keeps (Reaches m₀) Owns known (ids.mapM reference) fun hs => hs := by
  induction ids generalizing known with
  | nil => exact .pure (by simp)
  | cons id ids ih =>
      rw [List.mapM_cons]
      refine .bind (reaches_reference id) fun h => ?_
      exact .bind ih fun hs => .pure (by simp +contextual)

theorem reaches_linkKind (k : Kind ResultId) :
    Keeps (Reaches m₀) Owns known (k.mapM reference) Kind.references := by
  cases k
  case executionMode | debugName | memberName | decorate | memberDecorate | typeVector
      | typeRuntimeArray | typePointer | typeForwardPointer | function | load | compositeExtract
      | retValue =>
    refine .bind (reaches_reference _) fun h => .pure ?_
    simp [Kind.references, Kind.operands, List.filterMap_cons]
  case typeArray | store | iAdd | iMul =>
    refine .bind (reaches_reference _) fun a => .bind (reaches_reference _) fun b => .pure ?_
    simp [Kind.references, Kind.operands]
  case typeStruct | constantComposite =>
    refine .bind (reaches_references _) fun hs => .pure ?_
    simp +contextual [Kind.references, Kind.operands]
  case typeFunction | accessChain | functionCall =>
    refine .bind (reaches_reference _) fun h => .bind (reaches_references _) fun hs => .pure ?_
    simp +contextual [Kind.references, Kind.operands]
  case var storage initializer =>
    cases initializer with
    | none => exact .pure (by simp [Kind.references, Kind.operands])
    | some id =>
        exact .bind (reaches_reference id) fun h =>
          .pure (by simp [Kind.references, Kind.operands])
  all_goals exact .pure (by simp [Kind.references, Kind.operands, List.filterMap_cons])

theorem reaches_link (i : Inst ResultId) :
    Keeps (Reaches m₀) Owns known i.link Inst.references := by
  obtain ⟨_ | type, id, k⟩ := i
  · refine .bind (reaches_linkKind k) fun k => .pure fun r hr => ?_
    exact List.mem_append_left _ hr
  · refine .bind (reaches_reference type) fun t => .bind (reaches_linkKind k) fun k => .pure ?_
    intro r hr
    obtain hr | hr := Inst.mem_references.1 hr
    · obtain rfl := Option.some.inj hr
      simp
    · exact List.mem_append_left _ hr

theorem reaches_linkEntryPoint (e : EntryPoint ResultId) :
    Keeps (Reaches m₀) Owns known e.link EntryPoint.references := by
  refine .bind (reaches_reference e.function) fun f => ?_
  refine .bind (reaches_references e.interface) fun hs => .pure ?_
  simp +contextual [EntryPoint.references]

theorem Contained.move_claimMode (hm : m.Contained) {kind : Kind Handle}
    (hclaim : m.claimMode? kind = some m') : m.Move m' := by
  unfold claimMode? at hclaim
  split at hclaim
  next entry mode x y z =>
    split at hclaim
    · obtain ⟨i, -, rfl⟩ := Option.map_eq_some_iff.1 hclaim
      refine .enter fun e he => ?_
      obtain ⟨n, hn⟩ := List.mem_iff_getElem?.1 he
      rw [List.getElem?_modify] at hn
      obtain ⟨e', he', heq⟩ := Option.map_eq_some_iff.1 hn
      have hentered := hm.entryPoints e' (List.mem_of_getElem? he')
      split at heq
      · rw [← heq]
        exact hentered
      · rw [← heq]
        exact hentered
    · cases hclaim
  · cases hclaim

end Module

/-! ## Assemblies -/

namespace OpenFunction

variable {f f' : OpenFunction} {op : Opcode} {h : Handle}

theorem mem_handles_of_add (hadd : f.add op h = .ok f') :
    ∀ g ∈ f'.close.handles, g = h ∨ g ∈ f.close.handles := by
  unfold add at hadd
  split at hadd
  · cases hadd
  split at hadd
  · split at hadd
    · cases hadd
      intro g hg
      simp only [close, FunctionDef.handles, List.mem_cons, List.mem_append, List.cons_append,
        List.not_mem_nil, or_false] at hg ⊢
      tauto
    · cases hadd
  split at hadd
  · cases hadd
    intro g hg
    simp only [close, FunctionDef.handles, List.mem_cons, List.mem_append, List.cons_append,
      List.flatMap_append, List.flatMap_cons, List.flatMap_nil, Option.toList_some,
      List.not_mem_nil, or_false] at hg ⊢
    tauto
  · cases hb : f.block with
    | none =>
        rw [hb] at hadd
        cases hadd
    | some b =>
        rw [hb] at hadd
        cases hadd
        intro g hg
        simp only [close, hb, FunctionDef.handles, List.mem_cons, List.mem_append,
          List.cons_append, List.flatMap_append, List.flatMap_cons, List.flatMap_nil,
          Option.toList_some, List.not_mem_nil, or_false] at hg ⊢
        tauto

end OpenFunction

namespace Assembly

variable {a a' : Assembly}

structure Intact (a : Assembly) : Prop where
  contained : a.module.Contained
  openHandles : ∀ h ∈ a.openHandles, a.module.Owns h

inductive Move (a : Assembly) : Assembly → Prop
  | module {m : Module} (hm : a.module.Move m) : Move a { a with module := m }
  /-- A definition takes the place of what stood for its id. -/
  | define {h : Handle} {i : Inst Handle} (hh : a.module.Owns h)
    (hplaceholder : (a.module.inst h).isPlaceholder) (hi : ∀ r ∈ i.references, a.module.Owns r) :
    Move a { a with module.insts := a.module.insts.modify h fun _ => i }
  | extend {f : OpenFunction} (hf : ∀ h ∈ f.close.handles, a.module.Owns h) :
    Move a { a with current := some f }
  | close {f : OpenFunction} (hf : a.current = some f) :
    Move a ⟨{ a.module with functions := a.module.functions ++ [f.close] }, none⟩

theorem Move.intact (hmove : a.Move a') (ha : a.Intact) : a'.Intact := by
  cases hmove with
  | module hm => exact ⟨hm.contained ha.contained, fun h hh => hm.owns (ha.openHandles h hh)⟩
  | define hh hplaceholder hi =>
      exact ⟨ha.contained.modify hi, fun h hh => (Module.owns_modify _).2 (ha.openHandles h hh)⟩
  | extend hf => exact ⟨ha.contained, by simpa [Assembly.openHandles] using hf⟩
  | @close f hf =>
      have hopen : ∀ h ∈ f.close.handles, a.module.Owns h := fun h hh =>
        ha.openHandles h (by simpa [Assembly.openHandles, hf] using hh)
      have hm := ha.contained
      refine ⟨⟨hm.references, fun s h hh => hm.sections s h ?_, hm.entryPoints, ?_, hm.ids,
        hm.interned, hm.distinct⟩, by simp [Assembly.openHandles]⟩
      · cases s <;> exact hh
      · intro g hg
        obtain hg | hg := List.mem_append.1 hg
        · exact hm.functions g hg
        · rw [List.mem_singleton.1 hg]
          exact hopen

theorem Intact.of_path (ha : a.Intact) (hpath : ReflTransGen Move a a') : a'.Intact := by
  induction hpath with
  | refl => exact ha
  | tail _ hmove ih => exact hmove.intact ih

theorem path_module {m : Module} (hpath : ReflTransGen Module.Move a.module m) :
    ReflTransGen Move a { a with module := m } :=
  hpath.lift (fun m => ({ a with module := m } : Assembly)) fun _ _ hmove => .module hmove

/-! ### Records -/

theorem path_insert {bound : ResultId} {i : Inst Handle} {h : Handle} {m : Module}
    (ha : a.Intact) (hi : ∀ r ∈ i.references, a.module.Owns r)
    (hins : a.module.insert bound i = .ok (h, m)) :
    ReflTransGen Move a { a with module := m } ∧ m.Owns h := by
  have happend (hrun : Module.append i a.module = (h, m)) :
      ReflTransGen Move a { a with module := m } ∧ m.Owns h :=
    ⟨.single (.module (Module.move_append hi hrun)), Module.owns_self hrun⟩
  unfold Module.insert at hins
  split at hins
  · exact happend (Except.ok.inj hins)
  obtain ⟨id, -, hins⟩ := except_bind.1 hins
  split at hins
  · exact happend (Except.ok.inj hins)
  next g hid =>
    split at hins
    next hplaceholder =>
      cases hins
      have hown := ha.contained.ids id h hid
      exact ⟨.single (.define hown hplaceholder hi), (Module.owns_modify _).2 hown⟩
    · cases hins

theorem path_place {op : Opcode} {h : Handle} (ha : a.Intact) (hh : a.module.Owns h)
    (hplace : place op h a = .ok a') : ReflTransGen Move a a' := by
  unfold place at hplace
  split at hplace
  next f hf =>
    obtain ⟨f', hadd, hplace⟩ := except_bind.1 hplace
    cases hplace
    refine .single (.extend fun g hg => ?_)
    obtain rfl | hg := OpenFunction.mem_handles_of_add hadd g hg
    · exact hh
    · exact ha.openHandles g (by simpa [Assembly.openHandles, hf] using hg)
  · split at hplace
    · cases hplace
      refine .single (.extend ?_)
      simpa [OpenFunction.close, FunctionDef.handles, FunctionDef.empty] using hh
    split at hplace
    · cases hplace
    · cases hplace
      exact .single (.module (ha.contained.move_add _ hh))

/-- Whatever an accepted record does to an intact assembly are elementary changes. -/
theorem path_accept {bound : ResultId} {r : Record} (ha : a.Intact)
    (hacc : a.accept bound r = .ok a') : ReflTransGen Move a a' := by
  unfold accept at hacc
  obtain ⟨item, -, hacc⟩ := except_bind.1 hacc
  cases item with
  | entryPoint e =>
      obtain ⟨hlinked, hreferences⟩ :=
        ha.contained.reaches_edit (Module.reaches_linkEntryPoint e)
      cases hacc
      refine (path_module hlinked.path).tail (.module (.enter ?_))
      exact List.forall_mem_append.2 ⟨hlinked.contained.entryPoints,
        List.forall_mem_singleton.2 hreferences⟩
  | functionEnd =>
      have hclose := mapError_eq_ok.1 hacc
      unfold close at hclose
      split at hclose
      next f hf =>
        cases hclose
        exact .single (.close hf)
      · cases hclose
  | inst i =>
      obtain ⟨hlinked, hreferences⟩ :=
        ha.contained.reaches_edit (Module.reaches_link i)
      rcases hlink : i.link a.module with ⟨j, m⟩
      simp only [hlink] at hlinked hreferences hacc
      have hpath := path_module hlinked.path
      have hintact := ha.of_path hpath
      split at hacc
      next m' hclaim =>
        cases hacc
        exact hpath.tail (.module (hlinked.contained.move_claimMode hclaim))
      · obtain ⟨⟨h, m'⟩, hins, hacc⟩ := except_bind.1 hacc
        obtain ⟨hinserted, hown⟩ := path_insert hintact hreferences hins
        have hpath := hpath.trans hinserted
        have hintact := ha.of_path hpath
        dsimp only at hacc
        split at hacc
        · cases hacc
          exact hpath.tail (.module (hintact.contained.move_add .executionModes hown))
        · exact hpath.trans (path_place hintact hown (mapError_eq_ok.1 hacc))

theorem path_accepts {bound : ResultId} {records : List Record} (ha : a.Intact)
    (hrun : records.foldlM (accept bound) a = .ok a') : ReflTransGen Move a a' := by
  induction records generalizing a with
  | nil =>
      cases hrun
      exact .refl
  | cons r records ih =>
      rw [List.foldlM_cons] at hrun
      obtain ⟨a₁, hacc, hrun⟩ := except_bind.1 hrun
      have hpath := path_accept ha hacc
      exact hpath.trans (ih (ha.of_path hpath) hrun)

theorem intact_start (header : Header) : (start header).Intact := by
  refine ⟨⟨?_, ?_, ?_, ?_, ?_, ?_, ?_⟩, ?_⟩
  · intro h r hr
    cases hr
  · intro s h hh
    cases s <;> cases hh
  · intro e he
    cases he
  · intro f hf
    cases hf
  · intro id h hh
    simp [Module.byId?, start, Module.empty] at hh
  · intro d h hh
    cases hh
  · intro h hh
    cases hh
  · intro h hh
    cases hh

end Assembly

namespace Module

variable {m : Module} {words : List Word}

/-- A stream that is read is assembled by elementary changes. -/
theorem path_decode (hdecode : decode words = .ok m) : ∃ header cursor a,
    Header.read words = .ok (header, cursor) ∧ a.module = m ∧
      ReflTransGen Assembly.Move (.start header) a := by
  obtain ⟨⟨header, cursor⟩, hread, hdecode⟩ := except_bind.1 hdecode
  dsimp only at hdecode
  obtain ⟨a, hrun, hdecode⟩ := except_bind.1 hdecode
  refine ⟨header, cursor, a, hread, ?_,
    Assembly.path_accepts (Assembly.intact_start header) hrun⟩
  split at hdecode
  · cases hdecode
  · unfold Assembly.finish at hdecode
    split at hdecode
    · cases hdecode
    · exact Except.ok.inj hdecode

theorem contained_of_decode (hdecode : decode words = .ok m) : m.Contained := by
  obtain ⟨header, _, a, -, rfl, hpath⟩ := path_decode hdecode
  exact ((Assembly.intact_start header).of_path hpath).contained

theorem Contained.move_resolve (hm : m.Contained) {m' : Module} (hresolve : m.resolve = .ok m') :
    m.Move m' := by
  unfold resolve at hresolve
  split at hresolve
  · cases hresolve
  · cases hresolve
    exact hm.move_reintern

theorem contained_of_load (hload : load words = .ok m) : m.Contained := by
  obtain ⟨m', hdecode, hload⟩ := except_bind.1 hload
  have hm := contained_of_decode (mapError_eq_ok.1 hdecode)
  exact (hm.move_resolve (mapError_eq_ok.1 hload)).contained hm

end Module

end KernelGrid
