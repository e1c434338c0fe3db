import KernelGrid.Kernel.Lowering
import KernelGrid.Proofs.Module.Additions
import KernelGrid.Proofs.Module.Decoded

/-!
# Sound modules

A module that was loaded is sound, and what is sound can be written and read again as long as its
ids are in range.  Each change of a sound module keeps what could be referred to before.
-/

namespace KernelGrid

namespace Module

variable {m m' : Module} {h : Handle}

/-- Whether an instruction may be referred to.  Of ids that are out of range nothing is
promised. -/
structure Usable (m : Module) (h : Handle) : Prop where
  isSome : (m.inst h).resultId.isSome
  listed : m.header.bound ≤ maxIdBound → h ∈ m.listed

theorem Usable.of_eq (hh : m.Usable h) (hheader : m'.header = m.header)
    (hinsts : m'.insts = m.insts) (hlisted : h ∈ m.listed → h ∈ m'.listed) : m'.Usable h := by
  refine ⟨?_, fun hbound => hlisted (hh.listed (hheader ▸ hbound))⟩
  rw [inst, hinsts]
  exact hh.isSome

theorem Usable.stored (hh : m.Usable h) : (m.insts.get? h).isSome := by
  have hid := hh.isSome
  cases hget : m.insts.get? h with
  | some i => rfl
  | none =>
      rw [inst, hget] at hid
      cases hid

structure Numbered (m : Module) : Prop where
  below : ∀ h, ∀ id ∈ (m.inst h).resultId, IdBelow m.header.bound id
  unique : ∀ h g id, (m.inst h).resultId = some id → (m.inst g).resultId = some id → h = g

/-- A module that lists everything once and where it belongs, and that refers to nothing but what
may be referred to. -/
structure Sound (m : Module) : Prop where
  bound_pos : 1 ≤ m.header.bound
  numbered : m.header.bound ≤ maxIdBound → m.Numbered
  nodup : m.listed.Nodup
  writable : ∀ h ∈ m.listed, (m.inst h).Writable
  references : ∀ h, ∀ r ∈ (m.inst h).references, m.Usable r
  sections : ∀ s : Section, ∀ h ∈ s.handles m,
    Section.ofOpcode (m.kindOf h).opcode = s ∧ (m.kindOf h).opcode ∉ FunctionDef.outlineOpcodes
  functions : ∀ f ∈ m.functions, f.Shaped fun h => (m.kindOf h).opcode
  bodies : ∀ f ∈ m.functions, ∀ b ∈ f.blocks, ∀ h ∈ b.body,
    (m.kindOf h).opcode ≠ Form.executionMode.opcode
  entryNames : ∀ e ∈ m.entryPoints, '\x00' ∉ e.name.toList
  entryReferences : ∀ e ∈ m.entryPoints, ∀ r ∈ e.references, m.Usable r
  sized : EntryPoint.SizedOnce m.entryPoints
  interned : ∀ d h, (d, h) ∈ m.interned → m.Usable h ∧ (m.inst h).description? = some d

theorem Sound.interns (hm : m.Sound) : m.Interns := fun d h hh => (hm.interned d h hh).2

theorem Sound.stored (hm : m.Sound) (hh : h ∈ m.listed) : (m.insts.get? h).isSome := by
  have hgenuine := (hm.writable h hh).genuine
  cases hget : m.insts.get? h with
  | some i => rfl
  | none =>
      rw [inst, hget] at hgenuine
      exact hgenuine.elim

theorem Sound.usable_of_kindOf (hm : m.Sound) {r : Handle} (hr : r ∈ (m.kindOf h).references) :
    m.Usable r := hm.references h r (Inst.mem_references.2 (.inr hr))

/-- What was sound has been changed, so that it still is and everything may be referred to as
before. -/
structure Grows (m m' : Module) : Prop where
  sound : m'.Sound
  usable : ∀ g, m.Usable g → m'.Usable g

theorem Sound.refl (hm : m.Sound) : m.Grows m := ⟨hm, fun _ => id⟩

theorem Grows.trans {m'' : Module} (h₁ : m.Grows m') (h₂ : m'.Grows m'') : m.Grows m'' :=
  ⟨h₂.sound, fun g hg => h₂.usable g (h₁.usable g hg)⟩

/-! ## Ids -/

theorem Numbered.idOf_below (hm : m.Numbered) (hh : (m.inst h).resultId.isSome) :
    IdBelow m.header.bound (m.idOf h) := by
  obtain ⟨id, hid⟩ := Option.isSome_iff_exists.1 hh
  rw [idOf_eq hid]
  exact hm.below h id hid

theorem Numbered.idOf_inj (hm : m.Numbered) {g : Handle} (hh : (m.inst h).resultId.isSome)
    (hg : (m.inst g).resultId.isSome) (heq : m.idOf h = m.idOf g) : h = g := by
  obtain ⟨id, hid⟩ := Option.isSome_iff_exists.1 hh
  obtain ⟨id', hid'⟩ := Option.isSome_iff_exists.1 hg
  rw [idOf_eq hid, idOf_eq hid'] at heq
  exact hm.unique h g id hid (heq ▸ hid')

/-! ## Writing and reading -/

section

variable (hm : m.Sound) (hbound : m.header.bound ≤ maxIdBound)

include hm hbound

omit hbound in
theorem Sound.function_usable {e : EntryPoint Handle} (he : e ∈ m.entryPoints) :
    m.Usable e.function := hm.entryReferences e he e.function List.mem_cons_self

/-- A sound module can be written and read again. -/
theorem Sound.legible : m.Legible where
  bound_pos := hm.bound_pos
  bound_le := hbound
  resultIds h _ := (hm.numbered hbound).below h
  distinctIds := hm.nodup.filterMap fun h g id hh hg => (hm.numbered hbound).unique h g id hh hg
  insts h hh := (hm.writable h hh).readable fun r hr =>
    (hm.numbered hbound).idOf_below (hm.references h r hr).isSome
  entries e he := by
    have hbelow (r : Handle) (hr : r ∈ e.references) : IdBelow m.header.bound (m.idOf r) :=
      (hm.numbered hbound).idOf_below (hm.entryReferences e he r hr).isSome
    refine ⟨hbelow e.function List.mem_cons_self, hm.entryNames e he, ?_, rfl⟩
    intro id hid
    obtain ⟨r, hr, rfl⟩ := List.mem_map.1 hid
    exact hbelow r (List.mem_cons_of_mem _ hr)
  sections := hm.sections
  functions := hm.functions
  bodies := hm.bodies

theorem Sound.regular (hsettled : m.Settled) : m.Regular where
  toLegible := hm.legible hbound
  sized := by
    rw [EntryPoint.SizedOnce, List.pairwise_map]
    refine List.Pairwise.imp_of_mem ?_ hm.sized
    intro e d he hd hsize heq
    exact hsize ((hm.numbered hbound).idOf_inj (hm.function_usable he).isSome
      (hm.function_usable hd).isSome heq)
  sizes := by
    intro h hh function x y z hkind hentered
    obtain ⟨e, he, heq⟩ := List.mem_map.1 hentered
    have hmem : function ∈ (m.inst h).references := Inst.mem_references.2 (.inr (by
      change function ∈ (m.kindOf h).references
      simp [hkind, Kind.references, Kind.operands]))
    exact hsettled h hh function x y z hkind e he ((hm.numbered hbound).idOf_inj
      (hm.function_usable he).isSome (hm.references h function hmem).isSome heq)

theorem Sound.defines_of_mem_mentions :
    ∀ x ∈ m.emitted, ∀ id ∈ x.1.mentions, m.Defines id := by
  apply Module.defines_of_mem_mentions
  · intro h hh r hr
    have husable := hm.references h r hr
    exact ⟨husable.listed hbound, husable.isSome⟩
  · intro e he r hr
    have husable := hm.entryReferences e he r hr
    exact ⟨husable.listed hbound, husable.isSome⟩

end

/-! ## Loading -/

end Module

theorem Kind.layout_of_isType {k : Kind Handle} (hk : k.isType) :
    k.opcode.layout = .untyped ∧ ∀ op words, k ≠ raw op words := by
  cases k
  case typeVoid | typeBool | typeInt | typeFloat | typeVector | typeArray | typeRuntimeArray |
      typeStruct | typePointer | typeFunction =>
    exact ⟨by rw [opcode, Form.layout_opcode, Form.layout], by simp⟩
  all_goals cases hk

theorem Kind.layout_of_isConstant {k : Kind Handle} (hk : k.isConstant) :
    k.opcode.layout = .typed ∧ ∀ op words, k ≠ raw op words := by
  cases k
  case constant | constantComposite =>
    exact ⟨by rw [opcode, Form.layout_opcode, Form.layout], by simp⟩
  all_goals cases hk

theorem Inst.Writable.isSome_of_description? {i : Inst Handle} (hi : i.Writable)
    {d : Description} (hd : i.description? = some d) : i.resultId.isSome := by
  have hlayout := hi.layout
  unfold description? at hd
  split at hd
  · rename_i htype
    obtain ⟨huntyped, hraw⟩ := Kind.layout_of_isType htype
    rw [HasLayout, opcode, huntyped] at hlayout
    obtain ⟨-, hid | ⟨op, hop⟩⟩ := hlayout
    · exact hid
    · exact absurd hop (hraw op [])
  split at hd
  · rename_i hconstant
    obtain ⟨htyped, hraw⟩ := Kind.layout_of_isConstant hconstant.1
    rw [HasLayout, opcode, htyped] at hlayout
    obtain ⟨-, hid⟩ | ⟨-, op, hop⟩ := hlayout
    · exact hid
    · exact absurd hop (hraw op [])
  · cases hd

namespace Module

variable {m m' : Module} {h : Handle}

theorem interned_reintern {d : Description} (hh : (d, h) ∈ m.reintern.interned) :
    h ∈ m.globals ∧ (m.inst h).description? = some d := by
  obtain ⟨g, hg, heq⟩ := List.mem_filterMap.1 hh
  split at heq
  · cases heq
  · obtain ⟨d', hd', heq⟩ := Option.map_eq_some_iff.1 heq
    obtain ⟨rfl, rfl⟩ := Prod.mk.inj heq
    exact ⟨hg, hd'⟩

theorem sections_reintern (s : Section) (m : Module) : s.handles m.reintern = s.handles m := by
  cases s <;> rfl

/-- A module that was read is sound if no id is left unresolved. -/
theorem Decoded.sound {records : List Stream.Record} {item : Stream.Record → Item ResultId}
    {origin : Handle → Option Stream.Record} (hD : m.Decoded records item origin)
    (hresolved : m.undefinedIds = []) : m.reintern.Sound := by
  have hlisted {h : Handle} (hid : (m.inst h).resultId.isSome) : h ∈ m.listed :=
    hD.mem_listed_of_isSome hid (undefinedIds_eq_nil.1 hresolved h hid)
  have husable {h : Handle} (hid : (m.inst h).resultId.isSome) : m.reintern.Usable h :=
    ⟨hid, fun _ => hlisted hid⟩
  have hwritable {h : Handle} (hh : h ∈ m.listed) : (m.inst h).Writable :=
    Inst.writable_of_readable (hD.readable_wire hh)
  refine ⟨hD.bound_pos, ?_, hD.nodup_listed, fun h hh => hwritable hh, ?_, ?_,
    hD.assembled.frames.functions, ?_, ?_, ?_, ?_, ?_⟩
  · refine fun _ => ⟨?_, ?_⟩
    · intro h id hid
      exact hD.resultId_below (hlisted (Option.isSome_iff_exists.2 ⟨id, hid⟩)) id hid
    · intro h g id hh hg
      have hbyId := (hD.assembled.stores.indexed id h).2 hh
      rw [(hD.assembled.stores.indexed id g).2 hg, Option.some.injEq] at hbyId
      exact hbyId.symm
  · exact fun h r hr => husable (hD.assembled.stores.closed h r hr)
  · intro s h hh
    rw [sections_reintern] at hh
    exact hD.section_eq hh
  · intro f hf b hb h hh
    exact hD.body_opcode_ne hf (List.mem_append_right _
      (List.mem_flatMap.2 ⟨b, hb, List.mem_cons_of_mem _ hh⟩))
  · exact fun e he => (hD.entry_readable he).name
  · exact fun e he r hr => husable (hD.assembled.enters.linked e he r hr)
  · have hsized := hD.sizedOnce
    rw [EntryPoint.SizedOnce, List.pairwise_map] at hsized
    exact hsized.imp fun hsize heq => hsize (congrArg m.idOf heq)
  · intro d h hh
    obtain ⟨hmem, hd⟩ := interned_reintern hh
    have hglobal : h ∈ m.listed := mem_listed.2 (.inl ⟨.globals, hmem⟩)
    exact ⟨husable ((hwritable hglobal).isSome_of_description? hd), hd⟩

theorem resolve_eq_ok : m.resolve = .ok m' ↔ m.undefinedIds = [] ∧ m' = m.reintern := by
  unfold resolve
  cases hids : m.undefinedIds with
  | nil => simp [eq_comm]
  | cons id ids => simp [List.min?]

theorem load_eq_ok {w : List Word} :
    load w = .ok m ↔ ∃ d, decode w = .ok d ∧ d.undefinedIds = [] ∧ m = d.reintern := by
  rw [load, except_bind]
  simp only [mapError_eq_ok, resolve_eq_ok]

/-- What was loaded is sound. -/
theorem sound_of_load {w : List Word} (hload : load w = .ok m) : m.Sound := by
  obtain ⟨d, hdecode, hresolved, rfl⟩ := load_eq_ok.1 hload
  obtain ⟨_, _, _, _, _, -, -, _, _, _, -, hD⟩ := exists_decoded hdecode
  exact hD.sound hresolved

end Module

end KernelGrid
