import KernelGrid.Proofs.Kernel.CodeRules
import KernelGrid.Proofs.Kernel.EntryPoint
import KernelGrid.Proofs.Kernel.SoundEdits

/-!
# The code of entry points in sound modules

A builder that has selected a function and a block of a sound module keeps it sound, and so
does making an entry point, whether it succeeds or not.
-/

namespace KernelGrid

open KernelGrid.Module

namespace Kind

theorem of_isCode {k : Kind Handle} (hk : k.isCode) :
    k.Genuine ∧ (∀ text, .string text ∈ k.operands → '\x00' ∉ text.toList) ∧
      k.opcode ∉ FunctionDef.outlineOpcodes ∧ k.opcode ≠ Form.executionMode.opcode := by
  cases k
  case load | store | accessChain | compositeExtract | iAdd | iMul | functionCall | ret =>
    exact ⟨trivial, by simp [operands], by rw [opcode]; decide, by rw [opcode]; decide⟩
  all_goals cases hk

end Kind

namespace Builder

variable {b b' : Builder} {known : List Handle} {α : Type} {made : α → List Handle}

/-- Whether a builder builds a sound module, in which it has selected what it appends to. -/
structure Ready (b : Builder) : Prop where
  sound : b.module.Sound
  function : ∀ i ∈ b.function, i < b.module.functions.length
  block : ∀ i ∈ b.function, ∀ j ∈ b.block, ∃ f,
    b.module.functions[i]? = some f ∧ j < f.blocks.length

def Usable (b : Builder) (h : Handle) : Prop := b.module.Usable h

theorem Ready.edit (hb : b.Ready) {m : Module} (hm : b.module.Edited m) :
    ({ b with module := m } : Builder).Ready := by
  refine ⟨hm.sound, ?_, ?_⟩
  · intro i hi
    exact hm.code.functions.symm ▸ hb.function i hi
  · intro i hi j hj
    obtain ⟨f, hf, hlt⟩ := hb.block i hi j hj
    exact ⟨f, hm.code.functions.symm ▸ hf, hlt⟩

theorem keeps_edit {known : List Use} {made : α → List Use} {e : Edit α}
    (he : ∀ m₀, Keeps (Edited m₀) (fun m t => m.Usable t.handle) known e made) :
    KeepsTrying Ready (fun b t => b.Usable t.handle) known (edit e) made := by
  intro b hb hknown
  obtain ⟨hedited, hmade⟩ := he b.module b.module hb.sound.edited hknown
  exact ⟨hb.edit hedited, hmade⟩

theorem keeps_attempt {known : List Use} {made : α → List Use} {e : ExceptT ModuleError Edit α}
    (he : ∀ m₀, KeepsTrying (Edited m₀) (fun m t => m.Usable t.handle) known e made) :
    KeepsTrying Ready (fun b t => b.Usable t.handle) known (attempt e) made := by
  intro b hb hknown
  obtain ⟨hedited, hmade⟩ := he b.module b.module hb.sound.edited hknown
  exact ⟨hb.edit hedited, hmade⟩

/-! ## Appending to a block -/

theorem Ready.add {i : Inst Handle} {h : Handle} {m₁ : Module} {function block : Nat}
    (hb : b.Ready) (hfunction : b.function = some function) (hblock : b.block = some block)
    (hcode : i.kind.isCode) (hlayout : i.HasLayout)
    (hreferences : ∀ r ∈ i.references, b.module.Usable r) (hp : b.module.Puts i h m₁) :
    let m' := { m₁ with functions := m₁.functions.modify function fun f =>
      { f with blocks := f.blocks.modify block fun b' => { b' with body := b'.body ++ [h] } } }
    ({ b with module := m' } : Builder).Ready ∧ b.module.Grows m' ∧
      (i.resultId.isSome → m'.Usable h) := by
  intro m'
  obtain ⟨f, hf, hlt⟩ := hb.block function hfunction block hblock
  obtain ⟨hgenuine, hstrings, houtline, hmode⟩ := Kind.of_isCode hcode
  have hfunctions : m₁.functions = b.module.functions := by
    obtain ⟨bound, ids, rfl⟩ := hp.frame
    rfl
  have hkind : m₁.kindOf h = i.kind := by rw [kindOf, hp.inst_self]
  have hbody : f.blocks[block]? = some f.blocks[block] := List.getElem?_eq_getElem hlt
  have he : m₁.Enlists h m' := by
    refine enlists_body (hp.sound hb.sound hreferences) (hfunctions ▸ hf) hbody ?_ ?_
    · rwa [hkind]
    · rwa [hkind]
  obtain ⟨hgrows, husable⟩ := hb.sound.add hp he ⟨hgenuine, hlayout, hstrings⟩ hreferences
  refine ⟨⟨hgrows.sound, ?_, ?_⟩, hgrows, husable⟩
  · intro j hj
    change j < (m₁.functions.modify function _).length
    rw [List.length_modify, hfunctions]
    exact hb.function j hj
  · intro i' hi' j hj
    obtain rfl : function = i' := Option.some.inj (hfunction.symm.trans hi')
    obtain rfl : block = j := Option.some.inj (hblock.symm.trans hj)
    refine ⟨_, getElem?_modify_of_eq _ (hfunctions ▸ hf), ?_⟩
    change block < (f.blocks.modify block _).length
    rwa [List.length_modify]

theorem keeps_pushResult {type : Handle} {kind : Kind Handle} (hcode : kind.isCode)
    (htyped : kind.opcode.layout = .typed) (htype : type ∈ known)
    (hreferences : ∀ r ∈ kind.references, r ∈ known) :
    KeepsTrying Ready Usable known (pushResult type kind) fun h => [h] := by
  refine .of_cases fun b hb hknown => ?_
  let m₀ : Module := { b.module with header.bound := Word.next b.module.header.bound }
  have hgrows : b.module.Grows m₀ := hb.sound.raise (Word.le_next _)
  have hrun : (pushResult type kind) b =
      push ⟨some type, some b.module.header.bound, kind⟩ { b with module := m₀ } := rfl
  obtain ⟨e, hpush⟩ | ⟨function, block, hfunction, hblock, hpush⟩ :=
    push_cases ⟨some type, some b.module.header.bound, kind⟩ { b with module := m₀ }
  · exact .inl ⟨e, _, hrun.trans hpush, ⟨hgrows.sound, hb.function, hb.block⟩,
      fun r hr => hgrows.usable r (hknown r hr)⟩
  · refine .inr ⟨_, _, hrun.trans hpush, ?_⟩
    have hp : b.module.Puts ⟨some type, some b.module.header.bound, kind⟩
        (define (some type) kind b.module).1 (define (some type) kind b.module).2 :=
      puts_define rfl
    have hlayout : (⟨some type, some b.module.header.bound, kind⟩ : Inst Handle).HasLayout := by
      rw [Inst.HasLayout, Inst.opcode, htyped]
      exact .inl ⟨rfl, rfl⟩
    have hrefs : ∀ r ∈ (⟨some type, some b.module.header.bound, kind⟩ : Inst Handle).references,
        b.module.Usable r := by
      intro r hr
      obtain hr | hr := Inst.mem_references.1 hr
      · obtain rfl := Option.some.inj hr
        exact hknown type htype
      · exact hknown r (hreferences r hr)
    obtain ⟨hready, hgrows', husable⟩ := hb.add hfunction hblock hcode hlayout hrefs hp
    exact ⟨hready,
      List.forall_mem_cons.2 ⟨husable rfl, fun r hr => hgrows'.usable r (hknown r hr)⟩⟩

theorem keeps_push {kind : Kind Handle} (hcode : kind.isCode)
    (hplain : kind.opcode.layout = .plain) (hreferences : ∀ r ∈ kind.references, r ∈ known) :
    KeepsTrying Ready Usable known (push (.plain kind)) fun _ => [] := by
  refine .of_cases fun b hb hknown => ?_
  obtain ⟨e, hpush⟩ | ⟨function, block, hfunction, hblock, hpush⟩ := push_cases (.plain kind) b
  · exact .inl ⟨e, b, hpush, hb, hknown⟩
  · refine .inr ⟨_, _, hpush, ?_⟩
    have hp : b.module.Puts (.plain kind) (append (.plain kind) b.module).1
        (append (.plain kind) b.module).2 := puts_append rfl rfl
    have hlayout : (Inst.plain kind).HasLayout := by
      rw [Inst.HasLayout, Inst.opcode, Inst.plain, hplain]
      exact ⟨rfl, rfl⟩
    have hrefs : ∀ r ∈ (Inst.plain kind).references, b.module.Usable r := by
      intro r hr
      obtain hr | hr := Inst.mem_references.1 hr
      · cases hr
      · exact hknown r (hreferences r hr)
    obtain ⟨hready, hgrows, -⟩ := hb.add hfunction hblock hcode hlayout hrefs hp
    exact ⟨hready, fun r hr => hgrows.usable r (hknown r hr)⟩

/-! ## Functions and blocks -/

theorem keeps_beginFunction {result type : Handle} {control : Word} (hresult : result ∈ known)
    (htype : type ∈ known) :
    KeepsTrying Ready Usable known (beginFunction result control type) fun h => [h] := by
  refine .of_cases fun b hb hknown => .inr ?_
  rcases hstored : define (some result) (.function control type) b.module with ⟨h, m₁⟩
  have hp := puts_define hstored
  let m' : Module := { m₁ with functions := m₁.functions ++ [.empty h] }
  have hrun : beginFunction result control type b =
      (.ok h, ⟨m', some (m'.functions.length - 1), none⟩) := by
    have hfst : (define (some result) (.function control type) b.module).1 = h := by rw [hstored]
    have hsnd : (define (some result) (.function control type) b.module).2 = m₁ := by
      rw [hstored]
    subst hfst hsnd
    rfl
  have he : m₁.Enlists h m' := by
    refine enlists_function ?_
    rw [kindOf, hp.inst_self]
    rfl
  have hwritable : (⟨some result, some b.module.header.bound, .function control type⟩ :
      Inst Handle).Writable := by
    refine ⟨trivial, ?_, by simp [Kind.operands]⟩
    rw [Inst.hasLayout_iff .function rfl]
    exact .inl ⟨rfl, rfl⟩
  obtain ⟨hgrows, husable⟩ := hb.sound.add hp he hwritable (by
    intro r hr
    simp only [Inst.mem_references, Option.mem_def, Option.some.injEq, Kind.references,
      Kind.operands] at hr
    obtain rfl | hr := hr
    · exact hknown _ hresult
    · obtain rfl : type = r := by simpa using hr
      exact hknown _ htype)
  refine ⟨h, _, hrun, ⟨hgrows.sound, ?_, by simp⟩,
    List.forall_mem_cons.2 ⟨husable rfl, fun r hr => hgrows.usable r (hknown r hr)⟩⟩
  rintro i ⟨⟩
  simp [m']

theorem keeps_beginBlock : KeepsTrying Ready Usable known beginBlock fun h => [h] := by
  refine .of_cases fun b hb hknown => ?_
  obtain ⟨m, function, block⟩ := b
  cases function with
  | none => exact .inl ⟨_, _, rfl, hb, hknown⟩
  | some i =>
      rcases hstored : define none .label m with ⟨h, m₁⟩
      have hp := puts_define hstored
      let m' : Module := { m₁ with functions := m₁.functions.modify i fun f =>
        { f with blocks := f.blocks ++ [⟨h, []⟩] } }
      have hrun : beginBlock ⟨m, some i, block⟩ =
          (.ok h, ⟨m', some i, m'.functions[i]?.map fun f => f.blocks.length - 1⟩) := by
        have hfst : (define none .label m).1 = h := by rw [hstored]
        have hsnd : (define none .label m).2 = m₁ := by rw [hstored]
        subst hfst hsnd
        rfl
      have hfunctions : m₁.functions = m.functions := by
        obtain ⟨bound, ids, rfl⟩ := hp.frame
        rfl
      obtain ⟨f, hf⟩ : ∃ f, m₁.functions[i]? = some f :=
        ⟨_, List.getElem?_eq_getElem (hfunctions ▸ hb.function i rfl)⟩
      have he : m₁.Enlists h m' := by
        refine enlists_label (hp.sound hb.sound ?_) hf ?_
        · intro r hr
          simp [Inst.mem_references, Kind.references, Kind.operands] at hr
        · rw [kindOf, hp.inst_self]
          rfl
      have hwritable : (⟨none, some m.header.bound, .label⟩ : Inst Handle).Writable := by
        refine ⟨trivial, ?_, by simp [Kind.operands]⟩
        rw [Inst.hasLayout_iff .label rfl]
        exact ⟨rfl, .inl rfl⟩
      obtain ⟨hgrows, husable⟩ := hb.sound.add hp he hwritable (by
        intro r hr
        simp [Inst.mem_references, Kind.references, Kind.operands] at hr)
      have hf' : m'.functions[i]? = some { f with blocks := f.blocks ++ [⟨h, []⟩] } :=
        getElem?_modify_of_eq _ hf
      refine .inr ⟨h, _, hrun, ⟨hgrows.sound, ?_, ?_⟩,
        List.forall_mem_cons.2 ⟨husable rfl, fun r hr => hgrows.usable r (hknown r hr)⟩⟩
      · rintro _ ⟨⟩
        change i < (m₁.functions.modify i _).length
        rw [List.length_modify, hfunctions]
        exact hb.function i rfl
      · rintro _ ⟨⟩ j hj
        refine ⟨_, hf', ?_⟩
        rw [hf'] at hj
        obtain rfl := Option.some.inj hj
        simp

theorem keeps_ret : KeepsTrying Ready Usable known ret fun _ => [] := by
  refine .bind
    (keeps_push rfl (Form.layout_opcode .ret) (by simp [Kind.references, Kind.operands]))
    fun _ => ?_
  intro b hb hknown
  refine ⟨⟨hb.sound, hb.function, fun _ _ _ hj => ?_⟩, hknown⟩
  cases hj

/-! ## Instructions of entry points -/

theorem keeps_store {pointer object : Handle} (hpointer : pointer ∈ known)
    (hobject : object ∈ known) :
    KeepsTrying Ready Usable known (store pointer object) fun _ => [] :=
  keeps_push rfl (Form.layout_opcode .store)
    (by simpa [Kind.references, Kind.operands] using ⟨hpointer, hobject⟩)

theorem ready_writes : WriteRules Ready fun b t => b.Usable t.handle where
  pushResult {known _ kind} hcode htyped htype hreferences := by
    refine (keeps_pushResult hcode htyped (List.mem_map_of_mem (f := Use.handle) htype)
      fun r hr => ?_).comap
    obtain hr | hr := hreferences r hr
    · exact List.mem_map_of_mem (f := Use.handle) hr
    · exact List.mem_map_of_mem (f := Use.handle) hr
  store hpointer hobject := (keeps_store (List.mem_map_of_mem (f := Use.handle) hpointer)
    (List.mem_map_of_mem (f := Use.handle) hobject)).comap
  ret := keeps_ret.comap

theorem ready_rules : CodeRules Ready fun b t => b.Usable t.handle :=
  ready_writes.codeRules edited_rules (fun he => keeps_edit he) fun he => keeps_attempt he

end Builder

open Builder

namespace Module

variable {k : Kernel} {m : Module} {f : FunctionDef}

theorem exists_debugName_of_findFunction? {name : String} (hf : m.findFunction? name = some f) :
    ∃ h ∈ m.debug, m.kindOf h = .debugName f.function name := by
  obtain ⟨target, htarget, hdef⟩ := List.exists_of_findSome?_eq_some hf
  obtain ⟨h, hh, hname⟩ := List.mem_filterMap.1 htarget
  unfold functionDef? at hdef
  obtain rfl : f.function = target := by simpa using List.find?_some hdef
  split at hname
  next t text heq =>
    split at hname
    next htext =>
      obtain rfl := Option.some.inj hname
      exact ⟨h, hh, htext ▸ heq⟩
    · cases hname
  · cases hname

theorem Sound.usable_of_callee? (hm : m.Sound) {c : Callee} (hc : k.callee? m = .ok (some c)) :
    '\x00' ∉ k.name.toList ∧ ∀ h ∈ c.handles, m.Usable h := by
  obtain ⟨f, hf⟩ := Kernel.exists_findFunction? hc
  obtain ⟨c', heq, hcalls⟩ := Kernel.calls_of_callee? hf hc
  obtain rfl := Option.some.inj heq
  obtain ⟨g, hg, hname⟩ := exists_debugName_of_findFunction? hf
  have htype {h t : Handle} (ht : m.typeOf? h = some t) : m.Usable t :=
    hm.references h t (Inst.mem_references.2 (.inl ht))
  refine ⟨?_, List.forall_mem_cons.2 ⟨?_, List.forall_mem_cons.2 ⟨htype hcalls.resultType, ?_⟩⟩⟩
  · have hwritable := hm.writable g (mem_listed.2 (.inl ⟨.debug, hg⟩))
    exact hwritable.strings k.name (by
      change _ ∈ (m.kindOf g).operands
      simp [hname, Kind.operands])
  · rw [hcalls.function]
    exact hm.usable_of_kindOf (h := g) (by simp [hname, Kind.references, Kind.operands])
  · intro t ht
    have hsome : some t ∈ c.inputTypes.map some := List.mem_map_of_mem ht
    rw [← mapM_eq_some.1 hcalls.inputTypes] at hsome
    obtain ⟨p, -, hp⟩ := List.mem_map.1 hsome
    exact htype hp

theorem ready_start (hm : m.Sound) : (Builder.start m).Ready :=
  ⟨hm, fun _ hi => (nomatch hi), fun _ hi => (nomatch hi)⟩

theorem sound_rules : EntryRules Sound (fun m t => m.Usable t.handle) Ready
    fun b t => b.Usable t.handle where
  toCodeRules := ready_rules
  declareType hkind hreferences m hm hknown :=
    ((edited_rules m).internType hkind hreferences m hm.edited hknown).imp_left Edited.sound
  opens {m known void type entry b} hm hknown hvoid htype hrun := by
    have hopen : KeepsTrying Ready Builder.Usable (known.map Use.handle) (openEntry void type)
        fun h => [h] := by
      refine .bind (keeps_beginFunction (List.mem_map_of_mem (f := Use.handle) hvoid)
        (List.mem_map_of_mem (f := Use.handle) htype)) fun entry => ?_
      exact .bind keeps_beginBlock fun label => .pure (by simp)
    obtain ⟨hready, hmade⟩ := hopen (.start m) (ready_start hm) (List.forall_mem_map.2 hknown)
    have hrun : (openEntry void type).run (.start m) = (.ok entry, b) := hrun
    rw [hrun] at hready hmade
    refine ⟨hready, List.forall_mem_cons.2 ⟨hmade entry (by simp), fun t ht => ?_⟩⟩
    exact hmade t.handle (List.mem_append_right _ (List.mem_map_of_mem ht))
  closes hb := hb.sound

theorem Sound.not_entered (hm : m.Sound) {h : Handle} (hfresh : m.insts.get? h = none) :
    ∀ e ∈ m.entryPoints, e.function ≠ h := by
  rintro e he rfl
  have hstored := (hm.function_usable he).stored
  rw [hfresh] at hstored
  cases hstored

theorem Sound.usable_of_uses (hm : m.Sound) {c : Callee} (hcallee : k.callee? m = .ok (some c)) :
    ∀ t ∈ c.uses, m.Usable t.handle := by
  have husable := (hm.usable_of_callee? hcallee).2
  have hresult := husable c.resultType (by simp [Callee.handles])
  have hinputs : ∀ t ∈ c.inputTypes, m.Usable t :=
    fun t ht => husable t (by simp [Callee.handles, ht])
  exact Callee.forall_mem_uses.2 ⟨husable c.function (by simp [Callee.handles]), hresult,
    hinputs, Callee.forall_mem_bufferTypes hresult hinputs⟩

/-- What was emitted for a kernel may be entered under the name of the kernel. -/
theorem Sound.enter_emitted (hm : m.Sound) {c : Callee} {m₁ : Module}
    {word void type entry : Handle} {cell : Option Cell} {b : Builder}
    (hcallee : k.callee? m = .ok (some c)) (hm₁ : m₁.Sound)
    (hrun : Runs (c.emit word void type) (.start m₁) (entry, cell) b) (hb : b.Ready)
    (hentry : b.Usable entry)
    (hinterface : ∀ h ∈ cell.toList.flatMap Cell.interface, b.Usable h) :
    ({ b.module with entryPoints := b.module.entryPoints ++ [⟨.compute, entry, entryName k.name,
      cell.toList.flatMap Cell.interface, some ⟨1, 1, 1⟩⟩] } : Module).Sound := by
  obtain ⟨f, hf⟩ := Kernel.exists_findFunction? hcallee
  obtain ⟨_, heq, hcalls⟩ := Kernel.calls_of_callee? hf hcallee
  obtain rfl := Option.some.inj heq
  obtain ⟨notes, e, -, hentries, hadded, -⟩ := hcalls.emit_writes hm₁.interns hrun
  have hentered := hb.sound.enter (e := ⟨.compute, entry, entryName k.name,
    cell.toList.flatMap Cell.interface, some ⟨1, 1, 1⟩⟩) ?_ ?_ ?_
  · exact hentered.sound
  · simpa [entryName] using (hm.usable_of_callee? hcallee).1
  · exact List.forall_mem_cons.2 ⟨hentry, hinterface⟩
  · rw [hentries]
    exact hm₁.not_entered hadded.isFunction.1

/-- Making an entry point keeps a module sound, also if it fails half-way. -/
theorem Sound.addEntry (hm : m.Sound) (k : Kernel) : (addEntry k m).2.Sound :=
  sound_rules.addEntry hm (fun _ hcallee => hm.usable_of_uses hcallee)
    fun _ _ _ _ _ _ _ _ hcallee hm₁ hrun hb hentry hinterface =>
      hm.enter_emitted hcallee hm₁ hrun hb hentry hinterface

theorem Sound.of_runs_addEntry {m' : Module} {outcome : EntryOutcome} (hm : m.Sound)
    (hrun : Runs (Module.addEntry k) m outcome m') : m'.Sound :=
  hrun.state_eq ▸ hm.addEntry k

end Module

end KernelGrid
