import KernelGrid.Kernel.Lowering
import KernelGrid.Proofs.Kernel.EntryPoint
import KernelGrid.Proofs.Kernel.CodeRules
import KernelGrid.Proofs.Module.Intake

/-!
# Independence of kernels

Whether the entry point of a kernel can be made, and why not, is decided by the module before
any entry point was made: by the function of the kernel and by the sizes of the types that it
needs buffers of.
-/

namespace KernelGrid

/-! ## Steps whose outcome is known -/

section

variable {σ ε α β : Type} {P P' Q : σ → Prop} {r r' : Except ε Unit}

/-- From every state with the first property a step ends in one with the second, and its
outcome is the same in all of them. -/
def Decides (P Q : σ → Prop) (x : ExceptT ε (StateM σ) α) (r : Except ε Unit) : Prop :=
  ∀ s, P s → Q (x s).2 ∧ (x s).1.map (fun _ => ()) = r

namespace Decides

theorem pure {a : α} : Decides P P (Pure.pure a : ExceptT ε (StateM σ) α) (.ok ()) :=
  fun _ hs => ⟨hs, rfl⟩

theorem bind {x : ExceptT ε (StateM σ) α} {f : α → ExceptT ε (StateM σ) β}
    (hPQ : ∀ s, P' s → Q s) (hx : Decides P P' x r) (hf : ∀ a, Decides P' Q (f a) r') :
    Decides P Q (x >>= f) (r >>= fun _ => r') := by
  intro s hs
  obtain ⟨hs', hr⟩ := hx s hs
  rw [bind_apply]
  rcases hrun : x s with ⟨e | a, s'⟩
  all_goals
    rw [hrun] at hs' hr
    rw [← hr]
  · exact ⟨hPQ s' hs', rfl⟩
  · exact hf a s' hs'

/-- A step that succeeds does not show in the outcome. -/
theorem bind_ok {x : ExceptT ε (StateM σ) α} {f : α → ExceptT ε (StateM σ) β}
    (hPQ : ∀ s, P' s → Q s) (hx : Decides P P' x (.ok ())) (hf : ∀ a, Decides P' Q (f a) r) :
    Decides P Q (x >>= f) r := bind hPQ hx hf

theorem bind_of_ok {x : ExceptT ε (StateM σ) α} {f : α → ExceptT ε (StateM σ) β}
    (hPQ : ∀ s, P' s → Q s) (hx : Decides P P' x r) (hf : ∀ a, Decides P' Q (f a) (.ok ())) :
    Decides P Q (x >>= f) r := by
  have hbind := bind hPQ hx hf
  cases r with
  | error e => exact hbind
  | ok u => exact hbind

theorem bind_pure {x : ExceptT ε (StateM σ) α} (f : α → β) (hx : Decides P P x r) :
    Decides P P (x >>= fun a => Pure.pure (f a)) r := hx.bind_of_ok (fun _ => id) fun _ => pure

theorem mapM {xs : List β} {f : β → ExceptT ε (StateM σ) α} {r : β → Except ε Unit}
    (hf : ∀ b ∈ xs, Decides P P (f b) (r b)) : Decides P P (xs.mapM f) (forM xs r) := by
  induction xs with
  | nil => exact pure
  | cons b xs ih =>
      rw [List.forall_mem_cons] at hf
      rw [List.mapM_cons]
      exact hf.1.bind (fun _ => id) fun a => (ih hf.2).bind_pure _

end Decides

end

namespace Module

variable {m₀ m m' : Module} {known : List Use}

/-! ## Edits -/

theorem continues_intern {d : Description} {h : Handle} (hrun : intern d m = (h, m')) :
    m.Continues m' := by
  obtain ⟨-, rfl⟩ | ⟨m₁, hstored, rfl⟩ := intern_cases hrun
  · exact .refl m'
  · have hdeclared := (define_edits hstored).1.trans (declare_edits h m₁).1
    exact hdeclared.continues.trans (.of_tables _ _ _)

theorem sameCode_intern {d : Description} {h : Handle} (hrun : intern d m = (h, m')) :
    m.SameCode m' := by
  obtain ⟨-, rfl⟩ | ⟨m₁, hstored, rfl⟩ := intern_cases hrun
  · exact .refl m'
  · obtain ⟨hfunctions, hentries⟩ := (define_edits hstored).1.code
    exact ⟨hfunctions, hentries⟩

theorem keeps_continues {α : Type} {x : Edit α} {made : α → List Use}
    (hx : ∀ m a m', x m = (a, m') → m.Continues m') :
    Keeps m₀.Continues (fun _ _ => True) known x made :=
  fun m hm _ => ⟨hm.trans (hx m _ _ rfl), fun _ _ => trivial⟩

theorem continues_rules (m₀ : Module) : EditRules m₀.Continues fun _ _ => True where
  decorate _ := keeps_continues fun _ _ _ hrun => (annotate_edits hrun).continues
  memberDecorate _ := keeps_continues fun _ _ _ hrun => (annotate_edits hrun).continues
  internType _ _ := keeps_continues fun _ _ _ hrun => continues_intern hrun
  internConstant _ _ _ := keeps_continues fun _ _ _ hrun => continues_intern hrun
  freshStructType _ := keeps_continues fun m h m' hrun => by
    obtain ⟨h', m₁, hstored, hrun⟩ := edit_bind.1 hrun
    obtain ⟨_, m₂, hdeclare, hrun⟩ := edit_bind.1 hrun
    obtain ⟨_, m₃, hdistinct, hrun⟩ := edit_bind.1 hrun
    obtain ⟨rfl, rfl⟩ := edit_pure.1 hrun
    obtain rfl : m₂ = (declare h' m₁).2 := by rw [hdeclare]
    obtain rfl := (Prod.mk.inj hdistinct).2.symm
    have hdeclared := (define_edits hstored).1.trans (declare_edits h' m₁).1
    exact hdeclared.continues.trans (.of_tables _ _ _)
  addGlobalVar _ := keeps_continues fun _ _ _ hrun => (addGlobalVar_edits hrun).1.continues
  builtIn _ _ := trivial

theorem continues_builtInVar {builtIn : Word} {h : Handle}
    (hrun : builtInVar builtIn m = (h, m')) : m.Continues m' := by
  have hkept : Keeps m.Continues (fun _ _ => True) [] (builtInVar builtIn) _ :=
    (continues_rules m).builtInVar builtIn
  have hcontinues := hkept.state (.refl m)
  rwa [hrun] at hcontinues

end Module

/-! ## Buffers -/

namespace Module

variable {m₀ m m' : Module}

/-- A buffer cannot be made only if its elements have no size. -/
theorem addBuffer_outcome (element : Handle) (binding : Word) (m : Module) :
    (addBuffer element binding m).1.map (fun _ => ()) =
      (m.byteSize element).map fun _ => () := by
  unfold addBuffer
  rw [get_bind_apply]
  cases m.byteSize element with
  | error e => rfl
  | ok stride => rfl

theorem Continues.size_le (hmm : m.Continues m') : m.insts.size ≤ m'.insts.size := by
  cases hsize : m.insts.size with
  | zero => exact Nat.zero_le _
  | succ n =>
      have howns : m.Owns ⟨n⟩ := by
        rw [Owns, hsize]
        exact Nat.lt_succ_self n
      obtain ⟨i, hi⟩ := Option.isSome_iff_exists.1 (owns_iff.1 howns)
      exact owns_iff.2 (by rw [hmm.insts _ i hi]; rfl)

theorem Continues.inst_eq_of_owns (hmm : m.Continues m') {h : Handle} (hh : m.Owns h) :
    m'.inst h = m.inst h := hmm.inst_eq (owns_iff.1 hh)

theorem Continues.byteSize_eq (hmm : m.Continues m') (hm : m.Contained) (hacyclic : m.Acyclic)
    {t : Handle} (ht : m.Owns t) : m'.byteSize t = m.byteSize t :=
  hm.byteSize_eq hacyclic (fun _ hh => hmm.inst_eq_of_owns hh) hmm.size_le ht

def sizes (m : Module) (t : Handle) : Except ModuleError Unit := (m.byteSize t).map fun _ => ()

theorem decides_addBuffer (hm : m₀.Contained) (hacyclic : m₀.Acyclic) {element : Handle}
    (helement : m₀.Owns element) (binding : Word) :
    Decides m₀.Continues m₀.Continues (addBuffer element binding) (m₀.sizes element) := by
  intro m hmm
  have hkept : KeepsTrying m₀.Continues (fun _ _ => True) [Use.declaration element]
      (addBuffer element binding) _ :=
    (continues_rules m₀).addBuffer binding (List.mem_singleton_self _)
  refine ⟨(hkept m hmm fun _ _ => trivial).1, ?_⟩
  rw [addBuffer_outcome, hmm.byteSize_eq hm hacyclic helement, sizes]

end Module

/-! ## Code -/

namespace Builder

open KernelGrid.Module

variable {m₀ m : Module} {α : Type}

structure Writing (m₀ : Module) (b : Builder) : Prop where
  continues : m₀.Continues b.module
  function : ∃ i, b.function = some i ∧ m₀.functions.length ≤ i
  block : b.block.isSome

theorem modify_append_of_le {β : Type} {xs ys : List β} {i : Nat} (hi : xs.length ≤ i)
    (f : β → β) : (xs ++ ys).modify i f = xs ++ ys.modify (i - xs.length) f := by
  apply List.ext_getElem?
  intro n
  rw [List.getElem?_modify]
  by_cases hn : n < xs.length
  · have hne : i ≠ n := by omega
    simp [List.getElem?_append_left hn, hne]
  · rw [List.getElem?_append_right (by omega), List.getElem?_append_right (by omega),
      List.getElem?_modify]
    have hiff : i = n ↔ i - xs.length = n - xs.length := by omega
    simp only [hiff]

theorem continues_modifyFunction (hm : m₀.Continues m) {i : Nat} (hi : m₀.functions.length ≤ i)
    {f : FunctionDef → FunctionDef} (hf : ∀ g, (f g).function = g.function) :
    m₀.Continues { m with functions := m.functions.modify i f } := by
  obtain ⟨fs, hfs, hfresh⟩ := hm.functions
  refine ⟨hm.version, hm.generator, hm.insts, fun s hs hs' => ?_, hm.annotations, hm.globals,
    ⟨fs.modify (i - m₀.functions.length) f, ?_, fun g hg => ?_⟩, hm.entryPoints⟩
  · rw [← hm.sections s hs hs']
    cases s <;> rfl
  · exact (congrArg (·.modify i f) hfs).trans (modify_append_of_le hi f)
  · obtain ⟨n, hn⟩ := List.mem_iff_getElem?.1 hg
    rw [List.getElem?_modify] at hn
    obtain ⟨g', hg', rfl⟩ := Option.map_eq_some_iff.1 hn
    have hhead := hfresh g' (List.mem_of_getElem? hg')
    split
    · rwa [hf]
    · exact hhead

theorem writing_openEntry (hmm : m₀.Continues m) (void type : Handle) :
    ∃ entry b, Runs (openEntry void type) (.start m) entry b ∧ Writing m₀ b := by
  obtain ⟨entry, m₁, label, m₂, hentry, hlabel, hopen⟩ := openEntry_runs m void type
  obtain ⟨hedits, -, hfresh⟩ := define_edits hentry
  have h₂ := (hedits.trans (define_edits hlabel).1).continues
  refine ⟨entry, _, hopen, hmm.trans ?_, ⟨m.functions.length, rfl, ?_⟩, rfl⟩
  · refine ⟨h₂.version, h₂.generator, h₂.insts, fun s hs hs' => ?_, h₂.annotations, h₂.globals,
      ⟨_, rfl, List.forall_mem_singleton.2 hfresh⟩, h₂.entryPoints⟩
    rw [← h₂.sections s hs hs']
    cases s <;> rfl
  · obtain ⟨fs, hfs, -⟩ := hmm.functions
    rw [hfs, List.length_append]
    omega

theorem decides_edit {e : Edit α} (he : ∀ m a m', e m = (a, m') → m.Continues m') :
    Decides (Writing m₀) (Writing m₀) (edit e) (.ok ()) :=
  fun b hb => ⟨⟨hb.continues.trans (he b.module _ _ rfl), hb.function, hb.block⟩, rfl⟩

theorem decides_push (i : Inst Handle) :
    Decides (Writing m₀) (Writing m₀) (push i) (.ok ()) := by
  intro b hb
  obtain ⟨function, hfunction, hle⟩ := hb.function
  obtain ⟨e, hpush⟩ | ⟨function', block, hfunction', hblock, hpush⟩ := push_cases i b
  · obtain ⟨block, hblock⟩ := Option.isSome_iff_exists.1 hb.block
    obtain ⟨m, _, _⟩ := b
    obtain rfl : _ = some function := hfunction
    obtain rfl : _ = some block := hblock
    cases hpush
  · obtain rfl := Option.some.inj (hfunction.symm.trans hfunction')
    rw [hpush]
    have hstored : m₀.Continues (append i b.module).2 :=
      hb.continues.trans (append_edits rfl).1.continues
    exact ⟨⟨continues_modifyFunction hstored hle fun _ => rfl, ⟨function, hfunction, hle⟩,
      hb.block⟩, rfl⟩

theorem decides_pushResult (type : Handle) (kind : Kind Handle) :
    Decides (Writing m₀) (Writing m₀) (pushResult type kind) (.ok ()) := by
  refine .bind_ok (fun _ => id) ?_ fun id => decides_push _
  refine fun b hb => ⟨⟨hb.continues.trans ?_, hb.function, hb.block⟩, rfl⟩
  exact (Edits.of_fields (List.prefix_refl _)).continues

theorem decides_attempt {e : ExceptT ModuleError Edit α} {r : Except ModuleError Unit}
    (he : Decides m₀.Continues m₀.Continues e r) :
    Decides (Writing m₀) (Writing m₀) (attempt e) r :=
  fun b hb => ⟨⟨(he b.module hb.continues).1, hb.function, hb.block⟩,
    (he b.module hb.continues).2⟩

theorem decides_internType (kind : Kind Handle) :
    Decides (Writing m₀) (Writing m₀) (edit (internType kind)) (.ok ()) :=
  decides_edit fun _ _ _ hrun => continues_intern hrun

theorem decides_internConstant (type : Handle) (kind : Kind Handle) :
    Decides (Writing m₀) (Writing m₀) (edit (internConstant type kind)) (.ok ()) :=
  decides_edit fun _ _ _ hrun => continues_intern hrun

end Builder

open KernelGrid.Module Builder

variable {m₀ m : Module} {c : Callee}

theorem Cell.decides_emit (word : Handle) :
    Decides (Writing m₀) (Writing m₀) (Cell.emit word) (.ok ()) := by
  have hvar (builtIn : Word) :
      Decides (Writing m₀) (Writing m₀) (edit (builtInVar builtIn)) (.ok ()) :=
    decides_edit fun _ _ _ hrun => continues_builtInVar hrun
  unfold emit
  refine .bind_ok (fun _ => id) (decides_internType _) fun triple => ?_
  refine .bind_ok (fun _ => id) (hvar _) fun invocationId => ?_
  refine .bind_ok (fun _ => id) (decides_pushResult _ _) fun position => ?_
  refine .bind_ok (fun _ => id) (decides_pushResult _ _) fun x => ?_
  refine .bind_ok (fun _ => id) (decides_pushResult _ _) fun y => ?_
  refine .bind_ok (fun _ => id) (decides_pushResult _ _) fun z => ?_
  refine .bind_ok (fun _ => id) (decides_internConstant _ _) fun one => ?_
  refine .bind_ok (fun _ => id) (decides_internConstant _ _) fun groupSize => ?_
  refine .bind_ok (fun _ => id) (decides_pushResult _ _) fun groupSizeX => ?_
  refine .bind_ok (fun _ => id) (decides_pushResult _ _) fun groupSizeY => ?_
  refine .bind_ok (fun _ => id) (hvar _) fun numWorkgroups => ?_
  refine .bind_ok (fun _ => id) (decides_pushResult _ _) fun groups => ?_
  refine .bind_ok (fun _ => id) (decides_pushResult _ _) fun groupsX => ?_
  refine .bind_ok (fun _ => id) (decides_pushResult _ _) fun groupsY => ?_
  refine .bind_ok (fun _ => id) (decides_pushResult _ _) fun extentX => ?_
  refine .bind_ok (fun _ => id) (decides_pushResult _ _) fun extentY => ?_
  refine .bind_ok (fun _ => id) (decides_pushResult _ _) fun rowsBelow => ?_
  refine .bind_ok (fun _ => id) (decides_pushResult _ _) fun row => ?_
  refine .bind_ok (fun _ => id) (decides_pushResult _ _) fun cellsBefore => ?_
  exact (decides_pushResult _ _).bind_pure _

namespace Callee

variable (hm : m₀.Contained) (hacyclic : m₀.Acyclic)

include hm hacyclic

theorem decides_emitElement {element : Handle} (helement : m₀.Owns element) (zero : Handle)
    (cell : Cell) (binding : Word) :
    Decides (Writing m₀) (Writing m₀) (emitElement zero cell element binding)
      (m₀.sizes element) := by
  refine .bind_of_ok (fun _ => id)
    (decides_attempt (decides_addBuffer hm hacyclic helement binding)) fun buffer => ?_
  exact .bind_ok (fun _ => id) (decides_internType _) fun type => decides_pushResult _ _

theorem decides_emitInputs (hinputs : ∀ t ∈ c.inputTypes, m₀.Owns t) (zero : Handle)
    (cell : Cell) :
    Decides (Writing m₀) (Writing m₀) (c.emitInputs zero cell) (forM c.inputTypes m₀.sizes) := by
  have hmapM : Decides (Writing m₀) (Writing m₀) (c.emitInputs zero cell)
      (forM c.inputTypes.zipIdx fun x => m₀.sizes x.1) := by
    refine .mapM fun ⟨t, i⟩ hmem => ?_
    refine .bind_of_ok (fun _ => id) ?_ fun pointer => decides_pushResult _ _
    exact decides_emitElement hm hacyclic (hinputs t (List.fst_mem_of_mem_zipIdx hmem))
      zero cell _
  rwa [← List.forM_map, List.zipIdx_map_fst] at hmapM

omit hm hacyclic in
theorem decides_ret : Decides (Writing m₀) (fun b => m₀.Continues b.module) ret (.ok ()) := by
  refine .bind_ok (fun _ => Writing.continues) (decides_push _) fun _ => ?_
  exact fun b hb => ⟨hb.continues, rfl⟩

/-- The code of an entry point can be appended if its buffers can be made. -/
theorem decides_finish {word entry : Handle} {cell : Option Cell}
    (hresult : m₀.Owns c.resultType) (hinputs : ∀ t ∈ c.inputTypes, m₀.Owns t)
    (hcell : cell.isSome = c.signature.needsIndex) :
    Decides (Writing m₀) (fun b => m₀.Continues b.module) (c.finish word entry cell)
      (forM c.bufferTypes m₀.sizes) := by
  have hlast : Decides (Writing m₀) (fun b => m₀.Continues b.module) (do
      ret
      pure (entry, cell) : Build (Handle × Option Cell)) (.ok ()) :=
    .bind_ok (fun _ => id) decides_ret fun _ => .pure
  have hcall (arguments : List Handle) : Decides (Writing m₀) (Writing m₀)
      (functionCall c.resultType c.function arguments) (.ok ()) := decides_pushResult _ _
  refine .bind_ok (fun _ => Writing.continues) (decides_internConstant _ _) fun zero => ?_
  cases cell with
  | none =>
      rw [bufferTypes, if_neg (by simp [← hcell]), List.forM_nil]
      dsimp only
      rw [pure_bind]
      exact .bind_ok (fun _ => Writing.continues) (hcall []) fun result => hlast
  | some cell =>
      rw [bufferTypes, if_pos (by simp [← hcell]), List.forM_append]
      refine .bind (fun _ => Writing.continues)
        (decides_emitInputs hm hacyclic hinputs zero cell) fun inputs => ?_
      dsimp only
      rw [pure_bind]
      refine .bind_ok (fun _ => Writing.continues) (hcall _) fun result => ?_
      split
      · rw [List.forM_cons, List.forM_nil]
        refine .bind (fun _ => Writing.continues)
          (decides_emitElement hm hacyclic hresult zero cell outputBinding) fun pointer => ?_
        exact .bind_ok (fun _ => Writing.continues) (decides_push _) fun _ => hlast
      · rw [List.forM_nil]
        exact hlast

theorem decides_body (word entry : Handle) (hresult : m₀.Owns c.resultType)
    (hinputs : ∀ t ∈ c.inputTypes, m₀.Owns t) :
    Decides (Writing m₀) (fun b => m₀.Continues b.module) (c.body word entry)
      (forM c.bufferTypes m₀.sizes) := by
  unfold body
  by_cases hneeds : c.signature.needsIndex
  · rw [if_pos hneeds, bind_map_left]
    refine .bind_ok (fun _ => Writing.continues) (Cell.decides_emit word) fun cell => ?_
    exact decides_finish hm hacyclic hresult hinputs hneeds.symm
  · rw [if_neg hneeds, pure_bind]
    exact decides_finish hm hacyclic hresult hinputs (Bool.eq_false_iff.2 hneeds).symm

end Callee

/-! ## Entry points -/

/-- What comes of making the entry point of a kernel, as far as a module alone decides it. -/
def Kernel.verdict (k : Kernel) (m : Module) : Except KernelError EntryOutcome :=
  match k.callee? m with
  | .error e => .error e
  | .ok none => .ok .skipped
  | .ok (some c) =>
    ((forM c.bufferTypes m.sizes).map fun _ => .synthesized (entryName k.name)).mapError .module

def Kernel.stageVerdict (m : Module) (k : Kernel) : Except LoweringError Unit :=
  ((k.verdict m).map fun _ => ()).mapError .structural

variable {k : Kernel}

/-- A kernel that is not called leaves everything as it was. -/
theorem Module.addEntry_of_error {e : KernelError} (hcallee : k.callee? m = .error e) :
    addEntry k m = (.error e, m) := by
  unfold addEntry
  rw [get_bind_apply, hcallee]
  rfl

theorem Module.addEntry_of_none (hcallee : k.callee? m = .ok none) :
    addEntry k m = (.ok .skipped, m) := by
  unfold addEntry
  rw [get_bind_apply, hcallee]
  rfl

/-- The code of a callee is built behind three types, and only then is its function entered. -/
theorem Module.addEntry_of_callee? (hcallee : k.callee? m = .ok (some c)) :
    ∃ word void type m₃, m.Continues m₃ ∧ m₃.entryPoints = m.entryPoints ∧ addEntry k m =
      match c.emit word void type (.start m₃) with
      | (.error e, b) => (.error (.module e), b.module)
      | (.ok (entry, cell), b) =>
        (.ok (.synthesized (entryName k.name)), { b.module with
          entryPoints := b.module.entryPoints ++ [⟨.compute, entry, entryName k.name,
            cell.toList.flatMap Cell.interface, some ⟨1, 1, 1⟩⟩] }) := by
  rcases hword : unsignedType 32 m with ⟨word, m₁⟩
  rcases hvoid : voidType m₁ with ⟨void, m₂⟩
  rcases htype : functionType void [] m₂ with ⟨type, m₃⟩
  refine ⟨word, void, type, m₃, ?_, ?_, ?_⟩
  · exact ((continues_intern hword).trans (continues_intern hvoid)).trans
      (continues_intern htype)
  · exact (((sameCode_intern hword).trans (sameCode_intern hvoid)).trans
      (sameCode_intern htype)).entryPoints
  · unfold addEntry
    rw [get_bind_apply, hcallee]
    have hlift {α : Type} (e : Edit α) (m : Module) :
        (liftM e : ExceptT KernelError Edit α) m = (.ok (e m).1, (e m).2) := rfl
    have hok : (MonadExcept.ofExcept (.ok (some c)) :
        ExceptT KernelError Edit (Option Callee)) = pure (some c) := rfl
    rw [hok, pure_bind]
    dsimp only
    rw [bind_apply, hlift, hword]
    dsimp only
    rw [bind_apply, hlift, hvoid]
    dsimp only
    rw [bind_apply, hlift, htype]
    dsimp only
    rw [get_bind_apply]
    rcases hemit : c.emit word void type (.start m₃) with ⟨e | ⟨entry, cell⟩, b⟩
    all_goals
      have hemit : (c.emit word void type).run.run (.start m₃) = _ := hemit
      simp only [hemit]
      rfl

namespace Module

/-! ### What a kernel asks for -/

theorem Contained.findFunction?_eq (hm : m₀.Contained) (hmm : m₀.Continues m) (name : String) :
    m.findFunction? name = m₀.findFunction? name :=
  hmm.findFunction?_eq_of_stored (fun h hh => owns_iff.1 (hm.sections .debug h hh))
    fun _ hh => owns_iff.1 (hm.owns_of_named hh)

end Module

theorem Kernel.callee?_congr (hfind : m.findFunction? k.name = m₀.findFunction? k.name)
    (hinst : ∀ f ∈ m₀.functions, ∀ h ∈ f.handles, m.inst h = m₀.inst h) :
    k.callee? m = k.callee? m₀ := by
  unfold callee?
  rw [hfind]
  cases hf : m₀.findFunction? k.name with
  | none => rfl
  | some f =>
      have htype (h : Handle) (hh : h ∈ f.handles) : m.typeOf? h = m₀.typeOf? h :=
        congrArg Inst.resultType (hinst f (mem_functions_of_findFunction? hf) h hh)
      have hparameters : (f.parameters.take k.inputs.toNat).mapM m.typeOf? =
          (f.parameters.take k.inputs.toNat).mapM m₀.typeOf? := by
        have hmap : (f.parameters.take k.inputs.toNat).map m.typeOf? =
            (f.parameters.take k.inputs.toNat).map m₀.typeOf? :=
          List.map_congr_left fun h hh =>
            htype h (by simp [FunctionDef.handles, List.mem_of_mem_take hh])
        refine Option.ext fun types => ?_
        rw [mapM_eq_some, mapM_eq_some, hmap]
      have hresult : m.typeOf? f.function = m₀.typeOf? f.function :=
        htype _ (by simp [FunctionDef.handles])
      simp only [hparameters, hresult]

theorem Kernel.callee?_eq (hm : m₀.Contained) (hmm : m₀.Continues m) (k : Kernel) :
    k.callee? m = k.callee? m₀ :=
  callee?_congr (hm.findFunction?_eq hmm k.name)
    fun f hf h hh => hmm.inst_eq_of_owns (hm.functions f hf h hh)

theorem Module.Contained.owns_of_callee? (hm : m.Contained)
    (hcallee : k.callee? m = .ok (some c)) :
    m.Owns c.resultType ∧ ∀ t ∈ c.inputTypes, m.Owns t := by
  obtain ⟨f, hf⟩ := Kernel.exists_findFunction? hcallee
  obtain ⟨_, heq, hcalls⟩ := Kernel.calls_of_callee? hf hcallee
  obtain rfl := Option.some.inj heq
  refine ⟨hm.owns_of_typeOf? hcalls.resultType, fun t ht => ?_⟩
  have hsome : some t ∈ c.inputTypes.map some := List.mem_map_of_mem ht
  rw [← mapM_eq_some.1 hcalls.inputTypes] at hsome
  obtain ⟨p, -, hp⟩ := List.mem_map.1 hsome
  exact hm.owns_of_typeOf? hp

/-- What comes of a kernel is decided by the module that was there before any entry point. -/
theorem Module.addEntry_eq_verdict (hm : m₀.Contained) (hacyclic : m₀.Acyclic)
    (hmm : m₀.Continues m) (k : Kernel) :
    (addEntry k m).1 = k.verdict m₀ ∧ m₀.Continues (addEntry k m).2 := by
  have hcallee := Kernel.callee?_eq hm hmm k
  rw [Kernel.verdict, ← hcallee]
  cases hc : k.callee? m with
  | error e => exact ⟨congrArg Prod.fst (addEntry_of_error hc), addEntry_of_error hc ▸ hmm⟩
  | ok c? =>
      cases c? with
      | none => exact ⟨congrArg Prod.fst (addEntry_of_none hc), addEntry_of_none hc ▸ hmm⟩
      | some c =>
          obtain ⟨hresult, hinputs⟩ := hm.owns_of_callee? (hcallee.symm.trans hc)
          obtain ⟨word, void, type, m₃, h₃, -, hrun⟩ := addEntry_of_callee? hc
          obtain ⟨entry, b, hopen, hb⟩ := writing_openEntry (hmm.trans h₃) void type
          have hemit : c.emit word void type (.start m₃) = c.body word entry b := by
            rw [Callee.emit_eq_bind, bind_apply, hopen]
          obtain ⟨hcontinues, houtcome⟩ :=
            Callee.decides_body hm hacyclic word entry hresult hinputs b hb
          rw [hrun, hemit]
          rcases hbody : c.body word entry b with ⟨e | ⟨entry', cell⟩, b'⟩
          all_goals
            rw [hbody] at hcontinues houtcome
            simp only [← houtcome]
          · exact ⟨rfl, hcontinues⟩
          · refine ⟨rfl, hcontinues.trans ?_⟩
            refine ⟨rfl, rfl, fun _ _ => id, fun s _ _ => ?_, List.prefix_rfl, List.prefix_rfl,
              ⟨[], (List.append_nil _).symm, by simp⟩, List.prefix_append _ _⟩
            cases s <;> rfl

namespace Stage

theorem addEntry_eq (k : Kernel) (m : Module) (j : Journal) : ∃ j', addEntry m k j =
    ((Module.addEntry k m).1.bind (fun _ => .ok (Module.addEntry k m).2) |>.mapError .structural,
      j') := by
  have hlog (entries : List LogEntry) (j : Journal) :
      logAll entries j = (.ok (), { j with log := j.log ++ entries }) := rfl
  rcases hrun : Module.addEntry k m with ⟨e | outcome, m'⟩
  all_goals
    have hrun : (Module.addEntry k).run.run m = _ := hrun
    unfold addEntry
    rw [bind_apply, debug, hlog, hrun]
    dsimp only
    rw [bind_apply, hlog]
    exact ⟨_, rfl⟩

theorem addEntries_eq (hm : m₀.Contained) (hacyclic : m₀.Acyclic) (hmm : m₀.Continues m)
    (ks : List Kernel) (j : Journal) :
    ((ks.foldlM addEntry m) j).1.map (fun _ => ()) = forM ks (Kernel.stageVerdict m₀) := by
  induction ks generalizing m j with
  | nil => rfl
  | cons k ks ih =>
      obtain ⟨hverdict, hcontinues⟩ := addEntry_eq_verdict hm hacyclic hmm k
      obtain ⟨j', hrun⟩ := addEntry_eq k m j
      rw [List.foldlM_cons, List.forM_cons, bind_apply, hrun, hverdict, Kernel.stageVerdict]
      cases k.verdict m₀ with
      | error e => rfl
      | ok outcome => exact ih hcontinues j'

end Stage

theorem forM_isOk {α ε : Type} {f : α → Except ε Unit} {xs : List α} :
    (forM xs f).isOk ↔ ∀ x ∈ xs, (f x).isOk := by
  induction xs with
  | nil => simp [Except.isOk, Except.toBool, pure, Except.pure]
  | cons x xs ih =>
      rw [List.forM_cons, List.forall_mem_cons, ← ih]
      cases f x with
      | error e => simp [Except.isOk, Except.toBool, bind, Except.bind]
      | ok u => simp [Except.isOk, Except.toBool, bind, Except.bind]

/-- Kernels do not interfere: what comes of one is the same before and after another, and so
several of them succeed, in any order, exactly if each of them does alone.  Otherwise the first
that does not says why. -/
theorem Module.Contained.addEntries_independent (hm : m.Contained) (hacyclic : m.Acyclic) :
    (∀ k₁ k₂ : Kernel, (addEntry k₂ (addEntry k₁ m).2).1 = (addEntry k₂ m).1) ∧
      (∀ (ks ks' : List Kernel) (j : Journal), ks'.Perm ks →
        (((ks'.foldlM Stage.addEntry m) j).1.isOk ↔ ∀ k ∈ ks, (addEntry k m).1.isOk)) ∧
      ∀ (ks₁ : List Kernel) (k : Kernel) (ks₂ : List Kernel) (j : Journal) (e : KernelError),
        (∀ k' ∈ ks₁, (addEntry k' m).1.isOk) → (addEntry k m).1 = .error e →
        (((ks₁ ++ k :: ks₂).foldlM Stage.addEntry m) j).1 = .error (.structural e) := by
  have hverdict (k : Kernel) : (addEntry k m).1 = k.verdict m :=
    (addEntry_eq_verdict hm hacyclic (.refl m) k).1
  have hisOk {ε α : Type} (x : Except ε α) : (x.map fun _ => ()).isOk = x.isOk := by
    cases x <;> rfl
  have haccepted (k : Kernel) : (k.stageVerdict m).isOk = (addEntry k m).1.isOk := by
    rw [Kernel.stageVerdict, hverdict]
    cases k.verdict m <;> rfl
  refine ⟨fun k₁ k₂ => ?_, fun ks ks' j hperm => ?_, fun ks₁ k ks₂ j e hks₁ hk => ?_⟩
  · have hcontinues := (addEntry_eq_verdict hm hacyclic (.refl m) k₁).2
    rw [(addEntry_eq_verdict hm hacyclic hcontinues k₂).1, hverdict]
  · rw [← hisOk, Stage.addEntries_eq hm hacyclic (.refl m), forM_isOk]
    simp only [haccepted, hperm.mem_iff]
  · have hloop := Stage.addEntries_eq hm hacyclic (.refl m) (ks₁ ++ k :: ks₂) j
    have hfirst : (forM ks₁ (Kernel.stageVerdict m)).isOk :=
      forM_isOk.2 fun k' hk' => (haccepted k').trans (hks₁ k' hk')
    have hfail : k.stageVerdict m = .error (.structural e) := by
      rw [Kernel.stageVerdict, ← hverdict, hk]
      rfl
    rw [List.forM_append, List.forM_cons, hfail] at hloop
    cases hbefore : forM ks₁ (Kernel.stageVerdict m) with
    | error e' =>
        rw [hbefore] at hfirst
        cases hfirst
    | ok u =>
        rw [hbefore] at hloop
        cases houtcome : ((ks₁ ++ k :: ks₂).foldlM Stage.addEntry m j).1 with
        | error e' =>
            rw [houtcome] at hloop
            exact congrArg Except.error (Except.error.inj hloop)
        | ok m' =>
            rw [houtcome] at hloop
            cases hloop

def twoKernels : List Word :=
  [Stream.magic, 0x10000, 0, 10, 0, 0x30005, 5, 0x66, 0x30005, 8, 0x67, 0x30016, 1, 32,
    0x4001e, 2, 1, 1, 0x40021, 3, 2, 2, 0x20013, 7, 0x30021, 9, 7, 0x50036, 2, 5, 0, 3, 0x30037,
    2, 6, 0x10038, 0x50036, 7, 8, 0, 9, 0x10038]

/-- The first is accepted, and the second has no output to store, whatever is made before it. -/
theorem Module.Contained.addEntries_twoKernels : ∃ m, load twoKernels = .ok m ∧ ∀ j,
    ([⟨"f", ⟨0x23⟩, 1⟩, ⟨"g", ⟨0x22⟩, 0⟩].foldlM Stage.addEntry m j).1 =
      .error (.structural (.module (.unsized 7))) := by
  have hok : (load twoKernels).toOption.map (fun m =>
      (decide (∀ t ∈ m.insts.handles, ∀ u ∈ (m.kindOf t).parts, u.index < t.index),
        (addEntry ⟨"f", ⟨0x23⟩, 1⟩ m).1.isOk, (addEntry ⟨"g", ⟨0x22⟩, 0⟩ m).1)) =
      some (true, true, .error (.module (.unsized 7))) := by decide +kernel
  cases hload : load twoKernels with
  | error e =>
      rw [hload] at hok
      cases hok
  | ok m =>
      rw [hload] at hok
      obtain ⟨hparts, hok⟩ := Prod.mk.inj (Option.some.inj hok)
      obtain ⟨haccepted, hrejected⟩ := Prod.mk.inj hok
      have hindependent := addEntries_independent (contained_of_load hload)
        (acyclic_of_parts_lt (of_decide_eq_true hparts))
      exact ⟨m, rfl, fun j => hindependent.2.2 [⟨"f", ⟨0x23⟩, 1⟩] ⟨"g", ⟨0x22⟩, 0⟩ [] j _
        (List.forall_mem_singleton.2 haccepted) hrejected⟩

end KernelGrid
