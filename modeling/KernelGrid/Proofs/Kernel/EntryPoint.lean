import KernelGrid.Proofs.Kernel.EntryCode

/-!
# Added entry points

What becomes of a module when the entry point of a kernel is made.
-/

namespace KernelGrid

/-- How a callee follows from a kernel that was accepted, and from its function. -/
structure Kernel.Calls (k : Kernel) (m : Module) (f : FunctionDef) (c : Callee) : Prop where
  signature : c.signature = k.signature
  function : c.function = f.function
  parameters : k.inputs.toNat ≤ f.parameters.length
  inputTypes : (f.parameters.take k.inputs.toNat).mapM m.typeOf? = some c.inputTypes
  resultType : m.typeOf? f.function = some c.resultType
  accepted : k.signature.check k.name k.inputs = .ok ()

variable {k : Kernel} {m m' : Module} {f : FunctionDef} {c : Callee}

namespace Kernel

theorem calls_of_callee? {r : Option Callee} (hf : m.findFunction? k.name = some f)
    (hr : k.callee? m = .ok r) : ∃ c, r = some c ∧ k.Calls m f c := by
  unfold callee? at hr
  simp only [hf] at hr
  obtain ⟨_, hcheck, hr⟩ := except_bind.1 hr
  split at hr
  · cases hr
  next hlength =>
    split at hr
    next inputTypes hinputs =>
      split at hr
      next resultType hresult =>
        obtain rfl := Except.ok.inj hr
        exact ⟨_, rfl, rfl, rfl, Nat.le_of_not_lt hlength, hinputs, hresult, hcheck⟩
      · cases hr
    · cases hr

theorem exists_findFunction? (hr : k.callee? m = .ok (some c)) :
    ∃ f, m.findFunction? k.name = some f := by
  cases hf : m.findFunction? k.name with
  | some f => exact ⟨f, rfl⟩
  | none =>
      unfold callee? at hr
      simp only [hf] at hr
      split at hr
      · cases hr
      · cases hr

theorem Calls.inputTypes_length (hc : k.Calls m f c) : c.inputTypes.length = k.inputs.toNat := by
  have hlength := congrArg List.length (mapM_eq_some.1 hc.inputTypes)
  rw [List.length_map, List.length_map, List.length_take,
    Nat.min_eq_left hc.parameters] at hlength
  exact hlength.symm

theorem Calls.inputTypes_eq_nil (hc : k.Calls m f c) (hneeds : ¬c.signature.needsIndex) :
    c.inputTypes = [] := by
  have haccepted := hc.accepted
  rw [hc.signature] at hneeds
  unfold Signature.check at haccepted
  split at haccepted
  · cases haccepted
  split at haccepted
  · cases haccepted
  split at haccepted
  · cases haccepted
  split at haccepted
  · cases haccepted
  next hinputs =>
    have hzero : k.inputs.toNat = 0 := by
      rw [Bool.not_eq_true] at hneeds
      simp only [hneeds, Bool.not_false, and_true, UInt32.not_lt] at hinputs
      exact Nat.le_zero.1 hinputs
    exact List.length_eq_zero_iff.1 (hc.inputTypes_length.trans hzero)

end Kernel

open KernelGrid.Builder

theorem Kernel.Calls.emit_writes {word void type entry : Handle} {cell : Option Cell}
    {b : Builder} (hc : k.Calls m f c) (hm : m'.Interns)
    (hrun : Runs (c.emit word void type) (.start m') (entry, cell) b) :
    ∃ notes, ∃ e : EntryCode, e.cell.map CellCode.cell = cell ∧
      b.module.entryPoints = m'.entryPoints ∧ e.Added c entry void type m' notes b.module ∧
      e.Fits c word m' notes b.module := by
  by_cases hneeds : c.signature.needsIndex
  · exact Callee.emit_writes_of_needsIndex hm hneeds hrun
  · exact Callee.emit_writes_of_not_needsIndex hm hneeds (hc.inputTypes_eq_nil hneeds) hrun

/-- The code of the entry point and everything that it refers to are new or were interned. -/
theorem Module.addEntry_adds {outcome : EntryOutcome} (hm : m.Interns)
    (hf : m.findFunction? k.name = some f) (hrun : Runs (addEntry k) m outcome m') :
    ∃ notes entry word void type c, ∃ e : EntryCode,
      outcome = .synthesized (entryName k.name) ∧ k.Calls m f c ∧
      m'.entryPoints = m.entryPoints ++
        [⟨.compute, entry, entryName k.name, e.interface, some ⟨1, 1, 1⟩⟩] ∧
      m'.Describes word ⟨none, .typeInt 32 false⟩ ∧ m'.Describes void ⟨none, .typeVoid⟩ ∧
      m'.Describes type ⟨none, .typeFunction void []⟩ ∧
      e.Added c entry void type m notes m' ∧ e.Fits c word m notes m' := by
  obtain ⟨_, _, hget, hrun⟩ := runs_bind.1 hrun
  obtain ⟨rfl, rfl⟩ := runs_get.1 hget
  obtain ⟨r, _, hcallee, hrun⟩ := runs_bind.1 hrun
  obtain ⟨hr, rfl⟩ := runs_ofExcept.1 hcallee
  obtain ⟨c, rfl, hc⟩ := Kernel.calls_of_callee? hf hr
  dsimp only at hrun
  obtain ⟨word, m₁, hword, hrun⟩ := runs_bind.1 hrun
  obtain ⟨h₁, hword⟩ := intern_edits (Description.proper_type rfl) hm (runs_lift.1 hword)
  obtain ⟨void, m₂, hvoid, hrun⟩ := runs_bind.1 hrun
  have hm₁ := h₁.interns hm
  obtain ⟨h₂, hvoid⟩ := intern_edits (Description.proper_type rfl) hm₁ (runs_lift.1 hvoid)
  obtain ⟨type, m₃, htype, hrun⟩ := runs_bind.1 hrun
  have hm₂ := h₂.interns hm₁
  obtain ⟨h₃, htype⟩ := intern_edits (Description.proper_type rfl) hm₂ (runs_lift.1 htype)
  obtain ⟨_, _, hget, hrun⟩ := runs_bind.1 hrun
  obtain ⟨rfl, rfl⟩ := runs_get.1 hget
  generalize hemit : (c.emit word void type).run.run (.start m₃) = emitted at hrun
  obtain ⟨result, b⟩ := emitted
  dsimp only at hrun
  obtain ⟨_, _, hset, hrun⟩ := runs_bind.1 hrun
  obtain rfl := runs_set.1 hset
  obtain ⟨⟨entry, cell⟩, _, hemitted, hrun⟩ := runs_bind.1 hrun
  obtain ⟨hresult, rfl⟩ := runs_ofExcept.1 hemitted
  have hemit : Runs (c.emit word void type) (.start m₃) (entry, cell) b := by
    cases result with
    | error e => cases hresult
    | ok r =>
        obtain rfl := Except.ok.inj hresult
        exact hemit
  have h₀ : m.Edits [] m₃ := (h₁.trans h₂).trans h₃
  obtain ⟨notes, e, rfl, hentries, hadded, hfits⟩ := hc.emit_writes (h₃.interns hm₂) hemit
  obtain ⟨_, _, hmodify, hrun⟩ := runs_bind.1 hrun
  obtain rfl := runs_modify.1 hmodify
  obtain ⟨rfl, rfl⟩ := runs_pure.1 hrun
  refine ⟨notes, entry, word, void, type, c, e, rfl, hc, ?_, ?_, ?_, ?_,
    (hadded.after h₀).withEntryPoints _, (hfits.after h₀).withEntryPoints _⟩
  · dsimp only
    rw [hentries, h₀.code.entryPoints]
    cases hcell : e.cell <;> simp [EntryCode.interface, hcell]
  · exact hadded.adds.describes (h₃.describes (h₂.describes hword))
  · exact hadded.adds.describes (h₃.describes hvoid)
  · exact hadded.adds.describes htype

end KernelGrid
