import KernelGrid.Inst.Statement

/-!
# Replacing references

An instruction is its shape together with what it refers to.  Replacing the references keeps the
shape, so a statement depends on the ids of the references only.
-/

namespace KernelGrid

variable {ρ σ τ : Type}

/-! ## Operands -/

namespace Operand

@[simp] theorem map_map (f : ρ → σ) (g : σ → τ) (t : Operand ρ) :
    (t.map f).map g = t.map (g ∘ f) := by
  cases t <;> rfl

@[simp] theorem target?_map (f : ρ → σ) (t : Operand ρ) :
    (t.map f).target? = t.target?.map f := by
  cases t <;> rfl

@[simp] theorem map_ref (f : ρ → σ) (r : ρ) : (ref r).map f = ref (f r) := rfl

@[simp] theorem map_literal (f : ρ → σ) (w : Word) : (literal w).map f = literal w := rfl

@[simp] theorem map_string (f : ρ → σ) (s : String) : (string s).map f = string s := rfl

@[simp] theorem map_hidden (f : ρ → σ) (w : Word) : (hidden w).map f = hidden w := rfl

@[simp] theorem map_remark (f : ρ → σ) (s : String) : (remark s).map f = remark s := rfl

@[simp] theorem map_enumerant {v : Vocabulary} (f : ρ → σ) (e : Enumerant v) :
    (e.operand : Operand ρ).map f = e.operand := rfl

@[simp] theorem target?_ref (r : ρ) : (ref r).target? = some r := rfl

@[simp] theorem target?_literal (w : Word) : (literal w : Operand ρ).target? = none := rfl

@[simp] theorem target?_string (s : String) : (string s : Operand ρ).target? = none := rfl

@[simp] theorem target?_hidden (w : Word) : (hidden w : Operand ρ).target? = none := rfl

@[simp] theorem target?_remark (s : String) : (remark s : Operand ρ).target? = none := rfl

@[simp] theorem target?_enumerant {v : Vocabulary} (e : Enumerant v) :
    (e.operand : Operand ρ).target? = none := rfl

@[simp] theorem target?_comp_map (f : ρ → σ) :
    target? ∘ map f = fun t : Operand ρ => t.target?.map f :=
  funext (target?_map f)

@[simp] theorem target?_comp_ref : target? ∘ (ref : ρ → Operand ρ) = some := rfl

@[simp] theorem target?_comp_literal :
    target? ∘ (literal : Word → Operand ρ) = fun _ => none := rfl

@[simp] theorem target?_comp_hidden :
    target? ∘ (hidden : Word → Operand ρ) = fun _ => none := rfl

end Operand

/-! ## Kinds -/

namespace Kind

def references (k : Kind ρ) : List ρ := k.operands.filterMap Operand.target?

def map (f : ρ → σ) (k : Kind ρ) : Kind σ := Id.run (k.mapM fun r => pure (f r))

@[simp] theorem opcode_map (f : ρ → σ) (k : Kind ρ) : (k.map f).opcode = k.opcode := by
  cases k
  case var storage initializer => cases initializer <;> rfl
  all_goals rfl

@[simp] theorem operands_map (f : ρ → σ) (k : Kind ρ) :
    (k.map f).operands = k.operands.map (Operand.map f) := by
  cases k
  case var storage initializer => cases initializer <;> rfl
  all_goals simp [map, mapM, operands, Function.comp_def]

theorem map_congr {f g : ρ → σ} {k : Kind ρ} (h : ∀ r ∈ k.references, f r = g r) :
    k.map f = k.map g := by
  cases k
  case var storage initializer =>
    cases initializer <;> simp_all [map, mapM, references, operands, List.filterMap_cons]
  all_goals simp_all [map, mapM, references, operands, List.filterMap_cons]

theorem map_map (f : ρ → σ) (g : σ → τ) (k : Kind ρ) : (k.map f).map g = k.map (g ∘ f) := by
  cases k
  case var storage initializer => cases initializer <;> rfl
  all_goals simp [map, mapM]

theorem map_id (k : Kind ρ) : k.map id = k := by
  cases k
  case var storage initializer => cases initializer <;> rfl
  all_goals simp [map, mapM]

end Kind

/-! ## Instructions -/

namespace Inst

def map (f : ρ → σ) (i : Inst ρ) : Inst σ := ⟨i.resultType.map f, i.resultId, i.kind.map f⟩

@[simp] theorem resultType_map (f : ρ → σ) (i : Inst ρ) :
    (i.map f).resultType = i.resultType.map f := rfl

@[simp] theorem resultId_map (f : ρ → σ) (i : Inst ρ) : (i.map f).resultId = i.resultId := rfl

@[simp] theorem kind_map (f : ρ → σ) (i : Inst ρ) : (i.map f).kind = i.kind.map f := rfl

@[simp] theorem opcode_map (f : ρ → σ) (i : Inst ρ) : (i.map f).opcode = i.opcode := by
  simp [opcode]

theorem mem_references {i : Inst ρ} {r : ρ} :
    r ∈ i.references ↔ r ∈ i.resultType ∨ r ∈ i.kind.references := by
  simp [references, Kind.references]

theorem references_map (f : ρ → σ) (i : Inst ρ) :
    (i.map f).references = i.references.map f := by
  cases htype : i.resultType with
  | none => simp [references, htype, List.filterMap_map, List.map_filterMap]
  | some type => simp [references, htype, List.filterMap_map, List.map_filterMap]

theorem map_congr {f g : ρ → σ} {i : Inst ρ} (h : ∀ r ∈ i.references, f r = g r) :
    i.map f = i.map g := by
  simp only [mem_references] at h
  have htype : i.resultType.map f = i.resultType.map g :=
    Option.map_congr fun r hr => h r (.inl hr)
  have hkind : i.kind.map f = i.kind.map g := Kind.map_congr fun r hr => h r (.inr hr)
  rw [map, map, htype, hkind]

theorem map_map (f : ρ → σ) (g : σ → τ) (i : Inst ρ) : (i.map f).map g = i.map (g ∘ f) := by
  simp [map, Kind.map_map]

theorem map_id (i : Inst ρ) : i.map id = i := by
  simp [map, Kind.map_id]

theorem statement_map (f : ρ → σ) (idOf : σ → ResultId) (i : Inst ρ) :
    (i.map f).statement idOf = i.statement (idOf ∘ f) := by
  simp [statement, Function.comp_def]

end Inst

/-! ## Entry points -/

namespace EntryPoint

def map (f : ρ → σ) (e : EntryPoint ρ) : EntryPoint σ :=
  ⟨e.model, f e.function, e.name, e.interface.map f, e.localSize⟩

def references (e : EntryPoint ρ) : List ρ := e.function :: e.interface

theorem references_map (f : ρ → σ) (e : EntryPoint ρ) :
    (e.map f).references = e.references.map f := rfl

theorem map_congr {f g : ρ → σ} {e : EntryPoint ρ} (h : ∀ r ∈ e.references, f r = g r) :
    e.map f = e.map g := by
  simp only [references, List.forall_mem_cons] at h
  rw [map, map, h.1, List.map_congr_left h.2]

theorem map_map (f : ρ → σ) (g : σ → τ) (e : EntryPoint ρ) :
    (e.map f).map g = e.map (g ∘ f) := by
  simp [map]

theorem map_id (e : EntryPoint ρ) : e.map id = e := by
  simp [map]

theorem statement_map (f : ρ → σ) (idOf : σ → ResultId) (e : EntryPoint ρ) :
    (e.map f).statement idOf = e.statement (idOf ∘ f) := by
  simp [statement, map, Function.comp_def]

end EntryPoint

end KernelGrid
