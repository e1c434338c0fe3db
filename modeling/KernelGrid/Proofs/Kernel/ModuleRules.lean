import KernelGrid.Proofs.Kernel.CodeRules
import KernelGrid.Proofs.Kernel.Variables

/-!
# What entry points keep of modules

A property of modules that does not look at code is kept by entry points if it is kept by the
few edits outside functions that these are made of.
-/

namespace KernelGrid

open KernelGrid.Module

/-- A property of modules and one of uses that do not look at code, kept by what code
declares. -/
structure DeclarationRules (Q : Module → Prop) (U : Use → Prop) : Prop where
  code {m m' : Module} : Q m → m.Extends [] m' → m'.globals = m.globals → Q m'
  intern {m m' : Module} {d : Description} {h : Handle} : d.Proper →
    d.kind.isUniformVar = false → Q m → Module.intern d m = (h, m') → Q m'
  builtInVar {m : Module} (builtIn : Word) : Q m → Q (Module.builtInVar builtIn m).2
  addBuffer {m m' : Module} {element var : Handle} {binding : Word} : U (.element element) →
    Q m → Runs (Module.addBuffer element binding) m var m' → Q m'
  declaration (h : Handle) : U (.declaration h)
  value (h : Handle) : U (.value h)

namespace DeclarationRules

open Builder

variable {Q : Module → Prop} {U : Use → Prop} {known : List Use} (hr : DeclarationRules Q U)

include hr

theorem push (i : Inst Handle) :
    KeepsTrying (fun b => Q b.module) (fun _ => U) known (push i) fun h => [.value h] := by
  refine .of_cases fun b hb hknown => ?_
  obtain ⟨e, hpush⟩ | ⟨function, block, -, -, hpush⟩ := push_cases i b
  · exact .inl ⟨e, b, hpush, hb, hknown⟩
  · have hedits := (append_edits (m := b.module) (i := i) rfl).1
    exact .inr ⟨_, _, hpush, hr.code hb (hedits.toExtends.trans (Adds.of_code _ _ _).toExtends)
      (append_globals (m := b.module) (i := i) rfl).1,
      List.forall_mem_cons.2 ⟨hr.value _, hknown⟩⟩

theorem writes : WriteRules (fun b => Q b.module) fun _ => U where
  pushResult {known type kind} _ _ _ _ := by
    have hid : KeepsTrying (fun b => Q b.module) (fun _ => U) known (edit Module.allocId)
        fun _ => [] := fun b hb hknown =>
      ⟨hr.code hb (Edits.of_fields (List.prefix_refl _)).toExtends rfl, hknown⟩
    exact hid.bind fun id => hr.push _
  store _ _ := (hr.push _).mono (by simp)
  ret := .bind (hr.push _) fun _ _ hb hknown => ⟨hb, hknown⟩

theorem internDescription {d : Description}
    (hd : d.Proper) (hkind : d.kind.isUniformVar = false) :
    Keeps Q (fun _ => U) known (Module.intern d) fun h => [.declaration h] := fun _ hm hknown =>
  ⟨hr.intern hd hkind hm rfl, List.forall_mem_cons.2 ⟨hr.declaration _, hknown⟩⟩

theorem entryRules : EntryRules Q (fun _ => U) (fun b => Q b.module) fun _ => U where
  toWriteRules := hr.writes
  internType hkind _ := fun _ hb hknown =>
    hr.internDescription (Description.proper_type hkind) (Kind.isUniformVar_of_isType hkind) _
      hb hknown
  internConstant hkind _ _ := fun _ hb hknown =>
    hr.internDescription (Description.proper_constant hkind)
      (Kind.isUniformVar_of_isConstant hkind) _ hb hknown
  builtInVar builtIn := fun _ hb hknown =>
    ⟨hr.builtInVar builtIn hb, List.forall_mem_cons.2 ⟨hr.declaration _, hknown⟩⟩
  addBuffer {known element} binding _ helement := by
    refine .of_cases fun b hb hknown => ?_
    obtain ⟨e, hrun⟩ | ⟨var, m', hrun⟩ := addBuffer_cases element binding b.module
    · refine .inl ⟨e, b, ?_, hb, hknown⟩
      rw [attempt, hrun]
    · exact .inr ⟨var, _, runs_attempt.2 ⟨m', hrun, rfl⟩,
        hr.addBuffer (hknown _ helement) hb hrun,
        List.forall_mem_cons.2 ⟨hr.declaration var, hknown⟩⟩
  declareType hkind _ :=
    hr.internDescription (Description.proper_type hkind) (Kind.isUniformVar_of_isType hkind)
  opens {m known void type entry b} hm hknown _ _ hrun := by
    obtain ⟨entry', m₁, label, m₂, hentry, hlabel, hopen⟩ := openEntry_runs m void type
    obtain ⟨-, rfl⟩ := Prod.mk.inj (hopen.symm.trans hrun)
    have hextends := (define_edits hentry).1.toExtends.trans (define_edits hlabel).1.toExtends
    refine ⟨hr.code hm (hextends.trans (Adds.of_code m₂ _ m₂.entryPoints).toExtends) ?_,
      List.forall_mem_cons.2 ⟨hr.value _, hknown⟩⟩
    exact (define_globals hlabel).1.trans (define_globals hentry).1
  closes hb := hb

/-- Making an entry point keeps the property, also where it fails half-way. -/
theorem addEntry {m : Module} (hm : Q m) (k : Kernel)
    (hbuffers : ∀ c, k.callee? m = .ok (some c) →
    ∀ t ∈ c.bufferTypes, U (.element t)) : Q (addEntry k m).2 :=
  hr.entryRules.addEntry hm
    (fun c hcallee => Callee.forall_mem_uses.2 ⟨hr.value _, hr.declaration _,
      fun _ _ => hr.declaration _, hbuffers c hcallee⟩)
    fun _ _ _ _ _ _ _ b _ _ _ hb _ _ =>
      hr.code hb (Adds.of_code b.module b.module.functions _).toExtends rfl

end DeclarationRules

end KernelGrid
