import KernelGrid.Proofs.Kernel.BuilderMoves
import KernelGrid.Proofs.Kernel.Independence
import KernelGrid.Proofs.Kernel.Operations
import KernelGrid.Proofs.Module.Consolidation
import KernelGrid.Proofs.Module.Intake

/-!
# Variables of built-in values

A built-in value is in the variable that the first note about it names, and where no note names
one, in a new variable of three unsigned words.  What is attached and declared later comes
behind that note, so whoever asks again is given the same variable.
-/

namespace KernelGrid.Module

open Relation

variable {m₀ m m' m'' : Module} {builtIn : Word} {note var h : Handle}

/-! ## What comes later -/

structure Accretes (m m' : Module) : Prop where
  insts : m.Outlasts m'
  annotations : m.annotations <+: m'.annotations

theorem Accretes.refl (m : Module) : m.Accretes m := ⟨fun _ _ => id, List.prefix_rfl⟩

theorem Accretes.trans (h₁ : m.Accretes m') (h₂ : m'.Accretes m'') : m.Accretes m'' :=
  ⟨fun h i hi => h₂.insts h i (h₁.insts h i hi), h₁.annotations.trans h₂.annotations⟩

theorem Continues.accretes (hmm : m.Continues m') : m.Accretes m' := ⟨hmm.insts, hmm.annotations⟩

theorem Contained.findBuiltIn?_of_accretes (hm : m.Contained) (hmm : m.Accretes m')
    (hfind : m.findBuiltIn? builtIn = some var) : m'.findBuiltIn? builtIn = some var := by
  obtain ⟨hs, heq⟩ := hmm.annotations
  rw [findBuiltIn?_eq_findSome?, ← heq, List.findSome?_append, hm.findSome?_notedVar? hmm.insts,
    hfind]
  rfl

/-- A decoration, a name, a type, a constant or a variable is asked for. -/
inductive Enriches (m : Module) : Module → Prop
  | decorate (target : Handle) (decoration : Decoration) (words : List Word) :
    Enriches m (decorate target decoration words m).2
  | memberDecorate (target : Handle) (member : Word) (decoration : Decoration)
    (words : List Word) : Enriches m (memberDecorate target member decoration words m).2
  | setName (target : Handle) (name : String) : Enriches m (setName target name m).2
  | request (r : Request) : Enriches m (r.make m).2
  | freshStructType (members : List Handle) : Enriches m (freshStructType members m).2
  | addGlobalVar (pointer : Handle) (storage : StorageClass) :
    Enriches m (addGlobalVar pointer storage m).2
  | builtInVar (builtIn : Word) : Enriches m (builtInVar builtIn m).2

theorem accretes_setName (target : Handle) (name : String) (m : Module) :
    m.Accretes (setName target name m).2 := by
  rcases hstored : append (.plain (.debugName target name)) m with ⟨h, m₁⟩
  have hname : setName target name m = ((), { m₁ with debug := m₁.debug ++ [h] }) := by
    simp only [setName, bind, StateT.bind, hstored]
    rfl
  have hmm := (append_edits hstored).1.continues
  rw [hname]
  exact ⟨hmm.insts, hmm.annotations⟩

theorem Enriches.accretes (hstep : m.Enriches m') : m.Accretes m' := by
  cases hstep with
  | decorate target decoration words => exact (annotate_edits rfl).continues.accretes
  | memberDecorate target member decoration words =>
      exact (annotate_edits rfl).continues.accretes
  | setName target name => exact accretes_setName target name m
  | request r =>
      rw [r.make_eq]
      exact (continues_intern rfl).accretes
  | freshStructType members =>
      have hknown : ∀ r ∈ members, Use.declaration r ∈ members.map .declaration :=
        fun r hr => List.mem_map_of_mem hr
      have hkept := (continues_rules m).freshStructType hknown
      exact (hkept m (.refl m) fun _ _ => trivial).1.accretes
  | addGlobalVar pointer storage => exact (addGlobalVar_edits rfl).1.continues.accretes
  | builtInVar builtIn => exact (continues_builtInVar rfl).accretes

theorem accretes_of_enriches (hsteps : ReflTransGen Enriches m m') : m.Accretes m' := by
  induction hsteps with
  | refl => exact .refl m
  | tail _ hstep ih => exact ih.trans hstep.accretes

/-! ## The variable -/

structure IsInputTriple (m : Module) (var : Handle) : Prop where
  typed : ∃ word triple pointer, m.Results var pointer (.var .input none) ∧
    m.Describes pointer ⟨none, .typePointer .input triple⟩ ∧
    m.Describes triple ⟨none, .typeVector word 3⟩ ∧ m.Describes word ⟨none, .typeInt 32 false⟩
  declared : var ∈ m.globals

theorem Extends.isInputTriple {notes : List (Kind Handle)} (hmm : m.Extends notes m')
    (hvar : m.IsInputTriple var) : m'.IsInputTriple var := by
  obtain ⟨word, triple, pointer, hresults, hpointer, htriple, hword⟩ := hvar.typed
  exact ⟨⟨word, triple, pointer, hmm.results hresults, hmm.describes hpointer,
    hmm.describes htriple, hmm.describes hword⟩, hmm.globals.subset hvar.declared⟩

theorem inputTriple_edits (hm : m.Interns) (hrun : inputTriple m = (var, m')) :
    m.Edits [] m' ∧ m'.IsInputTriple var ∧ m.insts.get? var = none := by
  obtain ⟨word, m₁, hword, hrun⟩ := edit_bind.1 hrun
  obtain ⟨hedits₁, hword⟩ := intern_edits (Description.proper_type rfl) hm hword
  obtain ⟨triple, m₂, htriple, hrun⟩ := edit_bind.1 hrun
  obtain ⟨hedits₂, htriple⟩ :=
    intern_edits (Description.proper_type rfl) (hedits₁.interns hm) htriple
  obtain ⟨pointer, m₃, hpointer, hrun⟩ := edit_bind.1 hrun
  have hedits := hedits₁.trans hedits₂
  obtain ⟨hedits₃, hpointer⟩ :=
    intern_edits (Description.proper_type rfl) (hedits.interns hm) hpointer
  obtain ⟨hedits₄, hresults, hglobal, hfresh⟩ := addGlobalVar_edits hrun
  refine ⟨(hedits.trans hedits₃).trans hedits₄, ⟨⟨word, triple, pointer, hresults, ?_, ?_, ?_⟩,
    hglobal⟩, (hedits.trans hedits₃).get?_eq_none hfresh⟩
  · exact hedits₄.describes hpointer
  · exact hedits₄.describes (hedits₃.describes htriple)
  · exact hedits₄.describes (hedits₃.describes (hedits₂.describes hword))

/-- The variable that the first note names is returned as it is, or a new one is declared and
noted. -/
theorem builtInVar_cases (hm : m.Interns) (hrun : builtInVar builtIn m = (var, m')) :
    m.findBuiltIn? builtIn = some var ∧ m' = m ∨
      m.findBuiltIn? builtIn = none ∧ m.insts.get? var = none ∧ m'.IsInputTriple var ∧
        ∃ note, m'.annotations = m.annotations ++ [note] ∧ m'.NotesBuiltIn note builtIn var := by
  cases hfind : m.findBuiltIn? builtIn with
  | some h =>
      rw [builtInVar_of_some hfind] at hrun
      obtain ⟨rfl, rfl⟩ := Prod.mk.inj hrun
      exact .inl ⟨rfl, rfl⟩
  | none =>
      rcases htriple : inputTriple m with ⟨h, m₁⟩
      rw [builtInVar_of_none hfind htriple] at hrun
      obtain ⟨rfl, rfl⟩ := Prod.mk.inj hrun
      obtain ⟨hedits, hvar, hfresh⟩ := inputTriple_edits hm htriple
      have hannotated := annotate_eq (.decorate h .builtIn [builtIn]) m₁
      have hnoted := (annotate_edits hannotated).isInputTriple hvar
      obtain ⟨word, triple, pointer, hresults, -⟩ := hnoted.typed
      refine .inr ⟨rfl, hfresh, hnoted, m₁.insts.nextHandle, ?_, ?_, ?_⟩
      · have hkept := overlooks_inputTriple.annotations_eq m
        rw [htriple] at hkept
        exact congrArg (· ++ [m₁.insts.nextHandle]) hkept
      · obtain ⟨m₂, hstored, heq⟩ := annotate_cases hannotated
        refine ⟨[], ?_⟩
        rw [heq]
        exact congrArg Inst.kind (inst_of_get? (append_edits hstored).2.1)
      · rw [hresults.kindOf_eq]
        rfl

theorem Contained.builtInVar (hm : m.Contained) (builtIn : Word) :
    (builtInVar builtIn m).2.Contained := by
  have hkept : Keeps (Reaches m) (fun m (t : Use) => m.Owns t.handle) []
      (Module.builtInVar builtIn) fun h => [.declaration h] :=
        (reaches_rules m).builtInVar builtIn
  exact (hkept.state hm.reaches).contained

/-- The note about the variable that is returned is the first one from then on. -/
theorem Contained.findBuiltIn?_builtInVar (hm : m.Contained) (hinterns : m.Interns)
    (hrun : Module.builtInVar builtIn m = (var, m')) : m'.findBuiltIn? builtIn = some var := by
  obtain ⟨hfind, rfl⟩ | ⟨hfind, -, -, note, hannotations, hnote⟩ :=
    builtInVar_cases hinterns hrun
  · exact hfind
  · refine findBuiltIn?_of_first hannotations (fun n hn => ?_) hnote
    rw [← notedVar?_eq_none, hm.notedVar?_eq (continues_builtInVar hrun).insts hn,
      notedVar?_eq_none]
    exact findBuiltIn?_eq_none.1 hfind n hn

/-- Of a module that was read, normalized or not: the variable that is returned for a built-in
value is noted for it.  If no note named one, it is a new input variable of three unsigned
words; if the first note names a variable in input storage, it is that one as it is, of
whatever type.  Whatever is attached, named or asked for then, asking again returns the same
variable and changes nothing. -/
theorem builtInVar_settles {w : List Word} (hload : load w = .ok m₀)
    (hm : m = m₀ ∨ m = m₀.normalize.2) (hrun : Module.builtInVar builtIn m = (var, m')) :
    (m'.kindOf var).isVar ∧ (∃ note ∈ m'.annotations, m'.NotesBuiltIn note builtIn var) ∧
    ((∀ n ∈ m.annotations, ∀ v, ¬m.NotesBuiltIn n builtIn v) →
      m.insts.get? var = none ∧ m'.IsInputTriple var) ∧
    (∀ before note after v initializer, m.annotations = before ++ note :: after →
      (∀ n ∈ before, ∀ v, ¬m.NotesBuiltIn n builtIn v) → m.NotesBuiltIn note builtIn v →
      m.kindOf v = .var .input initializer → var = v ∧ m' = m) ∧
    ∀ m'', ReflTransGen Enriches m' m'' → Module.builtInVar builtIn m'' = (var, m'') := by
  have hcontained₀ := contained_of_load hload
  have hsound₀ := sound_of_load hload
  obtain ⟨hcontained, hinterns⟩ : m.Contained ∧ m.Interns := by
    obtain rfl | rfl := hm
    · exact ⟨hcontained₀, hsound₀.interns⟩
    · exact ⟨hcontained₀.of_path hcontained₀.path_normalize, hsound₀.normalize.sound.interns⟩
  have hfind := hcontained.findBuiltIn?_builtInVar hinterns hrun
  have hcontained' : m'.Contained := by
    have hkept := hcontained.builtInVar builtIn
    rwa [hrun] at hkept
  obtain ⟨note, hnote, hnoted⟩ := exists_note_of_findBuiltIn? hfind
  refine ⟨hnoted.2, ⟨note, hnote, hnoted⟩, fun hnone => ?_, ?_, fun m'' hsteps => ?_⟩
  · obtain ⟨hsome, -⟩ | ⟨-, hfresh, hvar, -⟩ := builtInVar_cases hinterns hrun
    · rw [findBuiltIn?_eq_none.2 hnone] at hsome
      cases hsome
    · exact ⟨hfresh, hvar⟩
  · intro before note after v _ hannotations hbefore hnote _
    have hfirst := builtInVar_of_some (findBuiltIn?_of_first hannotations hbefore hnote)
    obtain ⟨rfl, rfl⟩ := Prod.mk.inj (hrun.symm.trans hfirst)
    exact ⟨rfl, rfl⟩
  · exact builtInVar_of_some
      (hcontained'.findBuiltIn?_of_accretes (accretes_of_enriches hsteps) hfind)

def scalarIndex : List Word :=
  [0x07230203, 0x10000, 0, 4, 0, 0x40047, 3, 11, 29, 0x40015, 1, 32, 0, 0x40020, 2, 1, 1,
    0x4003b, 2, 3, 1]

/-- The position in the grid is in a new variable, which is found again once it has a name. -/
theorem builtInVar_settles_scalarIndex : ∃ m₀ var m', load scalarIndex = .ok m₀ ∧
    Module.builtInVar BuiltIn.globalInvocationId m₀.normalize.2 = (var, m') ∧
    m'.IsInputTriple var ∧
    Module.builtInVar BuiltIn.globalInvocationId (setName var "position" m').2 =
      (var, (setName var "position" m').2) := by
  have hall : (load scalarIndex).toOption.map
      (fun m => m.normalize.2.findBuiltIn? BuiltIn.globalInvocationId) = some none := by
    decide +kernel
  obtain ⟨m₀, hload, hfind⟩ := exists_of_map_toOption hall
  rcases hrun : Module.builtInVar BuiltIn.globalInvocationId m₀.normalize.2 with ⟨var, m'⟩
  obtain ⟨-, -, hnew, -, hagain⟩ := builtInVar_settles hload (.inr rfl) hrun
  exact ⟨m₀, var, m', hload, hrun, (hnew (findBuiltIn?_eq_none.1 hfind)).2,
    hagain _ (.single (.setName var "position"))⟩

/-- The scalar is returned for the index that it is noted for. -/
theorem not_isInputTriple_scalarIndex : ¬∀ w m₀, load w = .ok m₀ → ∀ builtIn,
    (Module.builtInVar builtIn m₀.normalize.2).2.IsInputTriple
      (Module.builtInVar builtIn m₀.normalize.2).1 := by
  intro hall
  have hscalar : (load scalarIndex).toOption.map (fun m =>
      let r := Module.builtInVar 29 m.normalize.2
      ((r.2.typeOf? r.1).bind r.2.pointee?).map r.2.kindOf) =
      some (some (.typeInt 32 false)) := by
    decide +kernel
  obtain ⟨m₀, hload, hkind⟩ := exists_of_map_toOption hscalar
  obtain ⟨word, triple, pointer, ⟨id, hvar⟩, hpointer, htriple, -⟩ := (hall _ m₀ hload 29).typed
  have htype : (Module.builtInVar 29 m₀.normalize.2).2.typeOf?
      (Module.builtInVar 29 m₀.normalize.2).1 = some pointer := by
    rw [typeOf?, inst_of_get? hvar]
  have hpointee : (Module.builtInVar 29 m₀.normalize.2).2.pointee? pointer = some triple := by
    rw [pointee?, hpointer.kindOf_eq]
  dsimp only at hkind
  rw [htype, Option.bind_some, hpointee, Option.map_some, htriple.kindOf_eq] at hkind
  cases hkind

end KernelGrid.Module
