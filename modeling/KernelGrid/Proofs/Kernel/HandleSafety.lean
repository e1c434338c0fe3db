import KernelGrid.Proofs.Kernel.BuilderMoves
import KernelGrid.Proofs.Kernel.Independence
import KernelGrid.Proofs.Kernel.Stages
import KernelGrid.Proofs.Module.Lookups
import KernelGrid.Proofs.Module.Reassembly

/-!
# Safety of handles

No handle ever dangles: from the first record that is read to the last word that is written,
whatever the words, the kernels and the host, every handle that is held stands for an
instruction, and every position that a builder has selected is one of a function or block that
is there.
-/

namespace KernelGrid

open Relation KernelGrid.Stream

namespace Builder

open KernelGrid.Module

variable {b₀ : Builder} {known : List Use}

/-! ## Opening an entry point -/

theorem reaches_define {type : Option Handle} {kind : Kind Handle} {b : Builder} {h : Handle}
    {m : Module} (hb : b₀.Reaches b)
    (hreferences : ∀ r ∈ type.toList ++ kind.references, b.module.Owns r)
    (hrun : define type kind b.module = (h, m)) :
    b₀.Reaches { b with module := m } ∧ m.Owns h ∧ ∀ g, b.module.Owns g → m.Owns g := by
  have hmove : (allocId b.module).2.Move m :=
    move_append (i := ⟨type, some b.module.header.bound, kind⟩)
      (fun r hr => hreferences r hr) hrun
  have hown : m.Owns h := owns_self (i := ⟨type, some b.module.header.bound, kind⟩) hrun
  exact ⟨(hb.tail (.module .allocId)).tail (.module hmove), hown, fun g hg => hmove.owns hg⟩

theorem reaches_beginFunction {result type : Handle} {control : Word}
    (hresult : .declaration result ∈ known) (htype : .declaration type ∈ known) :
    KeepsTrying (Reaches b₀) Owns known (beginFunction result control type) fun h =>
      [.value h] := by
  refine .of_cases fun b hb hknown => .inr ?_
  rcases hstored : define (some result) (.function control type) b.module with ⟨h, m⟩
  have hrun : beginFunction result control type b = (.ok h,
      ⟨{ m with functions := m.functions ++ [.empty h] },
        some ((m.functions ++ [FunctionDef.empty h]).length - 1), none⟩) := by
    have hfst : (define (some result) (.function control type) b.module).1 = h := by rw [hstored]
    have hsnd : (define (some result) (.function control type) b.module).2 = m := by rw [hstored]
    subst hfst hsnd
    rfl
  obtain ⟨hdefined, hown, hkept⟩ := reaches_define hb (by
    simpa [Kind.references, Kind.operands] using
      ⟨hknown _ hresult, hknown _ htype⟩) hstored
  have hbegun := hdefined.tail (.begin hown)
  refine ⟨h, _, hrun, hbegun.tail (.select ?_ (by simp)),
    List.forall_mem_cons.2 ⟨hown, fun t ht => hkept _ (hknown t ht)⟩⟩
  rintro _ ⟨⟩
  simp

theorem reaches_beginBlock :
    KeepsTrying (Reaches b₀) Owns known beginBlock fun h => [.value h] := by
  refine .of_cases fun b hb hknown => ?_
  obtain ⟨m, function, block⟩ := b
  cases function with
  | none => exact .inl ⟨_, _, rfl, hb, hknown⟩
  | some i =>
      rcases hstored : define none .label m with ⟨h, m₁⟩
      let g : FunctionDef → FunctionDef := fun f => { f with blocks := f.blocks ++ [⟨h, []⟩] }
      have hrun : beginBlock ⟨m, some i, block⟩ = (.ok h, ⟨{ m₁ with
          functions := m₁.functions.modify i g }, some i,
          (m₁.functions.modify i g)[i]?.map fun f => f.blocks.length - 1⟩) := by
        have hfst : (define none .label m).1 = h := by rw [hstored]
        have hsnd : (define none .label m).2 = m₁ := by rw [hstored]
        subst hfst hsnd
        rfl
      obtain ⟨hdefined, hown, hkept⟩ := reaches_define hb
        (by simp [Kind.references, Kind.operands]) hstored
      have hlt : i < m₁.functions.length := hdefined.intact.function i rfl
      have hopened := hdefined.tail (.openBlock hlt hown)
      refine .inr ⟨h, _, hrun, hopened.tail (.select hopened.intact.function ?_),
        List.forall_mem_cons.2 ⟨hown, fun t ht => hkept _ (hknown t ht)⟩⟩
      rintro _ ⟨⟩ j hj
      have hf : (m₁.functions.modify i g)[i]? = some (g m₁.functions[i]) :=
        getElem?_modify_of_eq g (List.getElem?_eq_getElem hlt)
      refine ⟨_, hf, ?_⟩
      rw [hf] at hj
      obtain rfl := Option.some.inj hj
      simp [g]

end Builder

namespace Module

open Builder (reaches_codeRules openEntry)

variable {m : Module}

/-- Between entry points a builder has nothing selected. -/
theorem reaches_entryRules (b₀ : Builder) :
    EntryRules (fun m => b₀.Reaches (.start m)) (fun m t => m.Owns t.handle) b₀.Reaches
      Builder.Owns where
  toCodeRules := reaches_codeRules b₀
  declareType hkind hreferences m hm hknown :=
    ((reaches_rules m).internType hkind hreferences m hm.intact.contained.reaches
      hknown).imp_left fun hm' => hm.module hm'
  opens {m known void type entry b} hm hknown hvoid htype hrun := by
    have hopen : KeepsTrying b₀.Reaches Builder.Owns known (openEntry void type)
        fun h => [.value h] := by
      refine .bind (Builder.reaches_beginFunction hvoid htype) fun entry => ?_
      exact .bind Builder.reaches_beginBlock fun label => .pure (by simp)
    obtain ⟨hreaches, hmade⟩ := hopen (.start m) hm hknown
    have hrun : (openEntry void type).run (.start m) = (.ok entry, b) := hrun
    rw [hrun] at hreaches hmade
    exact ⟨hreaches, hmade⟩
  closes hb := hb.tail (.select (by simp) (by simp))

/-- Making an entry point is a path of elementary changes, also if it fails half-way. -/
theorem Contained.path_addEntry (hm : m.Contained) (k : Kernel) :
    ReflTransGen Builder.Move (.start m) (.start (addEntry k m).2) := by
  have hstart : (Builder.start m).Reaches (.start m) := ⟨Builder.intact_start hm, .refl⟩
  refine ((reaches_entryRules _).addEntry hstart (fun c hcallee => ?_) ?_).path
  · obtain ⟨hresult, hinputs⟩ := hm.owns_of_callee? hcallee
    obtain ⟨f, hf⟩ := Kernel.exists_findFunction? hcallee
    obtain ⟨_, heq, hcalls⟩ := Kernel.calls_of_callee? hf hcallee
    obtain rfl := Option.some.inj heq
    have hfunction : m.Owns c.function := by
      rw [hcalls.function]
      exact hm.functions f (mem_functions_of_findFunction? hf) _ (by simp [FunctionDef.handles])
    exact Callee.forall_mem_uses.2 ⟨hfunction, hresult, hinputs,
      Callee.forall_mem_bufferTypes hresult hinputs⟩
  · intro c m₁ word void type entry cell b _ _ _ hb hentry hinterface
    have hclosed := (reaches_entryRules (.start m)).closes hb
    refine hclosed.tail (.module (.enter ?_))
    refine List.forall_mem_append.2
      ⟨hclosed.intact.contained.entryPoints, List.forall_mem_singleton.2 ?_⟩
    exact List.forall_mem_cons.2 ⟨hentry, hinterface⟩

end Module

theorem Module.Contained.owns_declareMetadata {m : Module} (hm : m.Contained) :
    (Module.declareMetadata m).2.consolidate.Owns (Module.declareMetadata m).1 := by
  have hkept : Keeps (Reaches m) (fun m (t : Use) => m.Owns t.handle) [] declareMetadata
      fun h => [.declaration h] := (reaches_rules m).declareMetadata
  have hmade := (hkept m hm.reaches (by simp)).2
  generalize declareMetadata m = made at hmade
  exact hmade (.declaration made.1) List.mem_cons_self

/-! ## Lookups and sizes -/

/-- Whether nothing is looked up but what a module owns: with other instructions behind its
own, whatever is written, listed, checked, found or measured is the same. -/
structure Module.Confined (m : Module) : Prop where
  encode : ∀ m', m.Pads m' → m'.encode = m.encode
  listing : ∀ m', m.Pads m' → m'.listing = m.listing
  validate : ∀ m', m.Pads m' → m'.validate = m.validate
  consolidate : ∀ m', m.Pads m' → m'.consolidate.annotations = m.consolidate.annotations
  reintern : ∀ m', m.Pads m' → m'.reintern.interned = m.reintern.interned
  findKind? : ∀ m', m.Pads m' → ∀ (test : Kind Handle → Bool) (s : Section),
    m'.findKind? test (s.handles m') = m.findKind? test (s.handles m)
  named : ∀ m', m.Pads m' → ∀ name, m'.named name = m.named name
  findBuiltIn? : ∀ m', m.Pads m' → ∀ builtIn, m'.findBuiltIn? builtIn = m.findBuiltIn? builtIn
  pointeeStruct? : ∀ m', m.Pads m' → ∀ h, m.Owns h → m'.pointeeStruct? h = m.pointeeStruct? h
  callee? : ∀ m', m.Pads m' → ∀ k : Kernel, k.callee? m' = k.callee? m
  byteSize : m.Acyclic → ∀ m', m.Pads m' → ∀ t, m.Owns t → m'.byteSize t = m.byteSize t

theorem Module.Contained.confined {m : Module} (hm : m.Contained) : m.Confined where
  encode _ hp := hm.encode_eq hp
  listing _ hp := by rw [listing, listing, hm.lines_eq hp]
  validate _ hp := hm.validate_eq hp
  consolidate _ hp := hm.consolidate_eq hp
  reintern _ hp := hm.reintern_eq hp
  findKind? _ hp test s := hm.findKind?_eq hp test s
  named _ hp name :=
    hp.continues.named_eq (fun h hh => owns_iff.1 (hm.sections .debug h hh)) name
  findBuiltIn? _ hp builtIn := hm.findBuiltIn?_eq hp builtIn
  pointeeStruct? _ hp _ hh := hm.pointeeStruct?_eq hp hh
  callee? _ hp k := Kernel.callee?_eq hm hp.continues k
  byteSize hacyclic _ hp _ ht := hm.byteSize_eq hacyclic hp.inst_eq hp.size_le ht

/-- Whether the sizes of all types follow from the sizes of their parts, which ends. -/
structure Module.Measurable (m : Module) : Prop where
  wellFounded : WellFounded fun u t => m.Embeds t u
  byteSize_eq : ∀ t, m.byteSize t = m.byteSizeFrom m.byteSize t

theorem Module.Contained.measurable {m : Module} (hm : m.Contained) (hacyclic : m.Acyclic) :
    m.Measurable :=
  ⟨hm.wellFounded_embeds hacyclic, fun t => hm.byteSize_eq_from (hacyclic.acyclicFrom t)⟩

theorem Builder.acyclic_of_path {b b' : Builder} (hb : b.Intact) (hacyclic : b.module.Acyclic)
    (hpath : ReflTransGen Move b b') : b'.module.Acyclic := by
  induction hpath with
  | refl => exact hacyclic
  | tail hpath hmove ih =>
      cases hmove with
      | module hm => exact hm.acyclic (hb.of_path hpath).contained ih
      | begin | openBlock | write | select => exact ih

/-! ## Streams -/

/-- How words are read: the records that are accepted are a path of elementary changes of an
intact assembly, and so is linking what stands in the next one, accepted or not. -/
structure Stream.HandleSafe (words : List Word) : Prop where
  records : ∀ header cursor, Header.read words = .ok (header, cursor) → ∀ before a,
    before <+: (Record.split cursor).1 →
    before.foldlM (Assembly.accept header.bound) (.start header) = .ok a →
    a.Intact ∧ ReflTransGen Assembly.Move (.start header) a
  link : ∀ a : Assembly, a.Intact → ∀ i : Inst ResultId, a.module.Reaches (i.link a.module).2 ∧
    ∀ r ∈ (i.link a.module).1.references, (i.link a.module).2.Owns r
  linkEntryPoint : ∀ a : Assembly, a.Intact → ∀ e : EntryPoint ResultId,
    a.module.Reaches (e.link a.module).2 ∧
      ∀ r ∈ (e.link a.module).1.references, (e.link a.module).2.Owns r
  decode : ∀ m, Module.decode words = .ok m → m.Contained
  resolve : ∀ m m', Module.decode words = .ok m → m.resolve = .ok m' → m.Move m' ∧ m'.Contained

theorem Stream.safe_of_words (words : List Word) : HandleSafe words where
  records header _ _ _ _ _ hrun := by
    have hpath := Assembly.path_accepts (Assembly.intact_start header) hrun
    exact ⟨(Assembly.intact_start header).of_path hpath, hpath⟩
  link _ ha i := ha.contained.reaches_edit (Module.reaches_link i)
  linkEntryPoint _ ha e := ha.contained.reaches_edit (Module.reaches_linkEntryPoint e)
  decode _ hdecode := Module.contained_of_decode hdecode
  resolve _ _ hdecode hresolve := by
    have hm := Module.contained_of_decode hdecode
    have hmove := hm.move_resolve hresolve
    exact ⟨hmove, hmove.contained hm⟩

/-! ## Lowerings -/

namespace Job

open KernelGrid.Module

variable {job : Job} {m m' : Module}

/-- What a stage of a lowering makes of a module, whether it succeeds or fails. -/
inductive Step (job : Job) (m : Module) : Module → Prop
  | normalize : Step job m m.normalize.2
  | preamble : Step job m (addComputePreamble m).2
  | globalBlock : Step job m (decorateGlobalBlock job.host m).2
  | entry {k : Kernel} (hk : k ∈ job.kernels) : Step job m (addEntry k m).2
  | consolidate : Step job m m.consolidate
  | metadata : Step job m (declareMetadata m).2

inductive Passes (job : Job) : Module → Prop
  | load {m : Module} (hload : Module.load job.words = .ok m) : Passes job m
  | step {m m' : Module} (hm : Passes job m) (hstep : job.Step m m') : Passes job m'
  | reload {m m' : Module} {words : List Word} (hm : Passes job m)
    (hencode : m.encode = .ok words) (hload : Module.load words = .ok m') : Passes job m'

/-- Every stage is a path of elementary changes. -/
theorem Step.path (hstep : job.Step m m') (hm : m.Contained) :
    ReflTransGen Builder.Move (.start m) (.start m') := by
  have hmodule {m' : Module} (hpath : ReflTransGen Module.Move m m') :
      ReflTransGen Builder.Move (.start m) (.start m') :=
    Builder.path_module (b := .start m) hpath
  cases hstep with
  | normalize => exact hmodule hm.path_normalize
  | preamble => exact hmodule hm.path_addComputePreamble
  | globalBlock => exact hmodule (hm.path_decorateGlobalBlock job.host)
  | entry => exact hm.path_addEntry _
  | consolidate => exact hmodule (.single hm.move_consolidate)
  | metadata => exact hmodule hm.path_declareMetadata

theorem Step.contained (hstep : job.Step m m') (hm : m.Contained) : m'.Contained :=
  ((Builder.intact_start hm).of_path (hstep.path hm)).contained

theorem Passes.contained (hm : job.Passes m) : m.Contained := by
  induction hm with
  | load hload => exact contained_of_load hload
  | step _ hstep ih => exact hstep.contained ih
  | reload _ _ hload => exact contained_of_load hload

/-- No stage makes a type that contains itself. -/
theorem Step.acyclic (hsteps : ReflTransGen job.Step m m') (hm : m.Contained)
    (hacyclic : m.Acyclic) : m'.Contained ∧ m'.Acyclic := by
  induction hsteps with
  | refl => exact ⟨hm, hacyclic⟩
  | tail _ hstep ih =>
      exact ⟨hstep.contained ih.1,
        Builder.acyclic_of_path (Builder.intact_start ih.1) ih.2 (hstep.path ih.1)⟩

theorem AddsEntries.passes {ks : List Kernel} (hadds : AddsEntries ks m m') (hm : job.Passes m)
    (hks : ∀ k ∈ ks, k ∈ job.kernels) : job.Passes m' := by
  induction hadds with
  | nil m => exact hm
  | cons hrun _ ih =>
      rw [List.forall_mem_cons] at hks
      have hstep := hm.step (.entry hks.1)
      have hrun : addEntry _ _ = _ := hrun
      rw [hrun] at hstep
      exact ih hstep hks.2

theorem Prepares.passes {p : Module} (hload : Module.load job.words = .ok m)
    (hp : job.Prepares m p) : job.Passes p := by
  obtain ⟨outcome, m₃, m₄, hdecorate, hadds, rfl⟩ := hp.stages
  have hpreamble := ((Passes.load hload).step .normalize).step .preamble
  have hblock := hpreamble.step .globalBlock
  have hdecorate : decorateGlobalBlock job.host _ = _ := hdecorate
  rw [hdecorate] at hblock
  exact (AddsEntries.passes hadds hblock fun _ hk => hk).step .consolidate

/-- How a module is lowered and written without a handle or a position that dangles. -/
structure HandleSafe (job : Job) : Prop where
  streams : ∀ words, Stream.HandleSafe words
  modules : ∀ m, job.Passes m → m.Contained ∧ m.Confined
  stages : ∀ m m', job.Passes m → job.Step m m' →
    ReflTransGen Builder.Move (.start m) (.start m')
  builders : ∀ m b, job.Passes m → ReflTransGen Builder.Move (.start m) b → b.Intact
  toBuiltIns : ∀ p, (job.lower .passThrough).2.toBuiltIns = some p → job.Passes p
  toAccessors : ∀ n metadata, (job.lower .passThrough).2.toAccessors = some (n, metadata) →
    job.Passes n ∧ n.Owns metadata
  records : ∀ (m : Module) (words : List Word), m.encode = .ok words →
    words = m.headerWords ++ m.statements.flatMap (fun s => s.record.words) ∧
      ∀ s ∈ m.statements, s.record.words.length < 2 ^ 16
  sizes : ∀ m m', Module.load job.words = .ok m → m.Acyclic → ReflTransGen job.Step m m' →
    m'.Measurable

end Job

end KernelGrid
