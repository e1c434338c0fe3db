import KernelGrid.Proofs.Kernel.Independence
import KernelGrid.Proofs.Kernel.Metadata

/-!
# Rulings

A kernel is refused for the first reason that applies: its name, its signature, its parameters,
types that are missing, and sizes.  Before sizes are looked at nothing has changed, and behind
that no entry point has been added but the one that was asked for.
-/

namespace KernelGrid

open KernelGrid.Module

variable {k : Kernel} {m m' : Module} {f : FunctionDef} {c : Callee}

def Module.sizeError? (m : Module) (h : Handle) : Option ModuleError :=
  (m.typeOf? h).bind fun type =>
    match m.byteSize type with
    | .ok _ => none
    | .error e => some e

namespace Kernel

def inputParameters (k : Kernel) (f : FunctionDef) : List Handle :=
  f.parameters.take k.inputs.toNat

/-- What is passed in buffers: the inputs, in order, and then the result of the function, if it
is put out. -/
def passed (k : Kernel) (f : FunctionDef) : List Handle :=
  k.inputParameters f ++ if k.signature.contains .output then [f.function] else []

/-- What may be said against a kernel with this function before sizes are looked at, in the
order in which it counts, and whether it applies. -/
def objections (k : Kernel) (m : Module) (f : FunctionDef) : List (Bool × KernelError) :=
  [(!k.signature.contains .kernel, .notForEach k.name k.signature),
    (k.signature.contains .userData, .userData k.name),
    (k.signature.contains .context, .context k.name),
    (0 < k.inputs ∧ !k.signature.needsIndex, .inputsWithoutIndex k.name k.inputs),
    (f.parameters.length < k.inputs.toNat,
      .tooFewParameters k.name k.inputs f.parameters.length),
    ((k.inputParameters f ++ [f.function]).any fun h => (m.typeOf? h).isNone,
      .malformedKernel k.name)]

def objection? (k : Kernel) (m : Module) (f : FunctionDef) : Option KernelError :=
  ((k.objections m f).find? Prod.fst).map Prod.snd

def ruling (k : Kernel) (m : Module) : Except KernelError EntryOutcome :=
  match m.findFunction? k.name with
  | none => if k.name = rootKernel then .ok .skipped else .error (.missingKernel k.name)
  | some f =>
    match k.objection? m f, (k.passed f).findSome? m.sizeError? with
    | some e, _ => .error e
    | none, some e => .error (.module e)
    | none, none => .ok (.synthesized (entryName k.name))

/-! ## Objections -/

theorem callee?_of_findFunction?_eq_none (hf : m.findFunction? k.name = none) :
    k.callee? m = if k.name = rootKernel then .ok none else .error (.missingKernel k.name) := by
  unfold callee?
  simp only [hf]
  rfl

theorem mapM_eq_none_iff {α β : Type} {f : α → Option β} {xs : List α} :
    xs.mapM f = none ↔ xs.any fun x => (f x).isNone := by
  induction xs with
  | nil => simp
  | cons x xs ih =>
      rw [List.mapM_cons, List.any_cons, Bool.or_eq_true, ← ih]
      cases f x with
      | none => simp
      | some y => cases xs.mapM f <;> simp

/-- A callee is refused for the first objection that applies. -/
theorem callee?_eq_objection? (hf : m.findFunction? k.name = some f) :
    (k.callee? m).map (fun _ => ()) = match k.objection? m f with
      | some e => .error e
      | none => .ok () := by
  have hfind (b : Bool) (e : KernelError) (rest : List (Bool × KernelError)) :
      (((b, e) :: rest).find? Prod.fst).map Prod.snd =
        if b then some e else (rest.find? Prod.fst).map Prod.snd := by
    cases b <;> rfl
  unfold callee? Signature.check objection? objections
  simp only [hf, hfind, List.find?_nil, Option.map_none]
  split
  · rfl
  split
  · rfl
  split
  · rfl
  by_cases hindex : 0 < k.inputs ∧ !k.signature.needsIndex
  · rw [if_pos hindex, if_pos (decide_eq_true hindex)]
    rfl
  rw [if_neg hindex, decide_eq_false hindex, if_neg Bool.false_ne_true]
  by_cases hlength : f.parameters.length < k.inputs.toNat
  · rw [if_pos hlength, if_pos (decide_eq_true hlength)]
    rfl
  rw [if_neg hlength, decide_eq_false hlength, if_neg Bool.false_ne_true, List.any_append]
  cases htypes : (f.parameters.take k.inputs.toNat).mapM m.typeOf? with
  | none =>
      rw [inputParameters, mapM_eq_none_iff.1 htypes]
      rfl
  | some types =>
      have hinputs : ¬(k.inputParameters f).any fun h => (m.typeOf? h).isNone := by
        rw [← mapM_eq_none_iff, inputParameters, htypes]
        exact Option.some_ne_none _
      rw [Bool.not_eq_true] at hinputs
      rw [hinputs]
      cases hresult : m.typeOf? f.function with
      | none =>
          simp only [List.any_cons, hresult]
          rfl
      | some type =>
          simp only [List.any_cons, hresult]
          rfl

/-! ## Sizes -/

theorem Calls.map_passed (hc : k.Calls m f c) :
    (k.passed f).map m.typeOf? = c.bufferTypes.map some := by
  have hinputs : (k.inputParameters f).map m.typeOf? = c.inputTypes.map some :=
    mapM_eq_some.1 hc.inputTypes
  rw [passed, List.map_append, hinputs, Callee.bufferTypes, hc.signature]
  by_cases hneeds : k.signature.needsIndex
  · rw [if_pos hneeds, List.map_append]
    split
    · simp [hc.resultType]
    · rfl
  · have houtput : ¬k.signature.contains .output :=
      fun h => hneeds (Signature.needsIndex_of_output h)
    rw [if_neg hneeds, if_neg houtput, hc.inputTypes_eq_nil (hc.signature ▸ hneeds)]
    rfl

theorem forM_sizes {hs ts : List Handle} (hts : hs.map m.typeOf? = ts.map some) :
    forM ts m.sizes = match hs.findSome? m.sizeError? with
      | some e => .error e
      | none => .ok () := by
  induction ts generalizing hs with
  | nil =>
      obtain rfl := List.map_eq_nil_iff.1 hts
      rfl
  | cons t ts ih =>
      obtain ⟨h, hs, rfl, hh, hrest⟩ := List.map_eq_cons_iff.1 hts
      have hsize : m.sizeError? h = match m.byteSize t with
          | .ok _ => none
          | .error e => some e := by
        rw [sizeError?, hh]
        rfl
      rw [List.forM_cons, List.findSome?_cons, hsize, sizes]
      cases m.byteSize t with
      | error e => rfl
      | ok size => exact ih hrest

/-- What is ruled is what becomes of the kernel. -/
theorem verdict_eq_ruling (k : Kernel) (m : Module) : k.verdict m = k.ruling m := by
  unfold verdict ruling
  cases hf : m.findFunction? k.name with
  | none =>
      rw [callee?_of_findFunction?_eq_none hf]
      by_cases hroot : k.name = rootKernel
      · rw [if_pos hroot, if_pos hroot]
      · rw [if_neg hroot, if_neg hroot]
  | some f =>
      have hobjection := callee?_eq_objection? hf
      cases hcallee : k.callee? m with
      | error e =>
          rw [hcallee] at hobjection
          cases hfirst : k.objection? m f with
          | none =>
              rw [hfirst] at hobjection
              cases hobjection
          | some e' =>
              rw [hfirst] at hobjection
              obtain rfl := Except.error.inj hobjection
              simp only [hfirst]
      | ok r =>
          obtain ⟨c, rfl, hc⟩ := calls_of_callee? hf hcallee
          rw [hcallee] at hobjection
          cases hfirst : k.objection? m f with
          | some e =>
              rw [hfirst] at hobjection
              cases hobjection
          | none =>
              simp only [forM_sizes hc.map_passed, hfirst]
              cases (k.passed f).findSome? m.sizeError? <;> rfl

end Kernel

namespace Module

theorem eq_error_of_bind {ε α β : Type} {x : Except ε α} {f : α → Except ε β} {e : ε}
    (he : (x >>= f) = .error e) : x = .error e ∨ ∃ a, f a = .error e := by
  cases x with
  | error e' => exact .inl (congrArg Except.error (Except.error.inj he))
  | ok a => exact .inr ⟨a, he⟩

theorem eq_error_of_foldlM {ε α β : Type} {f : β → α → Except ε β} {xs : List α} {b : β} {e : ε}
    (he : xs.foldlM f b = .error e) : ∃ b, ∃ x ∈ xs, f b x = .error e := by
  induction xs generalizing b with
  | nil => cases he
  | cons x xs ih =>
      rw [List.foldlM_cons] at he
      obtain he | ⟨b', he⟩ := eq_error_of_bind he
      · exact ⟨b, x, List.mem_cons_self, he⟩
      · obtain ⟨b'', x', hx', he⟩ := ih he
        exact ⟨b'', x', List.mem_cons_of_mem _ hx', he⟩

/-- A type has no size because it has none that is fixed, or because that is too large. -/
theorem byteSizeWithin_error {depth : Nat} {t : Handle} {e : ModuleError}
    (he : m.byteSizeWithin depth t = .error e) :
    ∃ type, e = .unsized type ∨ e = .sizeOverflow type := by
  induction depth generalizing t with
  | zero => exact ⟨_, .inl (Except.error.inj he).symm⟩
  | succ depth ih =>
      have hpart {part : Handle} {f : Word → Except ModuleError Word}
          (he : m.byteSizeWithin depth part >>= f = .error e)
          (hf : ∀ size e, f size = .error e → e = .sizeOverflow (m.idOf t)) :
          ∃ type, e = .unsized type ∨ e = .sizeOverflow type := by
        obtain he | ⟨size, he⟩ := eq_error_of_bind he
        · exact ih he
        · exact ⟨_, .inr (hf size e he)⟩
      rw [byteSizeWithin_succ] at he
      unfold byteSizeFrom at he
      split at he
      case h_4 => exact hpart he fun _ _ hf => by dsimp only at hf; split at hf <;> grind
      case h_5 =>
        split at he
        · exact hpart he fun _ _ hf => by dsimp only at hf; split at hf <;> grind
        · exact ⟨_, .inl (Except.error.inj he).symm⟩
      case h_6 =>
        obtain ⟨sum, member, -, he⟩ := eq_error_of_foldlM he
        exact hpart he fun _ _ hf => by dsimp only at hf; split at hf <;> grind
      case h_8 => exact ⟨_, .inl (Except.error.inj he).symm⟩
      all_goals cases he

/-! ## Entry points that were there -/

theorem keeps_entryPoints {entries : List (EntryPoint Handle)} {α : Type} {known : List Use}
    {x : Edit α} {made : α → List Use} (hx : ∀ m a m', x m = (a, m') → m.SameCode m') :
    Keeps (fun m : Module => m.entryPoints = entries) (fun _ _ => True) known x made :=
  fun m hm _ => ⟨(hx m _ _ rfl).entryPoints.trans hm, fun _ _ => trivial⟩

theorem entryPoints_edits (entries : List (EntryPoint Handle)) :
    EditRules (fun m : Module => m.entryPoints = entries) fun _ _ => True where
  decorate _ := keeps_entryPoints fun _ _ _ hrun => (annotate_edits hrun).code
  memberDecorate _ := keeps_entryPoints fun _ _ _ hrun => (annotate_edits hrun).code
  internType _ _ := keeps_entryPoints fun _ _ _ hrun => sameCode_intern hrun
  internConstant _ _ _ := keeps_entryPoints fun _ _ _ hrun => sameCode_intern hrun
  freshStructType _ := keeps_entryPoints fun _ _ _ hrun => (freshStructType_augments hrun).1.code
  addGlobalVar _ := keeps_entryPoints fun _ _ _ hrun => (addGlobalVar_edits hrun).1.code
  builtIn _ _ := trivial

open Builder in
theorem entryPoints_push {entries : List (EntryPoint Handle)} {known : List Use}
    (i : Inst Handle) :
    KeepsTrying
      (fun b : Builder => b.module.entryPoints = entries) (fun _ (_ : Use) => True) known
      (push i) fun h => [.value h] := by
  refine .of_cases fun b hb _ => ?_
  obtain ⟨e, hpush⟩ | ⟨function, block, -, -, hpush⟩ := push_cases i b
  · exact .inl ⟨e, b, hpush, hb, fun _ _ => trivial⟩
  · have hcode := (append_edits (m := b.module) (i := i) rfl).1.code
    exact .inr ⟨_, _, hpush, hcode.entryPoints.trans hb, fun _ _ => trivial⟩

open Builder in
theorem entryPoints_writes (entries : List (EntryPoint Handle)) :
    WriteRules (fun b => b.module.entryPoints = entries) fun _ _ => True where
  pushResult {known type kind} _ _ _ _ := by
    have hid : KeepsTrying (fun b : Builder => b.module.entryPoints = entries)
        (fun _ (_ : Use) => True) known (edit allocId) fun _ => [] :=
      fun b hb hknown => ⟨hb, hknown⟩
    exact hid.bind fun id => entryPoints_push _
  store _ _ := (entryPoints_push _).mono (by simp)
  ret := .bind (entryPoints_push _) fun _ _ hb hknown => ⟨hb, hknown⟩

theorem entryPoints_rules (entries : List (EntryPoint Handle)) :
    EntryRules (fun m => m.entryPoints = entries) (fun _ _ => True)
      (fun b => b.module.entryPoints = entries) fun _ _ => True where
  toCodeRules := (entryPoints_writes entries).codeRules (fun _ => entryPoints_edits entries)
    (fun he b hb hknown => he b.module b.module hb hknown)
    fun he b hb hknown => he b.module b.module hb hknown
  declareType hkind hreferences := (entryPoints_edits entries).internType hkind hreferences
  opens {m known void type entry b} hm _ _ _ hrun := by
    obtain ⟨entry', m₁, label, m₂, hentry, hlabel, hopen⟩ := Builder.openEntry_runs m void type
    obtain ⟨-, rfl⟩ := Prod.mk.inj (hopen.symm.trans hrun)
    exact ⟨((define_edits hlabel).1.code.entryPoints.trans
      (define_edits hentry).1.code.entryPoints).trans hm, fun _ _ => trivial⟩
  closes hb := hb

/-- The code of an entry point that is not finished enters nothing, and one that is finished is
entered. -/
theorem entryPoints_addEntry (k : Kernel) (m : Module) :
    (∀ e, (addEntry k m).1 = .error e → (addEntry k m).2.entryPoints = m.entryPoints) ∧
      ∀ name, (addEntry k m).1 = .ok (.synthesized name) → ∃ e : EntryPoint Handle,
        (addEntry k m).2.entryPoints = m.entryPoints ++ [e] ∧ e.name = name := by
  cases hcallee : k.callee? m with
  | error e => simp [addEntry_of_error hcallee]
  | ok r =>
      cases r with
      | none => simp [addEntry_of_none hcallee]
      | some c =>
          obtain ⟨word, void, type, m₃, -, hentries, hrun⟩ := addEntry_of_callee? hcallee
          obtain ⟨e, b, hemit, hb⟩ | ⟨entry, cell, b, hemit, hb, -⟩ :=
            (entryPoints_rules m.entryPoints).emit c word void type hentries
              (fun t (_ : t ∈
                .declaration word :: .declaration void :: .declaration type :: c.uses) =>
                  trivial)
              (by simp) (by simp) (by simp) (by simp +contextual)
          · rw [hrun, hemit]
            exact ⟨fun _ _ => hb, by simp⟩
          · rw [Runs] at hemit
            rw [hrun, hemit]
            refine ⟨by simp, fun name hname => ⟨_, congrArg (· ++ _) hb, ?_⟩⟩
            exact EntryOutcome.synthesized.inj (Except.ok.inj hname)

end Module

/-! ## Requests -/

/-- How a request for the entry point of a kernel is answered: as it is ruled.  Nothing is
changed, or nothing that was there, and no entry point is added but the one that was asked
for. -/
structure Kernel.Answered (k : Kernel) (m : Module) : Prop where
  missing : m.findFunction? k.name = none ↔ ∀ f ∈ m.functions, f.function ∉ m.named k.name
  outcome : (addEntry k m).1 = k.ruling m
  sized : ∀ e, k.ruling m = .error (.module e) →
    ∃ type, e = .unsized type ∨ e = .sizeOverflow type
  untouched : (∀ e, k.ruling m ≠ .error (.module e)) →
    (∀ name, k.ruling m ≠ .ok (.synthesized name)) → (addEntry k m).2 = m
  continues : m.Continues (addEntry k m).2
  refused : ∀ e, k.ruling m = .error e → (addEntry k m).2.entryPoints = m.entryPoints
  entered : ∀ name, k.ruling m = .ok (.synthesized name) → ∃ e : EntryPoint Handle,
    (addEntry k m).2.entryPoints = m.entryPoints ++ [e] ∧ e.name = name

theorem Module.findFunction?_eq_none_iff {name : String} :
    m.findFunction? name = none ↔ ∀ f ∈ m.functions, f.function ∉ m.named name := by
  simp only [findFunction?, functionDef?, List.findSome?_eq_none_iff, List.find?_eq_none,
    decide_eq_true_eq]
  exact ⟨fun h f hf hnamed => h f.function hnamed f hf rfl, fun h target hnamed f hf heq =>
    h f hf (heq ▸ hnamed)⟩

theorem Kernel.exists_byteSize_of_ruling {e : ModuleError}
    (he : k.ruling m = .error (.module e)) : ∃ type, m.byteSize type = .error e := by
  unfold ruling at he
  split at he
  · split at he
    · cases he
    · cases he
  next f _ =>
    split at he
    next e' hobjection =>
      obtain ⟨⟨applies, _⟩, hfind, rfl⟩ := Option.map_eq_some_iff.1 hobjection
      have hmem := List.mem_of_find?_eq_some hfind
      obtain rfl := Except.error.inj he
      simp [objections] at hmem
    next e' _ hsize =>
      obtain rfl := KernelError.module.inj (Except.error.inj he)
      obtain ⟨h, -, herror⟩ := List.exists_of_findSome?_eq_some hsize
      obtain ⟨type, -, htype⟩ := Option.bind_eq_some_iff.1 herror
      refine ⟨type, ?_⟩
      cases hsize : m.byteSize type with
      | ok size =>
          rw [hsize] at htype
          cases htype
      | error e =>
          rw [hsize] at htype
          rw [Option.some.inj htype]
    · cases he

/-- In a contained module where no type contains itself every request is answered as it is
ruled. -/
theorem Module.Contained.answers_requests (hm : m.Contained) (hacyclic : m.Acyclic)
    (k : Kernel) : k.Answered m := by
  obtain ⟨hverdict, hcontinues⟩ := addEntry_eq_verdict hm hacyclic (.refl m) k
  have houtcome := hverdict.trans (k.verdict_eq_ruling m)
  obtain ⟨hrefused, hentered⟩ := entryPoints_addEntry k m
  rw [houtcome] at hrefused hentered
  refine ⟨findFunction?_eq_none_iff, houtcome, fun e he => ?_, fun hsized hsynthesized => ?_,
    hcontinues, hrefused, hentered⟩
  · obtain ⟨type, htype⟩ := Kernel.exists_byteSize_of_ruling he
    exact byteSizeWithin_error htype
  · rw [← k.verdict_eq_ruling, Kernel.verdict] at hsized hsynthesized
    cases hcallee : k.callee? m with
    | error e => rw [addEntry_of_error hcallee]
    | ok r =>
        cases r with
        | none => rw [addEntry_of_none hcallee]
        | some c =>
            rw [hcallee] at hsized hsynthesized
            cases hforM : forM c.bufferTypes m.sizes with
            | error e => exact absurd (by simp only [hforM]; rfl) (hsized e)
            | ok u => exact absurd (by simp only [hforM]; rfl) (hsynthesized (entryName k.name))

/-- Requests for two kernels: the first one has a parameter less than is asked for or takes a
context, the second one has a result without a size, and the root kernel is missing. -/
def requests : List Kernel :=
  [⟨"f", ⟨0x23⟩, 1⟩, ⟨"f", ⟨0x23⟩, 2⟩, ⟨"f", ⟨0xa3⟩, 2⟩, ⟨"g", ⟨0x22⟩, 0⟩, ⟨"root", ⟨0⟩, 0⟩]

/-- Only the first of them is accepted, and the last is passed over. -/
theorem Module.Contained.answers_requests_twoKernels : ∃ m, load twoKernels = .ok m ∧
    m.Contained ∧ m.Acyclic ∧ (∀ k ∈ requests, k.Answered m) ∧ requests.map (Kernel.ruling · m) =
      [.ok (.synthesized "entry_f"), .error (.tooFewParameters "f" 2 1), .error (.context "f"),
        .error (.module (.unsized 7)), .ok .skipped] := by
  have hread : (load twoKernels).toOption.map (fun m =>
      (decide (∀ t ∈ m.insts.handles, ∀ u ∈ (m.kindOf t).parts, u.index < t.index),
        requests.map (Kernel.ruling · m))) = some (true, [.ok (.synthesized "entry_f"),
          .error (.tooFewParameters "f" 2 1), .error (.context "f"),
          .error (.module (.unsized 7)), .ok .skipped]) := by
    decide +kernel
  obtain ⟨m, hload, hread⟩ := exists_of_map_toOption hread
  obtain ⟨hparts, hrulings⟩ := Prod.mk.inj hread
  have hcontained := contained_of_load hload
  have hacyclic := acyclic_of_parts_lt (of_decide_eq_true hparts)
  exact ⟨m, hload, hcontained, hacyclic, fun k _ => answers_requests hcontained hacyclic k,
    hrulings⟩

end KernelGrid
