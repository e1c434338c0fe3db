import KernelGrid.Proofs.Kernel.Preamble
import KernelGrid.Proofs.Kernel.SoundCode
import KernelGrid.Proofs.Module.Normalization

/-!
# The stages of a lowering

A lowering that succeeds has read its stream, changed the module stage by stage, written it and
read it again, and written it a second time with the metadata of allocations.
-/

namespace KernelGrid

open KernelGrid.Module

inductive AddsEntries : List Kernel → Module → Module → Prop
  | nil (m : Module) : AddsEntries [] m m
  | cons {k : Kernel} {ks : List Kernel} {m m' m'' : Module} {outcome : EntryOutcome} :
    Runs (addEntry k) m outcome m' → AddsEntries ks m' m'' → AddsEntries (k :: ks) m m''

theorem AddsEntries.keeps {Q : Module → Prop} {ks : List Kernel} {m m' : Module}
    (hadds : AddsEntries ks m m') (hm : Q m) (hstep : ∀ m k, Q m → Q (addEntry k m).2) :
    Q m' := by
  induction hadds with
  | nil => exact hm
  | cons hrun _ ih => exact ih (hrun.state_eq ▸ hstep _ _ hm)

structure Job.Prepares (job : Job) (m p : Module) : Prop where
  stages : ∃ outcome m₃ m₄,
    Runs (decorateGlobalBlock job.host) (addComputePreamble m.normalize.2).2
    outcome m₃ ∧ AddsEntries job.kernels m₃ m₄ ∧ p = m₄.consolidate

namespace Stage

variable {job : Job} {m p : Module} {j j' : Journal}

theorem runs_addEntry {k : Kernel} (hrun : Runs (addEntry m k) j p j') :
    ∃ outcome, Runs (Module.addEntry k) m outcome p := by
  obtain ⟨_, j₁, -, hrun⟩ := runs_bind.1 hrun
  rcases hresult : (Module.addEntry k).run.run m with ⟨result, m'⟩
  simp only [hresult] at hrun
  obtain ⟨_, j₂, -, hrun⟩ := runs_bind.1 hrun
  obtain ⟨outcome, _, hok, hrun⟩ := runs_bind.1 hrun
  obtain ⟨rfl, -⟩ := runs_pure.1 hrun
  obtain rfl := mapError_eq_ok.1 (runs_ofExcept.1 hok).1
  exact ⟨outcome, hresult⟩

theorem runs_addEntries {ks : List Kernel} (hrun : Runs (ks.foldlM addEntry m) j p j') :
    AddsEntries ks m p := by
  induction ks generalizing m j with
  | nil =>
      obtain ⟨rfl, -⟩ := runs_pure.1 hrun
      exact .nil m
  | cons k ks ih =>
      rw [List.foldlM_cons] at hrun
      obtain ⟨m', j₁, hadd, hrun⟩ := runs_bind.1 hrun
      obtain ⟨outcome, hadd⟩ := runs_addEntry hadd
      exact .cons hadd (ih hrun)

theorem runs_decorateGlobalBlock {host : Host}
    (hrun : Runs (decorateGlobalBlock host m) j p j') :
    ∃ outcome, Runs (Module.decorateGlobalBlock host) m outcome p := by
  obtain ⟨_, j₁, -, hrun⟩ := runs_bind.1 hrun
  rcases hresult : (Module.decorateGlobalBlock host).run.run m with ⟨result, m'⟩
  simp only [hresult] at hrun
  obtain ⟨outcome, _, hok, hrun⟩ := runs_bind.1 hrun
  obtain ⟨_, j₂, -, hrun⟩ := runs_bind.1 hrun
  obtain ⟨rfl, -⟩ := runs_pure.1 hrun
  obtain rfl := mapError_eq_ok.1 (runs_ofExcept.1 hok).1
  exact ⟨outcome, hresult⟩

theorem runs_prepare (hrun : Runs (prepare job) j p j') :
    ∃ m, load job.words = .ok m ∧ job.Prepares m p := by
  unfold prepare at hrun
  obtain ⟨_, j₁, -, hrun⟩ := runs_bind.1 hrun
  obtain ⟨m, _, hload, hrun⟩ := runs_bind.1 hrun
  obtain ⟨hload, -⟩ := runs_ofExcept.1 hload
  rcases hnormalize : m.normalize with ⟨changes, m₁⟩
  rw [hnormalize] at hrun
  obtain ⟨_, j₂, -, hrun⟩ := runs_bind.1 hrun
  rcases hpreamble : addComputePreamble.run m₁ with ⟨u, m₂⟩
  rw [hpreamble] at hrun
  obtain ⟨m₃, j₃, hdecorate, hrun⟩ := runs_bind.1 hrun
  obtain ⟨outcome, hdecorate⟩ := runs_decorateGlobalBlock hdecorate
  obtain ⟨m₄, j₄, hadds, hrun⟩ := runs_bind.1 hrun
  refine ⟨m, hload, outcome, m₃, m₄, ?_, runs_addEntries hadds, ?_⟩
  · have hm₂ : addComputePreamble m₁ = (u, m₂) := hpreamble
    rwa [hnormalize, hm₂]
  · dsimp only at hrun
    split at hrun
    · obtain ⟨_, j₅, -, hrun⟩ := runs_bind.1 hrun
      exact (runs_pure.1 hrun).1.symm
    · exact (runs_pure.1 hrun).1.symm

theorem runs_complete {words : List Word} {metadata : Handle}
    (hrun : Runs (complete words) j (p, metadata) j') :
    ∃ m, load words = .ok m ∧ p = (declareMetadata m).2.consolidate ∧
      metadata = (declareMetadata m).1 := by
  unfold complete at hrun
  obtain ⟨m, _, hload, hrun⟩ := runs_bind.1 hrun
  obtain ⟨hload, -⟩ := runs_ofExcept.1 hload
  rcases hdeclare : declareMetadata.run m with ⟨metadata', m'⟩
  rw [hdeclare] at hrun
  have hm' : declareMetadata m = (metadata', m') := hdeclare
  obtain ⟨hp, hmetadata⟩ := Prod.mk.inj (runs_pure.1 hrun).1
  refine ⟨m, hload, ?_⟩
  rw [hm']
  exact ⟨hp.symm, hmetadata.symm⟩

/-! ### Runs of stages -/

theorem runs_log (entries : List LogEntry) (j : Journal) :
    Runs (logAll entries) j () { j with log := j.log ++ entries } := rfl

theorem runs_ok {α ε : Type} {x : Except ε α} {f : ε → LoweringError} {a : α} (hx : x = .ok a)
    (j : Journal) : Runs (MonadExcept.ofExcept (x.mapError f) : Stage α) j a j :=
  runs_ofExcept.2 ⟨mapError_eq_ok.2 hx, rfl⟩

theorem exists_runs_addEntry {k : Kernel} {outcome : EntryOutcome}
    (hrun : Runs (Module.addEntry k) m outcome p) (j : Journal) :
    ∃ j', Runs (addEntry m k) j p j' := by
  have hresult : (Module.addEntry k).run.run m = (.ok outcome, p) := hrun
  refine exists_runs_bind (runs_log _ j) ?_
  rw [hresult]
  refine exists_runs_bind (runs_log _ _) ?_
  exact exists_runs_bind (runs_ok rfl _) ⟨_, runs_pure.2 ⟨rfl, rfl⟩⟩

theorem exists_runs_addEntries {ks : List Kernel} (hadds : AddsEntries ks m p) (j : Journal) :
    ∃ j', Runs (ks.foldlM addEntry m) j p j' := by
  induction hadds generalizing j with
  | nil m => exact ⟨j, runs_pure.2 ⟨rfl, rfl⟩⟩
  | cons hrun _ ih =>
      obtain ⟨j₁, hadd⟩ := exists_runs_addEntry hrun j
      rw [List.foldlM_cons]
      exact exists_runs_bind hadd (ih j₁)

theorem exists_runs_decorateGlobalBlock {host : Host} {outcome : BlockOutcome}
    (hrun : Runs (Module.decorateGlobalBlock host) m outcome p) (j : Journal) :
    ∃ j', Runs (decorateGlobalBlock host m) j p j' := by
  have hresult : (Module.decorateGlobalBlock host).run.run m = (.ok outcome, p) := hrun
  refine exists_runs_bind (runs_log _ j) ?_
  rw [hresult]
  refine exists_runs_bind (runs_ok rfl _) ?_
  exact exists_runs_bind (runs_log _ _) ⟨_, runs_pure.2 ⟨rfl, rfl⟩⟩

theorem exists_runs_prepare (hload : load job.words = .ok m) (hp : job.Prepares m p)
    (j : Journal) : ∃ j', Runs (prepare job) j p j' := by
  obtain ⟨outcome, m₃, m₄, hdecorate, hadds, rfl⟩ := hp.stages
  unfold prepare
  rcases hnormalize : m.normalize with ⟨changes, m₁⟩
  rcases hpreamble : addComputePreamble m₁ with ⟨u, m₂⟩
  have hrun : addComputePreamble.run m₁ = (u, m₂) := hpreamble
  rw [hnormalize] at hdecorate
  dsimp only at hdecorate
  rw [hpreamble] at hdecorate
  refine exists_runs_bind (runs_log _ j) ?_
  refine exists_runs_bind (runs_ofExcept.2 ⟨hload, rfl⟩) ?_
  rw [hnormalize]
  refine exists_runs_bind (runs_log _ _) ?_
  rw [hrun]
  obtain ⟨j₃, hdecorate⟩ := exists_runs_decorateGlobalBlock hdecorate _
  refine exists_runs_bind hdecorate ?_
  obtain ⟨j₄, hadds⟩ := exists_runs_addEntries hadds j₃
  refine exists_runs_bind hadds ?_
  dsimp only
  split
  · exact exists_runs_bind (runs_log _ _) ⟨_, runs_pure.2 ⟨rfl, rfl⟩⟩
  · exact ⟨_, runs_pure.2 ⟨rfl, rfl⟩⟩

theorem runs_complete_of_load {words : List Word} {n : Module} (hload : load words = .ok m)
    (hn : n = (declareMetadata m).2.consolidate) (j : Journal) :
    Runs (complete words) j (n, (declareMetadata m).1) j := by
  unfold complete
  refine runs_bind.2 ⟨m, j, runs_ofExcept.2 ⟨hload, rfl⟩, ?_⟩
  rcases hdeclare : declareMetadata m with ⟨metadata, m'⟩
  have hrun : declareMetadata.run m = (metadata, m') := hdeclare
  rw [hdeclare] at hn
  rw [hrun, hn]
  exact runs_pure.2 ⟨rfl, rfl⟩

end Stage

/-- What a lowering without transformations goes through if it succeeds. -/
structure Job.Lowers (job : Job) (m p m' n : Module) (out : List Word) : Prop where
  load : Module.load job.words = .ok m
  prepares : job.Prepares m p
  reload : ∃ words, p.encode = .ok words ∧ Module.load words = .ok m'
  completes : n = (declareMetadata m').2.consolidate
  encode : n.encode = .ok out

theorem Job.exists_lowers {job : Job} {out : List Word}
    (hlower : (job.lower .passThrough).1 = .ok out) : ∃ m p m' n, job.Lowers m p m' n out := by
  have hrun : Runs (Stage.lower job .passThrough) .empty out (job.lower .passThrough).2 :=
    runs_of_fst_eq hlower
  obtain ⟨p, j₁, hprepare, hrun⟩ := runs_bind.1 hrun
  obtain ⟨m, hload, hprepares⟩ := Stage.runs_prepare hprepare
  obtain ⟨_, j₂, -, hrun⟩ := runs_bind.1 hrun
  obtain ⟨_, j₃, -, hrun⟩ := runs_bind.1 hrun
  obtain ⟨words, j₄, hencode, hrun⟩ := runs_bind.1 hrun
  have hencode := mapError_eq_ok.1 (mapError_eq_ok.1 (runs_ofExcept.1 hencode).1)
  obtain ⟨⟨n, metadata⟩, j₅, hcomplete, hrun⟩ := runs_bind.1 hrun
  obtain ⟨m', hreload, hn, -⟩ := Stage.runs_complete hcomplete
  obtain ⟨_, j₆, -, hrun⟩ := runs_bind.1 hrun
  obtain ⟨_, j₇, -, hrun⟩ := runs_bind.1 hrun
  obtain ⟨out', j₈, hout, hrun⟩ := runs_bind.1 hrun
  have hout := mapError_eq_ok.1 (mapError_eq_ok.1 (runs_ofExcept.1 hout).1)
  obtain ⟨_, j₉, -, hrun⟩ := runs_bind.1 hrun
  obtain ⟨rfl, -⟩ := runs_pure.1 hrun
  exact ⟨m, p, m', n, hload, hprepares, ⟨words, hencode, hreload⟩, hn, hout⟩

theorem Job.Lowers.lower {job : Job} {m p m' n : Module} {out : List Word}
    (hl : job.Lowers m p m' n out) :
    (job.lower .passThrough).1 = .ok out := by
  suffices h : ∃ j', Runs (Stage.lower job .passThrough) .empty out j' by
    obtain ⟨j', hrun⟩ := h
    exact congrArg Prod.fst hrun
  obtain ⟨words, hencode, hreload⟩ := hl.reload
  obtain ⟨j₁, hprepare⟩ := Stage.exists_runs_prepare hl.load hl.prepares .empty
  refine exists_runs_bind hprepare ?_
  refine exists_runs_bind (Stage.runs_log _ _) ?_
  refine exists_runs_bind (a := ()) (runs_modify.2 rfl) ?_
  refine exists_runs_bind (Stage.runs_ok (mapError_eq_ok.2 hencode) _) ?_
  refine exists_runs_bind (Stage.runs_complete_of_load hreload hl.completes _) ?_
  refine exists_runs_bind (Stage.runs_log _ _) ?_
  refine exists_runs_bind (a := ()) (runs_modify.2 rfl) ?_
  refine exists_runs_bind (Stage.runs_ok (mapError_eq_ok.2 hl.encode) _) ?_
  exact exists_runs_bind (Stage.runs_log _ _) ⟨_, runs_pure.2 ⟨rfl, rfl⟩⟩

/-- Exactly these runs succeed. -/
theorem Job.lower_eq_ok {job : Job} {out : List Word} :
    (job.lower .passThrough).1 = .ok out ↔ ∃ m p m' n, job.Lowers m p m' n out :=
  ⟨exists_lowers, fun ⟨_, _, _, _, hl⟩ => hl.lower⟩

/-! ## Modules that are handed over -/

namespace Stage

variable {job : Job} {builtIns : Option Module} {accessors : Option (Module × Handle)} {α : Type}

def Keeping (x : Stage α) : Prop :=
  ∀ j, (x j).2.toBuiltIns = j.toBuiltIns ∧ (x j).2.toAccessors = j.toAccessors

namespace Keeping

theorem bind {β : Type} {x : Stage α} {f : α → Stage β} (hx : Keeping x)
    (hf : ∀ a, Keeping (f a)) : Keeping (x >>= f) := by
  intro j
  have hj := hx j
  rw [bind_apply]
  rcases hrun : x j with ⟨_ | a, j'⟩
  all_goals rw [hrun] at hj
  · exact hj
  · exact ⟨(hf a j').1.trans hj.1, (hf a j').2.trans hj.2⟩

theorem pure (a : α) : Keeping (Pure.pure a : Stage α) := fun _ => ⟨rfl, rfl⟩

theorem ofExcept (x : Except LoweringError α) : Keeping (MonadExcept.ofExcept x : Stage α) := by
  cases x <;> exact fun _ => ⟨rfl, rfl⟩

theorem logAll (entries : List LogEntry) : Keeping (Stage.logAll entries) := fun _ => ⟨rfl, rfl⟩

theorem foldlM {β : Type} {f : α → β → Stage α} (hf : ∀ a b, Keeping (f a b)) (bs : List β)
    (a : α) : Keeping (bs.foldlM f a) := by
  induction bs generalizing a with
  | nil => exact pure a
  | cons b bs ih =>
      rw [List.foldlM_cons]
      exact (hf a b).bind ih

end Keeping

theorem keeping_addEntry (m : Module) (k : Kernel) : Keeping (addEntry m k) :=
  .bind (.logAll _) fun _ => .bind (.logAll _) fun _ => .bind (.ofExcept _) fun _ => .pure _

theorem keeping_decorateGlobalBlock (host : Host) (m : Module) :
    Keeping (decorateGlobalBlock host m) :=
  .bind (.logAll _) fun _ => .bind (.ofExcept _) fun _ => .bind (.logAll _) fun _ => .pure _

theorem keeping_prepare (job : Job) : Keeping (prepare job) := by
  unfold prepare
  refine .bind (.logAll _) fun _ => .bind (.ofExcept _) fun m => ?_
  rcases m.normalize with ⟨changes, m₁⟩
  refine .bind (.logAll _) fun _ => ?_
  rcases addComputePreamble.run m₁ with ⟨u, m₂⟩
  refine .bind (keeping_decorateGlobalBlock _ _) fun m₃ => ?_
  refine .bind (.foldlM keeping_addEntry _ _) fun m₄ => ?_
  dsimp only
  split
  · exact .bind (.logAll _) fun _ => .pure _
  · exact .pure _

theorem keeping_complete (words : List Word) : Keeping (complete words) := by
  unfold complete
  refine .bind (.ofExcept _) fun m => ?_
  rcases declareMetadata.run m with ⟨metadata, m'⟩
  exact .pure _

end Stage

namespace Job

variable {job : Job} {t : Transforms} {p n : Module} {metadata : Handle}

/-- What a lowering has handed over when it ends: nothing, or what it prepared, and what it
completed if it came to that. -/
inductive Handed (job : Job) (t : Transforms) : Journal → Prop
  | nothing {j : Journal} (hbuiltIns : j.toBuiltIns = none) (haccessors : j.toAccessors = none) :
    Handed job t j
  | prepared {j : Journal} {m p : Module} (hload : Module.load job.words = .ok m)
    (hp : job.Prepares m p) (hbuiltIns : j.toBuiltIns = some p)
    (haccessors : j.toAccessors = none) : Handed job t j
  | completed {j : Journal} {m p m' : Module} {words : List Word}
    (hload : Module.load job.words = .ok m) (hp : job.Prepares m p)
    (hbuiltIns : j.toBuiltIns = some p) (hwords : t.lowerBuiltIns p = .ok words)
    (hreload : Module.load words = .ok m')
    (haccessors : j.toAccessors =
      some ((declareMetadata m').2.consolidate, (declareMetadata m').1)) : Handed job t j

/-- Whether a stage ends in a state like this, wherever it fails, if it starts in one like
that. -/
def Leads {α : Type} (P : Journal → Prop) (x : Stage α) (Q : α → Journal → Prop)
    (E : Journal → Prop) : Prop :=
  ∀ j, P j → (∃ e j', x j = (.error e, j') ∧ E j') ∨ ∃ a j', x j = (.ok a, j') ∧ Q a j'

namespace Leads

variable {α β : Type} {P E : Journal → Prop} {Q : α → Journal → Prop} {R : β → Journal → Prop}

theorem bind {x : Stage α} {f : α → Stage β} (hx : Leads P x Q E)
    (hf : ∀ a, Leads (Q a) (f a) R E) : Leads P (x >>= f) R E := by
  intro j hj
  obtain ⟨e, j', hrun, he⟩ | ⟨a, j', hrun, ha⟩ := hx j hj
  · refine .inl ⟨e, j', ?_, he⟩
    rw [bind_apply, hrun]
  · rw [bind_apply, hrun]
    exact hf a j' ha

theorem of_keeping {x : Stage α} (hx : Stage.Keeping x)
    (hE : ∀ j j', j'.toBuiltIns = j.toBuiltIns → j'.toAccessors = j.toAccessors → P j → E j')
    (hQ : ∀ j a j', Runs x j a j' → j'.toBuiltIns = j.toBuiltIns →
      j'.toAccessors = j.toAccessors → P j → Q a j') : Leads P x Q E := by
  intro j hj
  have hkept := hx j
  rcases hrun : x j with ⟨e | a, j'⟩
  all_goals rw [hrun] at hkept
  · exact .inl ⟨e, j', rfl, hE j j' hkept.1 hkept.2 hj⟩
  · exact .inr ⟨a, j', rfl, hQ j a j' hrun hkept.1 hkept.2 hj⟩

theorem modify {g : Journal → Journal} {Q : Journal → Prop} (hg : ∀ j, P j → Q (g j)) :
    Leads P (modify g) (fun _ => Q) E := fun j hj => .inr ⟨⟨⟩, g j, rfl, hg j hj⟩

end Leads

def Waits (job : Job) (p : Module) (j : Journal) : Prop :=
  ∃ m, Module.load job.words = .ok m ∧ job.Prepares m p ∧ j.toAccessors = none

def Resumes (job : Job) (t : Transforms) (p m' : Module) (j : Journal) : Prop :=
  (∃ m, Module.load job.words = .ok m ∧ job.Prepares m p) ∧ j.toBuiltIns = some p ∧
    ∃ words, t.lowerBuiltIns p = .ok words ∧ Module.load words = .ok m'

variable {j j' : Journal} {m' : Module}

theorem Handed.of_waits (hj : job.Waits p j) (hp : j.toBuiltIns = some p)
    (hbuiltIns : j'.toBuiltIns = j.toBuiltIns) (haccessors : j'.toAccessors = j.toAccessors) :
    job.Handed t j' := by
  obtain ⟨m, hload, hprepares, hnone⟩ := hj
  exact .prepared hload hprepares (hbuiltIns.trans hp) (haccessors.trans hnone)

theorem Handed.of_resumes (hj : ∃ m', job.Resumes t p m' j ∧ j.toAccessors =
      some ((declareMetadata m').2.consolidate, (declareMetadata m').1))
    (hbuiltIns : j'.toBuiltIns = j.toBuiltIns) (haccessors : j'.toAccessors = j.toAccessors) :
    job.Handed t j' := by
  obtain ⟨m', ⟨⟨m, hload, hp⟩, hsome, words, hwords, hreload⟩, hmade⟩ := hj
  exact .completed hload hp (hbuiltIns.trans hsome) hwords hreload (haccessors.trans hmade)

theorem leads_debug {P E : Journal → Prop} (message : String)
    (hP : ∀ j log, P j → P { j with log }) :
    Leads P (Stage.debug message) (fun _ => P) E := fun j hj => .inr ⟨(), _, rfl, hP j _ hj⟩

theorem leads_prepare (job : Job) (t : Transforms) :
    Leads (· = .empty) (Stage.prepare job) job.Waits (job.Handed t) := by
  refine .of_keeping (Stage.keeping_prepare job) ?_ ?_
  · rintro _ j' hbuiltIns haccessors rfl
    exact .nothing hbuiltIns haccessors
  · rintro _ p j' hrun hbuiltIns haccessors rfl
    obtain ⟨m, hload, hp⟩ := Stage.runs_prepare hrun
    exact ⟨m, hload, hp, haccessors⟩

theorem leads_complete {words : List Word} (hwords : t.lowerBuiltIns p = .ok words) :
    Leads (fun j => job.Waits p j ∧ j.toBuiltIns = some p) (Stage.complete words)
      (fun made j => ∃ m', job.Resumes t p m' j ∧
        made = ((declareMetadata m').2.consolidate, (declareMetadata m').1)) (job.Handed t) := by
  refine .of_keeping (Stage.keeping_complete words) ?_ ?_
  · exact fun _ _ hbuiltIns haccessors hj => .of_waits hj.1 hj.2 hbuiltIns haccessors
  · rintro j ⟨n, metadata⟩ j' hrun hbuiltIns haccessors ⟨⟨m, hload, hp, hnone⟩, hsome⟩
    obtain ⟨m', hreload, hn, hmetadata⟩ := Stage.runs_complete hrun
    exact ⟨m',
      ⟨⟨m, hload, hp⟩, hbuiltIns.trans hsome, words, hwords, hreload⟩, by rw [hn, hmetadata]⟩

/-- The journal of a lowering tells what was handed over, also if the lowering fails. -/
theorem handed (job : Job) (t : Transforms) : job.Handed t (job.lower t).2 := by
  have hleads :
      Leads (· = .empty) (Stage.lower job t) (fun _ => job.Handed t) (job.Handed t) := by
    unfold Stage.lower
    refine .bind (leads_prepare job t) fun p => ?_
    refine .bind (leads_debug _ fun _ _ hj => hj) fun _ => ?_
    refine .bind (Q := fun _ j => job.Waits p j ∧ j.toBuiltIns = some p)
      (.modify fun j hj => ⟨hj, rfl⟩) fun _ => ?_
    refine .bind (Q := fun words j => (job.Waits p j ∧ j.toBuiltIns = some p) ∧
      t.lowerBuiltIns p = .ok words) (.of_keeping (.ofExcept _) ?_ ?_) fun words => ?_
    · exact fun _ _ hbuiltIns haccessors hj => .of_waits hj.1 hj.2 hbuiltIns haccessors
    · intro j words j' hrun _ _ hj
      obtain ⟨hwords, rfl⟩ := runs_ofExcept.1 hrun
      exact ⟨hj, mapError_eq_ok.1 hwords⟩
    refine .bind (fun j hj => leads_complete hj.2 j hj.1) ?_
    rintro ⟨n, metadata⟩
    dsimp only
    refine .bind (leads_debug _ fun _ _ hj => hj) fun _ => ?_
    refine .bind (Q := fun _ j => ∃ m', job.Resumes t p m' j ∧
      j.toAccessors = some ((declareMetadata m').2.consolidate, (declareMetadata m').1))
      (.modify ?_) fun _ => ?_
    · rintro j ⟨m', hresumes, hmade⟩
      exact ⟨m', hresumes, congrArg some hmade⟩
    have hlast (x : Except LoweringError (List Word)) : Stage.Keeping (do
        let words ← MonadExcept.ofExcept x
        Stage.debug s!"produced {words.length} words"
        pure words) :=
      .bind (.ofExcept _) fun _ => .bind (.logAll _) fun _ => .pure _
    refine .of_keeping (hlast _) ?_ ?_
    · exact fun _ _ hbuiltIns haccessors hj => .of_resumes hj hbuiltIns haccessors
    · exact fun _ _ _ _ hbuiltIns haccessors hj => .of_resumes hj hbuiltIns haccessors
  obtain ⟨e, j', hrun, hj'⟩ | ⟨words, j', hrun, hj'⟩ := hleads .empty rfl
  all_goals
    have hj : (job.lower t).2 = j' := congrArg Prod.snd hrun
    rw [hj]
    exact hj'

theorem prepares_of_toBuiltIns (hp : (job.lower t).2.toBuiltIns = some p) :
    ∃ m, Module.load job.words = .ok m ∧ job.Prepares m p := by
  cases handed job t with
  | nothing hnone =>
      rw [hnone] at hp
      cases hp
  | prepared hload hprepares hsome | completed hload hprepares hsome =>
      rw [hsome] at hp
      exact ⟨_, hload, Option.some.inj hp ▸ hprepares⟩

theorem completes_of_toAccessors (hn : (job.lower t).2.toAccessors = some (n, metadata)) :
    ∃ m p words m', Module.load job.words = .ok m ∧ job.Prepares m p ∧
      t.lowerBuiltIns p = .ok words ∧ Module.load words = .ok m' ∧
      n = (declareMetadata m').2.consolidate ∧ metadata = (declareMetadata m').1 := by
  cases handed job t with
  | nothing _ hnone | prepared _ _ _ hnone =>
      rw [hnone] at hn
      cases hn
  | @completed m p m' words hload hprepares _ hwords hreload hsome =>
      rw [hsome] at hn
      obtain ⟨hconsolidate, hmetadata⟩ := Prod.mk.inj (Option.some.inj hn)
      exact ⟨m, p, words, m', hload, hprepares, hwords, hreload, hconsolidate.symm,
        hmetadata.symm⟩

end Job

end KernelGrid
