import KernelGrid.Proofs.Module.Decoded
import KernelGrid.Proofs.Module.StorageClasses

/-!
# Fixed points of passes

Each pass does nothing the second time, and two passes may change places as long as nothing is
listed both as an annotation and as a global.  So one round of passes, in any order and however
often each of them occurs, is the end of all change.
-/

namespace KernelGrid

namespace Module

variable {m : Module}

/-! ## Rewriting -/

def Separate (m : Module) : Prop := ∀ h ∈ m.annotations, h ∉ m.globals

instance (m : Module) : Decidable m.Separate :=
  inferInstanceAs (Decidable (∀ h ∈ m.annotations, _))

theorem separate_of_decode {w : List Word} (hdecode : decode w = .ok m) : m.Separate := by
  obtain ⟨_, _, _, _, _, -, -, _, _, _, -, hD⟩ := exists_decoded hdecode
  intro h hannotation hglobal
  have hsection := (hD.section_eq (s := .annotations) hannotation).1
  rw [(hD.section_eq (s := .globals) hglobal).1] at hsection
  cases hsection

theorem isInFunctionStorage_normalizeStorage {h : Handle} (hh : h ∈ m.globals) :
    m.normalizeStorage.2.isInFunctionStorage h = false := by
  rw [isInFunctionStorage, kindOf, inst_normalizeStorage, if_pos hh]
  exact decide_eq_false (storage?_makeUniform (m.inst h))

theorem globals_normalizeStorage (m : Module) : m.normalizeStorage.2.globals = m.globals := by
  obtain ⟨-, heq⟩ | ⟨insts, heq, -⟩ := m.normalizeStorage_cases
  · rw [heq]
  · rw [heq]
    rfl

theorem annotations_normalizeStorage (m : Module) :
    m.normalizeStorage.2.annotations = m.annotations := by
  obtain ⟨-, heq⟩ | ⟨insts, heq, -⟩ := m.normalizeStorage_cases
  · rw [heq]
  · rw [heq]
    rfl

theorem normalizeStorage_normalizeStorage (m : Module) :
    m.normalizeStorage.2.normalizeStorage = (false, m.normalizeStorage.2) := by
  have hany : m.normalizeStorage.2.globals.any m.normalizeStorage.2.isInFunctionStorage =
      false := by
    rw [List.any_eq_false, globals_normalizeStorage]
    intro h hh
    simp [isInFunctionStorage_normalizeStorage hh]
  rw [normalizeStorage, hany]
  rfl

theorem normalizeStorage_ne (hchanged : m.normalizeStorage.1 = true) :
    m.normalizeStorage.2 ≠ m := by
  intro hsame
  have hquiet := m.normalizeStorage_normalizeStorage
  rw [hsame] at hquiet
  rw [hquiet] at hchanged
  cases hchanged

theorem consolidate_eq_self (hlength : m.consolidate.annotations.length = m.annotations.length) :
    m.consolidate = m := by
  have hsub : m.consolidate.annotations.Sublist m.annotations := eraseDupsBy_sublist _ _
  exact congrArg (fun annotations => { m with annotations }) (hsub.eq_of_length hlength)

theorem consolidate_normalizeStorage (hm : m.Separate) :
    m.consolidate.normalizeStorage.2 = m.normalizeStorage.2.consolidate := by
  let insts := m.globals.foldl (fun insts h => insts.modify h makeUniform) m.insts
  have hkept : m.consolidate.annotations = m.annotations.eraseDupsBy fun a b =>
      ({ m with insts } : Module).inst a = ({ m with insts } : Module).inst b := by
    refine (eraseDupsBy_congr fun a ha b hb => ?_).symm
    rw [inst_foldl_makeUniform, inst_foldl_makeUniform, if_neg (hm a ha), if_neg (hm b hb)]
  have hany : m.consolidate.globals.any m.consolidate.isInFunctionStorage =
      m.globals.any m.isInFunctionStorage := rfl
  simp only [normalizeStorage, hany]
  split
  · exact congrArg (fun annotations => reintern { m with insts, annotations }) hkept
  · rfl

end Module

namespace Pass

variable {p q : Pass} {passes passes' : List Pass} {m : Module} {n i : Nat}

/-! ## One pass -/

/-- A pass reports a change exactly if there is one. -/
theorem run_fst_eq_false : (p.run m).1 = false ↔ (p.run m).2 = m := by
  cases p with
  | storageClass =>
      obtain ⟨-, heq⟩ | ⟨insts, heq, -⟩ := m.normalizeStorage_cases
      · simp [run, heq]
      · have hchanged : m.normalizeStorage.1 = true := by rw [heq]
        have hne := Module.normalizeStorage_ne hchanged
        simp only [run, hchanged, Bool.true_eq_false, hne]
  | consolidation =>
      simp only [run, ne_eq, decide_not, Bool.not_eq_false', decide_eq_true_eq]
      exact ⟨Module.consolidate_eq_self, fun heq => by rw [heq]⟩
  | validation => exact ⟨fun _ => rfl, fun _ => rfl⟩

theorem run_eq_iff : p.run m = (false, m) ↔ (p.run m).2 = m :=
  ⟨fun heq => by rw [heq], fun heq => Prod.ext (run_fst_eq_false.2 heq) heq⟩

/-- A pass leaves nothing to do. -/
theorem run_run (p : Pass) (m : Module) : (p.run (p.run m).2).2 = (p.run m).2 := by
  cases p with
  | storageClass =>
      change m.normalizeStorage.2.normalizeStorage.2 = _
      rw [m.normalizeStorage_normalizeStorage]
      rfl
  | consolidation => exact m.consolidate_consolidate
  | validation => rfl

theorem separate_run (p : Pass) (hm : m.Separate) : (p.run m).2.Separate := by
  cases p with
  | storageClass =>
      change ∀ h ∈ m.normalizeStorage.2.annotations, h ∉ m.normalizeStorage.2.globals
      rwa [Module.globals_normalizeStorage, Module.annotations_normalizeStorage]
  | consolidation => exact fun h hh => hm h ((Module.eraseDupsBy_sublist _ _).subset hh)
  | validation => exact hm

/-- Passes may change places. -/
theorem run_comm (p q : Pass) (hm : m.Separate) :
    (p.run (q.run m).2).2 = (q.run (p.run m).2).2 := by
  cases p <;> cases q <;> try rfl
  · exact Module.consolidate_normalizeStorage hm
  · exact (Module.consolidate_normalizeStorage hm).symm

/-! ## One round -/

def sweep (passes : List Pass) (m : Module) : Module := passes.foldl (fun m p => (p.run m).2) m

theorem sweep_cons (p : Pass) (passes : List Pass) (m : Module) :
    sweep (p :: passes) m = sweep passes (p.run m).2 := rfl

theorem separate_sweep (passes : List Pass) (hm : m.Separate) : (sweep passes m).Separate := by
  induction passes generalizing m with
  | nil => exact hm
  | cons p passes ih => exact ih (separate_run p hm)

/-- It does not matter whether a pass runs before a round or after it. -/
theorem run_sweep (p : Pass) (passes : List Pass) (hm : m.Separate) :
    (p.run (sweep passes m)).2 = sweep passes (p.run m).2 := by
  induction passes generalizing m with
  | nil => rfl
  | cons q passes ih => rw [sweep_cons, sweep_cons, ih (separate_run q hm), run_comm p q hm]

theorem run_sweep_of_mem (hp : p ∈ passes) (hm : m.Separate) :
    (p.run (sweep passes m)).2 = sweep passes m := by
  induction passes generalizing m with
  | nil => cases hp
  | cons q passes ih =>
      rw [sweep_cons]
      obtain rfl | hp := List.mem_cons.1 hp
      · rw [run_sweep p passes (separate_run p hm), run_run]
      · exact ih hp (separate_run q hm)

theorem sweep_comm (passes passes' : List Pass) (hm : m.Separate) :
    sweep passes (sweep passes' m) = sweep passes' (sweep passes m) := by
  induction passes generalizing m with
  | nil => rfl
  | cons p passes ih =>
      rw [sweep_cons, sweep_cons, run_sweep p passes' hm, ih (separate_run p hm)]

/-- Passes that only check, or that run in a round anyway, add nothing to it. -/
theorem sweep_sweep (hsub : ∀ p ∈ normalization, p ∈ passes' → p ∈ passes) (hm : m.Separate) :
    sweep passes (sweep passes' m) = sweep passes m := by
  rw [sweep_comm passes passes' hm]
  have hdone : ∀ p ∈ passes', (p.run (sweep passes m)).2 = sweep passes m := by
    intro p hp
    cases p with
    | storageClass => exact run_sweep_of_mem (hsub _ (by decide) hp) hm
    | consolidation => exact run_sweep_of_mem (hsub _ (by decide) hp) hm
    | validation => rfl
  clear hsub
  induction passes' with
  | nil => rfl
  | cons p passes' ih =>
      rw [List.forall_mem_cons] at hdone
      rw [sweep_cons, hdone.1, ih hdone.2]

/-- What a round comes to depends on the rewriting passes in it alone. -/
theorem sweep_congr (hsame : ∀ p ∈ normalization, p ∈ passes ↔ p ∈ passes') (hm : m.Separate) :
    sweep passes m = sweep passes' m := by
  calc sweep passes m
      = sweep passes (sweep passes' m) := (sweep_sweep (fun p hp => (hsame p hp).2) hm).symm
    _ = sweep passes' (sweep passes m) := sweep_comm passes passes' hm
    _ = sweep passes' m := sweep_sweep (fun p hp => (hsame p hp).1) hm

/-! ## Rounds -/

def reports : List Pass → Nat → Module → List Change
  | [], _, _ => []
  | p :: passes, i, m => (if (p.run m).1 then [⟨p, i⟩] else []) ++ reports passes i (p.run m).2

theorem foldl_reports {step : List Change × Module → Pass → List Change × Module}
    (hstep : ∀ changes m p, step (changes, m) p =
      (changes ++ if (p.run m).1 then [⟨p, i⟩] else [], (p.run m).2)) (changes : List Change) :
    passes.foldl step (changes, m) = (changes ++ reports passes i m, sweep passes m) := by
  induction passes generalizing changes m with
  | nil => simp [reports, sweep]
  | cons p passes ih =>
      rw [List.foldl_cons, hstep, ih, reports, sweep_cons, List.append_assoc]

theorem runRound_eq (passes : List Pass) (i : Nat) (m : Module) :
    runRound passes i m = (reports passes i m, sweep passes m) := by
  refine foldl_reports (fun changes m p => ?_) []
  dsimp only
  rcases p.run m with ⟨_ | _, m'⟩
  · simp
  · rfl

theorem sweep_of_reports (hreports : reports passes i m = []) : sweep passes m = m := by
  induction passes with
  | nil => rfl
  | cons p passes ih =>
      rw [reports, List.append_eq_nil_iff] at hreports
      obtain ⟨hfirst, hrest⟩ := hreports
      have hquiet : (p.run m).2 = m := by
        rw [← run_fst_eq_false]
        simpa using hfirst
      rw [hquiet] at hrest
      rw [sweep_cons, hquiet, ih hrest]

theorem reports_of_quiet (hquiet : ∀ p ∈ passes, (p.run m).2 = m) (i : Nat) :
    reports passes i m = [] := by
  induction passes with
  | nil => rfl
  | cons p passes ih =>
      rw [List.forall_mem_cons] at hquiet
      rw [reports, run_eq_iff.2 hquiet.1, ih hquiet.2]
      rfl

theorem reports_sweep (passes : List Pass) (hm : m.Separate) (i : Nat) :
    reports passes i (sweep passes m) = [] :=
  reports_of_quiet (fun _ hp => run_sweep_of_mem hp hm) i

/-- Something is reported exactly if something is changed. -/
theorem reports_eq_nil_iff (hm : m.Separate) : reports passes i m = [] ↔ sweep passes m = m := by
  refine ⟨sweep_of_reports, fun heq => ?_⟩
  have hquiet := reports_sweep passes hm i
  rwa [heq] at hquiet

/-- One round is enough, and a second one finds that out. -/
theorem runAll_eq (passes : List Pass) (hm : m.Separate) :
    runAll passes m = (reports passes 0 m, sweep passes m) := by
  have hsecond (rounds : Nat) :
      repeatRounds passes (rounds + 1) 1 (sweep passes m) = ([], sweep passes m) := by
    rw [repeatRounds, runRound_eq, reports_sweep passes hm,
      sweep_of_reports (reports_sweep passes hm 1)]
  rw [runAll, maxRounds, repeatRounds, runRound_eq]
  cases hreports : reports passes 0 m with
  | nil => rfl
  | cons c cs => simp [hsecond 8]

def afterRounds (passes : List Pass) : Nat → Module → Module
  | 0, m => m
  | n + 1, m => (runRound passes n (afterRounds passes n m)).2

/-- Whether passes come to a module by rounds each of which changes something, before they are
stopped: each of them has nothing to do there. -/
structure Settles (passes : List Pass) (m m' : Module) : Prop where
  stops : ∃ n < maxRounds, m' = afterRounds passes n m ∧ (runRound passes n m').1 = [] ∧
    ∀ i < n, (runRound passes i (afterRounds passes i m)).1 ≠ []
  done : ∀ p ∈ passes, p.run m' = (false, m')

theorem settles_sweep (passes : List Pass) (hm : m.Separate) :
    Settles passes m (sweep passes m) where
  stops := by
    by_cases hreports : reports passes 0 m = []
    · rw [sweep_of_reports hreports]
      refine ⟨0, by decide, rfl, ?_, by simp⟩
      rw [runRound_eq, hreports]
    · refine ⟨1, by decide, ?_, ?_, ?_⟩
      · rw [afterRounds, afterRounds, runRound_eq]
      · rw [runRound_eq, reports_sweep passes hm]
      · intro i hi
        obtain rfl := Nat.lt_one_iff.1 hi
        rwa [afterRounds, runRound_eq]
  done p hp := run_eq_iff.2 (run_sweep_of_mem hp hm)

/-- Passes come to an end where each of them has nothing to do, which depends on the
rewriting passes among them alone.  They report exactly what changes, and nothing if they
run once more. -/
theorem runAll_settles : (∀ w m, Module.decode w = .ok m → m.Separate) ∧
    ∀ (passes : List Pass) (m : Module), m.Separate →
      Settles passes m (runAll passes m).2 ∧
      ((runAll passes m).1 ≠ [] ↔ (runAll passes m).2 ≠ m) ∧
      (∀ passes' : List Pass, (∀ p ∈ normalization, p ∈ passes ↔ p ∈ passes') →
        (runAll passes' m).2 = (runAll passes m).2) ∧
      runAll passes (runAll passes m).2 = ([], (runAll passes m).2) := by
  refine ⟨fun w m hdecode => Module.separate_of_decode hdecode, fun passes m hm => ?_⟩
  have hagain := runAll_eq passes (separate_sweep passes hm)
  rw [reports_sweep passes hm, sweep_of_reports (reports_sweep passes hm 0)] at hagain
  rw [runAll_eq passes hm]
  refine ⟨settles_sweep passes hm, not_congr (reports_eq_nil_iff hm),
    fun passes' hsame => ?_, hagain⟩
  rw [runAll_eq passes' hm, sweep_congr hsame hm]

def decoratedTwice : List Word :=
  [Stream.magic, 0x10000, 0, 4, 0, 0x40047, 3, 34, 0, 0x40047, 3, 34, 0, 0x40015, 1, 32, 0,
    0x40020, 2, 7, 1, 0x4003b, 2, 3, 7]

theorem runAll_settles_decoratedTwice : ∃ m, Module.decode decoratedTwice = .ok m ∧ m.Separate ∧
    Settles [consolidation, validation, storageClass, consolidation] m
      (runAll [consolidation, validation, storageClass, consolidation] m).2 ∧
    (runAll [consolidation, validation, storageClass, consolidation] m).1 =
      [⟨consolidation, 0⟩, ⟨storageClass, 0⟩] ∧
    (runAll [consolidation, validation, storageClass, consolidation] m).2 ≠ m ∧
    (runAll normalization m).2 =
      (runAll [consolidation, validation, storageClass, consolidation] m).2 := by
  have hread : (Module.decode decoratedTwice).toOption.map (fun m =>
      (runAll [consolidation, validation, storageClass, consolidation] m).1) =
        some [⟨consolidation, 0⟩, ⟨storageClass, 0⟩] := by
    decide +kernel
  obtain ⟨m, hdecode, hreports⟩ := exists_of_map_toOption hread
  obtain ⟨hdecoded, hall⟩ := runAll_settles
  have hm := hdecoded _ m hdecode
  obtain ⟨hsettles, hchanges, hsame, -⟩ :=
    hall [consolidation, validation, storageClass, consolidation] m hm
  refine ⟨m, hdecode, hm, hsettles, hreports, hchanges.1 (by simp [hreports]), hsame _ ?_⟩
  decide

end Pass

end KernelGrid
