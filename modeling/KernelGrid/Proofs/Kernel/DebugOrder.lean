import KernelGrid.Proofs.Kernel.Preamble
import Mathlib.Data.List.TakeWhile

/-!
# The order of debug information

The format wants what is about the source first, then names, then what is about processing.
Source statements are put in front of the first name and names at the end, so whatever is added
keeps that order unless something about processing is there already and is passed by.
-/

namespace KernelGrid

/-! ## Groups -/

inductive DebugGroup where
  | source
  | name
  | processed
deriving DecidableEq, Repr

def Kind.debugGroup? {ρ : Type} : Kind ρ → Option DebugGroup
  | sourceExtension _ => some .source
  | debugName _ _ | memberName _ _ _ => some .name
  | raw opcode _ =>
    if opcode ∈ [Opcode.string, Opcode.source, Opcode.sourceContinued] then some .source
    else if opcode = Opcode.moduleProcessed then some .processed
    else none
  | _ => none

theorem Kind.isName_iff {ρ : Type} {k : Kind ρ} : k.isName ↔ k.debugGroup? = some .name := by
  cases k
  case raw opcode operands =>
    simp only [isName, debugGroup?, Bool.false_eq_true, false_iff]
    split
    · simp
    · split <;> simp
  all_goals simp [isName, debugGroup?]

theorem Kind.debugGroup?_of_isSource {ρ : Type} {k : Kind ρ} (hk : k.isSource) :
    k.debugGroup? = some .source := by
  cases k
  case raw opcode operands =>
    obtain rfl : opcode = Opcode.source := of_decide_eq_true hk
    rfl
  all_goals cases hk

theorem sublist_inserted {α : Type} (p : α → Bool) (xs : List α) (x : α) :
    xs.Sublist (xs.takeWhile p ++ x :: xs.dropWhile p) := by
  have hsub :=
    (List.Sublist.refl (xs.takeWhile p)).append (List.sublist_cons_self x (xs.dropWhile p))
  rwa [List.takeWhile_append_dropWhile] at hsub

namespace DebugGroup

def Arranged (gs : List (Option DebugGroup)) : Prop :=
  ∃ sources names processed, gs = List.replicate sources (some source) ++
    List.replicate names (some name) ++ List.replicate processed (some DebugGroup.processed)

/-- A source statement more, in front of the first name. -/
def insertSource (gs : List (Option DebugGroup)) : List (Option DebugGroup) :=
  gs.takeWhile (· ≠ some name) ++ some source :: gs.dropWhile (· ≠ some name)

variable {gs gs' : List (Option DebugGroup)} {g : Option DebugGroup}

theorem Arranged.sublist (hgs : Arranged gs') (hsub : gs.Sublist gs') : Arranged gs := by
  obtain ⟨sources, names, processed, rfl⟩ := hgs
  obtain ⟨front, _, rfl, hfront, hprocessed⟩ := List.sublist_append_iff.1 hsub
  obtain ⟨_, _, rfl, hsources, hnames⟩ := List.sublist_append_iff.1 hfront
  obtain ⟨_, -, rfl⟩ := List.sublist_replicate_iff.1 hsources
  obtain ⟨_, -, rfl⟩ := List.sublist_replicate_iff.1 hnames
  obtain ⟨_, -, rfl⟩ := List.sublist_replicate_iff.1 hprocessed
  exact ⟨_, _, _, rfl⟩

theorem Arranged.none_notMem (hgs : Arranged gs) : none ∉ gs := by
  obtain ⟨sources, names, processed, rfl⟩ := hgs
  simp [List.mem_replicate]

/-- Nothing else stands behind what is about processing. -/
theorem Arranged.eq_processed (hgs : Arranged [some processed, g]) : g = some processed := by
  obtain ⟨sources, names, count, heq⟩ := hgs
  cases sources with
  | succ n => simp [List.replicate_succ] at heq
  | zero =>
      cases names with
      | succ n => simp [List.replicate_succ] at heq
      | zero =>
          have hmem : g ∈ List.replicate count (some processed) := by
            rw [List.replicate_zero, List.replicate_zero, List.nil_append,
              List.nil_append] at heq
            simp [← heq]
          exact List.eq_of_mem_replicate hmem

theorem not_arranged_concat (hprocessed : some processed ∈ gs) (hg : g ≠ some processed) :
    ¬Arranged (gs ++ [g]) := by
  intro hgs
  have hsub : [some processed, g].Sublist (gs ++ [g]) :=
    (List.singleton_sublist.2 hprocessed).append (List.Sublist.refl [g])
  exact hg (hgs.sublist hsub).eq_processed

theorem insertSource_of_name_notMem (hname : some name ∉ gs) :
    insertSource gs = gs ++ [some source] := by
  have hall : ∀ g ∈ gs, decide (g ≠ some name) := by
    intro g hg
    simpa using fun heq : g = some name => hname (heq ▸ hg)
  rw [insertSource, List.takeWhile_eq_self_iff.2 hall, List.dropWhile_eq_nil_iff.2 hall]

theorem sublist_insertSource (gs : List (Option DebugGroup)) : gs.Sublist (insertSource gs) :=
  sublist_inserted _ gs (some source)

theorem mem_insertSource : g ∈ insertSource gs ↔ g = some source ∨ g ∈ gs := by
  rw [insertSource, List.mem_append, List.mem_cons, or_left_comm, ← List.mem_append,
    List.takeWhile_append_dropWhile]

theorem length_insertSource (gs : List (Option DebugGroup)) :
    (insertSource gs).length = gs.length + 1 := by
  have hlength :=
    congrArg List.length (List.takeWhile_append_dropWhile (p := (· ≠ some name)) (l := gs))
  rw [List.length_append] at hlength
  rw [insertSource, List.length_append, List.length_cons]
  omega

/-- A name at the end is in order unless it passes by what is about processing. -/
theorem Arranged.concat_name_iff (hgs : Arranged gs) :
    Arranged (gs ++ [some name]) ↔ some processed ∉ gs := by
  refine ⟨fun hall hmem => not_arranged_concat hmem (by simp) hall, fun hnone => ?_⟩
  obtain ⟨sources, names, count, rfl⟩ := hgs
  obtain rfl : count = 0 := by simpa [List.mem_replicate] using hnone
  exact ⟨sources, names + 1, 0, by simp [List.replicate_succ']⟩

/-- A source statement is in order in front of a name, and elsewhere unless it passes by what
is about processing. -/
theorem Arranged.insertSource_iff (hgs : Arranged gs) :
    Arranged (insertSource gs) ↔ some processed ∉ gs ∨ some name ∈ gs := by
  by_cases hname : some name ∈ gs
  · refine iff_of_true ?_ (.inr hname)
    obtain ⟨sources, names, count, rfl⟩ := hgs
    obtain ⟨n, rfl⟩ : ∃ n, names = n + 1 := by
      refine Nat.exists_eq_succ_of_ne_zero ?_
      simpa [List.mem_replicate] using hname
    refine ⟨sources + 1, n + 1, count, ?_⟩
    rw [insertSource, List.append_assoc, List.takeWhile_append_of_pos (by simp),
      List.dropWhile_append_of_pos (by simp), List.replicate_succ (n := n), List.cons_append,
      List.takeWhile_cons_of_neg (by simp), List.dropWhile_cons_of_neg (by simp)]
    simp [List.replicate_succ']
  · rw [insertSource_of_name_notMem hname, or_iff_left hname]
    refine ⟨fun hall hmem => not_arranged_concat hmem (by simp) hall, fun hnone => ?_⟩
    obtain ⟨sources, names, count, rfl⟩ := hgs
    obtain rfl : count = 0 := by simpa [List.mem_replicate] using hnone
    obtain rfl : names = 0 := by simpa [List.mem_replicate] using hname
    exact ⟨sources + 1, 0, 0, by simp [List.replicate_succ']⟩

end DebugGroup

namespace Module

variable {m m₁ m' : Module} {h : Handle}

/-! ## The debug section -/

def debugGroups (m : Module) : List (Option DebugGroup) :=
  m.debug.map fun h => (m.kindOf h).debugGroup?

def DebugOrdered (m : Module) : Prop := DebugGroup.Arranged m.debugGroups

inductive DebugEdit where
  | setSource (language version : Word)
  | addSourceExtension (name : String)
  | setName (target : Handle) (name : String)

namespace DebugEdit

def run : DebugEdit → Edit Unit
  | setSource language version => Module.setSource language version
  | addSourceExtension name => Module.addSourceExtension name
  | setName target name => Module.setName target name

def names : DebugEdit → Bool
  | setName _ _ => true
  | _ => false

def runAll (m : Module) (edits : List DebugEdit) : Module :=
  edits.foldl (fun m e => (e.run m).2) m

end DebugEdit

theorem Puts.map_debugGroup? {i : Inst Handle} (hp : m.Puts i h m₁) (hm : none ∉ m.debugGroups) :
    m.debug.map (fun g => (m₁.kindOf g).debugGroup?) = m.debugGroups := by
  refine List.map_congr_left fun g hg => ?_
  have hne : g ≠ h := by
    rintro rfl
    refine hm (List.mem_map.2 ⟨g, hg, ?_⟩)
    rw [kindOf, hp.handle, inst_nextHandle]
    rfl
  rw [kindOf, hp.inst_eq, if_neg hne]
  rfl

theorem Puts.debugGroups_insertSource {kind : Kind Handle} (hp : m.Puts (.plain kind) h m₁)
    (hkind : kind.debugGroup? = some .source) (hm : none ∉ m.debugGroups) :
    (insertSource h m₁).2.debugGroups = DebugGroup.insertSource m.debugGroups := by
  have hdebug : m₁.debug = m.debug := by
    obtain ⟨bound, ids, rfl⟩ := hp.frame
    rfl
  have hname (g : Handle) : (!(m₁.kindOf g).isName) =
      decide ((m₁.kindOf g).debugGroup? ≠ some DebugGroup.name) := by
    rw [Bool.eq_iff_iff, Bool.not_eq_true', ← Bool.not_eq_true, Kind.isName_iff,
      decide_eq_true_iff]
  have hh : (m₁.kindOf h).debugGroup? = some .source := by
    rw [kindOf, hp.inst_eq, if_pos rfl]
    exact hkind
  change (m₁.debug.takeWhile (fun g => !(m₁.kindOf g).isName) ++
    h :: m₁.debug.dropWhile (fun g => !(m₁.kindOf g).isName)).map
      (fun g => (m₁.kindOf g).debugGroup?) = _
  simp only [hname]
  rw [← hp.map_debugGroup? hm, DebugGroup.insertSource, List.takeWhile_map, List.dropWhile_map,
    List.map_append, List.map_cons, hh, hdebug]
  rfl

theorem debugGroups_setKind {kind : Kind Handle}
    (hkind : kind.debugGroup? = (m.kindOf h).debugGroup?) :
    (setKind h kind m).2.debugGroups = m.debugGroups := by
  refine List.map_congr_left fun g _ => ?_
  rw [kindOf_setKind]
  split
  next heq => rw [← heq.1, hkind]
  · rfl

/-- What a change makes of the groups: it leaves them, puts a source statement in front of the
first name, or puts a name at the end. -/
theorem DebugEdit.debugGroups_run (e : DebugEdit) (hm : none ∉ m.debugGroups) :
    e.names = false ∧ ((e.run m).2.debugGroups = m.debugGroups ∨
        (e.run m).2.debugGroups = DebugGroup.insertSource m.debugGroups) ∨
      e.names = true ∧ (e.run m).2.debugGroups = m.debugGroups ++ [some .name] := by
  cases e with
  | setSource language version =>
      refine .inl ⟨rfl, ?_⟩
      obtain ⟨h, hfind, heq⟩ | ⟨-, h, m₁, hstored, heq⟩ := setSource_cases
        (show Module.setSource language version m =
          (_, (run (.setSource language version) m).2) from rfl)
      · rw [heq]
        exact .inl (debugGroups_setKind
          (Kind.debugGroup?_of_isSource (findKind?_eq_some hfind).2).symm)
      · rw [heq]
        exact .inr ((puts_append rfl hstored).debugGroups_insertSource rfl hm)
  | addSourceExtension name =>
      refine .inl ⟨rfl, ?_⟩
      obtain ⟨-, heq⟩ | ⟨-, h, m₁, hstored, heq⟩ := addSourceExtension_cases
        (show Module.addSourceExtension name m =
          (_, (run (.addSourceExtension name) m).2) from rfl)
      · rw [heq]
        exact .inl rfl
      · rw [heq]
        exact .inr ((puts_append rfl hstored).debugGroups_insertSource rfl hm)
  | setName target name =>
      refine .inr ⟨rfl, ?_⟩
      obtain ⟨h, m₁, hstored⟩ : ∃ h m₁, append (.plain (.debugName target name)) m = (h, m₁) :=
        ⟨_, _, rfl⟩
      have hp : m.Puts (.plain (.debugName target name)) h m₁ := puts_append rfl hstored
      have hrun : (run (.setName target name) m).2 = { m₁ with debug := m₁.debug ++ [h] } := by
        simp only [run, Module.setName, bind, StateT.bind, hstored]
        rfl
      have hdebug : m₁.debug = m.debug := by
        obtain ⟨bound, ids, rfl⟩ := hp.frame
        rfl
      have hh : (m₁.kindOf h).debugGroup? = some .name := by
        rw [kindOf, hp.inst_eq, if_pos rfl]
        rfl
      rw [hrun, ← hp.map_debugGroup? hm, ← hdebug, ← hh]
      exact List.map_append

theorem length_debugGroups (m : Module) : m.debugGroups.length = m.debug.length :=
  List.length_map _

theorem DebugEdit.sublist_run (e : DebugEdit) (hm : none ∉ m.debugGroups) :
    m.debugGroups.Sublist (e.run m).2.debugGroups ∧ none ∉ (e.run m).2.debugGroups := by
  obtain ⟨-, heq | heq⟩ | ⟨-, heq⟩ := e.debugGroups_run hm
  · rw [heq]
    exact ⟨.refl _, hm⟩
  · rw [heq, DebugGroup.mem_insertSource]
    exact ⟨DebugGroup.sublist_insertSource _, by simpa using hm⟩
  · rw [heq, List.mem_append]
    exact ⟨List.sublist_append_left _ _, by simpa using hm⟩

theorem DebugEdit.sublist_runAll (edits : List DebugEdit) (hm : none ∉ m.debugGroups) :
    m.debugGroups.Sublist (runAll m edits).debugGroups := by
  induction edits generalizing m with
  | nil => exact .refl _
  | cons e edits ih =>
      obtain ⟨hsub, hkept⟩ := e.sublist_run hm
      exact hsub.trans (ih hkept)

/-- Once something else stands behind what is about processing, it does so forever. -/
theorem DebugEdit.debugOrdered_of_runAll {edits : List DebugEdit} (hm : none ∉ m.debugGroups)
    (hrun : (runAll m edits).DebugOrdered) : m.DebugOrdered :=
  hrun.sublist (sublist_runAll edits hm)

theorem DebugEdit.length_le_runAll (edits : List DebugEdit) (hm : none ∉ m.debugGroups) :
    m.debug.length ≤ (runAll m edits).debug.length := by
  rw [← length_debugGroups, ← length_debugGroups]
  exact (sublist_runAll edits hm).length_le

theorem DebugEdit.names_of_length {edits : List DebugEdit} (hm : none ∉ m.debugGroups)
    (hlength : (runAll m edits).debug.length = m.debug.length) :
    ∀ e ∈ edits, e.names = false := by
  induction edits generalizing m with
  | nil => simp
  | cons e edits ih =>
      obtain ⟨hsub, hkept⟩ := e.sublist_run hm
      have hle := length_le_runAll edits hkept
      have hstep : (e.run m).2.debug.length ≤ m.debug.length := hle.trans_eq hlength
      rw [List.forall_mem_cons]
      obtain ⟨hname, -⟩ | ⟨-, heq⟩ := e.debugGroups_run hm
      · have hge := hsub.length_le
        rw [length_debugGroups, length_debugGroups] at hge
        exact ⟨hname, ih hkept (hlength.trans (Nat.le_antisymm hge hstep))⟩
      · have hlonger := congrArg List.length heq
        rw [List.length_append, length_debugGroups, length_debugGroups, List.length_singleton]
          at hlonger
        omega

/-- Whatever is stated about the source and named, in whatever order: a debug section that is
in order stays so exactly if nothing is there about processing, or nothing is added, or no name
is added and one is there already. -/
theorem debugOrdered_runAll_iff (hm : m.DebugOrdered) (edits : List DebugEdit) :
    (DebugEdit.runAll m edits).DebugOrdered ↔ some .processed ∉ m.debugGroups ∨
      (DebugEdit.runAll m edits).debug.length = m.debug.length ∨
      some .name ∈ m.debugGroups ∧ ∀ e ∈ edits, e.names = false := by
  induction edits generalizing m with
  | nil => exact iff_of_true hm (.inr (.inl rfl))
  | cons e edits ih =>
      have hgroups := DebugGroup.Arranged.none_notMem hm
      obtain ⟨-, hkept⟩ := e.sublist_run hgroups
      have hle := DebugEdit.length_le_runAll edits hkept
      have hlast (hrun : (DebugEdit.runAll (e.run m).2 edits).DebugOrdered) :
        (e.run m).2.DebugOrdered :=
        DebugEdit.debugOrdered_of_runAll hkept hrun
      change (DebugEdit.runAll (e.run m).2 edits).DebugOrdered ↔ _ ∨
        (DebugEdit.runAll (e.run m).2 edits).debug.length = _ ∨ _
      rw [List.forall_mem_cons]
      -- A step that adds something out of order decides the matter; otherwise the rest does.
      obtain ⟨hname, heq | heq⟩ | ⟨hname, heq⟩ := e.debugGroups_run hgroups
      · have hfirst : (e.run m).2.DebugOrdered := by rwa [DebugOrdered, heq]
        have hlength := congrArg List.length heq
        rw [length_debugGroups, length_debugGroups] at hlength
        rw [ih hfirst, heq, hlength, hname]
        simp
      · have hlonger := congrArg List.length heq
        rw [DebugGroup.length_insertSource, length_debugGroups, length_debugGroups] at hlonger
        have hfirst : (e.run m).2.DebugOrdered ↔ some .processed ∉ m.debugGroups ∨
            some .name ∈ m.debugGroups := by
          rw [DebugOrdered, heq]
          exact DebugGroup.Arranged.insertSource_iff hm
        by_cases hin : (e.run m).2.DebugOrdered
        · have hnames (hlength : (DebugEdit.runAll (e.run m).2 edits).debug.length =
              (e.run m).2.debug.length) := DebugEdit.names_of_length hkept hlength
          rw [ih hin, heq, DebugGroup.mem_insertSource, DebugGroup.mem_insertSource]
          grind
        · grind
      · have hlonger := congrArg List.length heq
        rw [List.length_append, List.length_singleton, length_debugGroups,
          length_debugGroups] at hlonger
        have hfirst : (e.run m).2.DebugOrdered ↔ some .processed ∉ m.debugGroups := by
          rw [DebugOrdered, heq]
          exact DebugGroup.Arranged.concat_name_iff hm
        by_cases hin : (e.run m).2.DebugOrdered
        · refine iff_of_true ((ih hin).2 (.inl ?_)) (.inl (hfirst.1 hin))
          rw [heq]
          simpa using hfirst.1 hin
        · grind

def processedSource : List Word :=
  [Stream.magic, 0x10000, 0, 3, 0, 0x30007, 1, 0x61, 0x30003, 0, 100, 0x30005, 2, 0x66,
    0x2014a, 0x70, 0x20013, 2]

theorem debugOrdered_runAll_iff_processedSource : ∃ m, decode processedSource = .ok m ∧
    m.DebugOrdered ∧ some .processed ∈ m.debugGroups ∧
    (DebugEdit.runAll m [.setSource 2 450,
      .addSourceExtension "GL_GOOGLE_include_directive"]).DebugOrdered ∧
    ¬(DebugEdit.runAll m [.setSource 2 450, .setName ⟨0⟩ "file"]).DebugOrdered := by
  have hread : (decode processedSource).toOption.map (fun m => (m.debugGroups, m.debug.length,
      (DebugEdit.runAll m [.setSource 2 450, .setName ⟨0⟩ "file"]).debug.length)) =
        some ([some .source, some .source, some .name, some .processed], 4, 5) := by
    decide +kernel
  obtain ⟨m, hdecode, hread⟩ := exists_of_map_toOption hread
  obtain ⟨hgroups, hlength, hlonger⟩ := by simpa only [Prod.mk.injEq] using hread
  have hm : m.DebugOrdered := ⟨2, 1, 1, hgroups⟩
  refine ⟨m, hdecode, hm, by simp [hgroups], ?_, ?_⟩
  · rw [debugOrdered_runAll_iff hm, hgroups]
    exact .inr (.inr ⟨by simp, by simp [DebugEdit.names]⟩)
  · rw [debugOrdered_runAll_iff hm, hgroups, hlength, hlonger]
    simp [DebugEdit.names]

def processedOnly : List Word := [Stream.magic, 0x10000, 0, 2, 0, 0x2014a, 0x70, 0x20013, 1]

/-- A name stands behind the statement about processing. -/
theorem not_debugOrdered_processedOnly : ¬∀ (w : List Word) (m : Module), decode w = .ok m →
    m.DebugOrdered → ∀ edits, (DebugEdit.runAll m edits).DebugOrdered := by
  intro hall
  have hread : (decode processedOnly).toOption.map (fun m => (m.debugGroups,
      (DebugEdit.runAll m [.setName ⟨1⟩ "f"]).debugGroups)) =
        some ([some .processed], [some .processed, some .name]) := by
    decide +kernel
  obtain ⟨m, hdecode, hread⟩ := exists_of_map_toOption hread
  obtain ⟨hgroups, hnamed⟩ := by simpa only [Prod.mk.injEq] using hread
  have hordered := hall _ m hdecode ⟨0, 0, 1, hgroups⟩ [.setName ⟨1⟩ "f"]
  rw [DebugOrdered, hnamed] at hordered
  exact nomatch hordered.eq_processed

end Module

end KernelGrid
