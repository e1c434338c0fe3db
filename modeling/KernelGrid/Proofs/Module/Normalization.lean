import KernelGrid.Module.Pass
import KernelGrid.Proofs.Module.Changes

/-!
# Normalization

After its first round normalization changes nothing any more: globals have been moved out of
function storage, and every repeated decoration has been dropped.
-/

/-! ## Kinds -/

namespace KernelGrid.Kind

variable {ρ : Type} {k : Kind ρ} {storage : StorageClass}

@[simp] theorem opcode_withStorage : (k.withStorage storage).opcode = k.opcode := by
  cases k <;> rfl

@[simp] theorem references_withStorage : (k.withStorage storage).references = k.references := by
  cases k <;> simp [withStorage, references, operands, List.filterMap_cons]

@[simp] theorem isType_withStorage : (k.withStorage storage).isType = k.isType := by
  cases k <;> rfl

@[simp] theorem isConstant_withStorage : (k.withStorage storage).isConstant = k.isConstant := by
  cases k <;> rfl

@[simp] theorem isStruct_withStorage : (k.withStorage storage).isStruct = k.isStruct := by
  cases k <;> rfl

theorem storage?_withStorage :
    (k.withStorage storage).storage? = k.storage?.map fun _ => storage := by
  cases k <;> rfl

theorem genuine_withStorage : (k.withStorage storage).Genuine ↔ k.Genuine := by
  cases k <;> exact Iff.rfl

theorem withStorage_eq_raw {op : Opcode} {words : List Word} :
    k.withStorage storage = raw op words ↔ k = raw op words := by
  cases k <;> simp [withStorage]

theorem mem_operands_withStorage {s : String} :
    .string s ∈ (k.withStorage storage).operands ↔ .string s ∈ k.operands := by
  cases k <;> simp [withStorage, operands, Enumerant.operand]

end KernelGrid.Kind

namespace KernelGrid.Module

variable {m m' : Module} {h : Handle}

/-! ## Repeated decorations -/

theorem map_eraseDupsBy {α β : Type} [DecidableEq β] (f : α → β) (xs : List α) :
    (xs.eraseDupsBy fun a b => f a = f b).map f = (xs.map f).eraseDups := by
  match xs with
  | [] => rfl
  | x :: xs =>
      rw [List.eraseDupsBy_cons, List.map_cons, List.map_cons, List.eraseDups_cons,
        List.filter_map, map_eraseDupsBy f]
      simp [Function.comp_def, beq_eq_decide]
termination_by xs.length
decreasing_by exact Nat.lt_succ_of_le (List.length_filter_le _ _)

theorem eraseDupsBy_sublist {α : Type} (r : α → α → Bool) (xs : List α) :
    (xs.eraseDupsBy r).Sublist xs := by
  match xs with
  | [] => exact .slnil
  | x :: xs =>
      rw [List.eraseDupsBy_cons]
      exact .cons_cons x ((eraseDupsBy_sublist r _).trans List.filter_sublist)
termination_by xs.length
decreasing_by exact Nat.lt_succ_of_le (List.length_filter_le _ _)

theorem eraseDupsBy_congr {α : Type} {r r' : α → α → Bool} {xs : List α}
    (hr : ∀ a ∈ xs, ∀ b ∈ xs, r' a b = r a b) : xs.eraseDupsBy r' = xs.eraseDupsBy r := by
  match xs with
  | [] => rfl
  | x :: xs =>
      have hfilter : xs.filter (fun b => r' b x = false) = xs.filter fun b => r b x = false :=
        List.filter_congr fun b hb => by
          rw [hr b (List.mem_cons_of_mem _ hb) x List.mem_cons_self]
      rw [List.eraseDupsBy_cons, List.eraseDupsBy_cons, hfilter]
      refine congrArg (x :: ·) (eraseDupsBy_congr fun a ha b hb => hr a ?_ b ?_)
      · exact List.mem_cons_of_mem _ (List.mem_of_mem_filter ha)
      · exact List.mem_cons_of_mem _ (List.mem_of_mem_filter hb)
termination_by xs.length
decreasing_by exact Nat.lt_succ_of_le (List.length_filter_le _ _)

theorem eraseDupsBy_eq_self {α β : Type} [DecidableEq β] {f : α → β} {xs : List α}
    (hxs : (xs.map f).Nodup) : (xs.eraseDupsBy fun a b => f a = f b) = xs := by
  induction xs with
  | nil => rfl
  | cons x xs ih =>
      rw [List.map_cons, List.nodup_cons] at hxs
      have hkept : (xs.filter fun y => decide (f y = f x) = false) = xs := by
        rw [List.filter_eq_self]
        intro y hy
        have hne : f y ≠ f x := fun heq => hxs.1 (heq ▸ List.mem_map_of_mem hy)
        simp [hne]
      rw [List.eraseDupsBy_cons, hkept, ih hxs.2]

theorem annotations_consolidate (m : Module) :
    m.consolidate.annotations.map m.inst = (m.annotations.map m.inst).eraseDups :=
  map_eraseDupsBy m.inst m.annotations

theorem handles_consolidate (s : Section) (m : Module) :
    (s.handles m.consolidate).Sublist (s.handles m) := by
  cases s
  case annotations => exact eraseDupsBy_sublist _ _
  all_goals exact List.Sublist.refl _

theorem listed_consolidate (m : Module) : m.consolidate.listed.Sublist m.listed := by
  rw [listed_eq, listed_eq]
  simp only [List.flatMap_cons, List.flatMap_nil, List.append_nil]
  exact ((handles_consolidate _ m).append ((handles_consolidate _ m).append
    ((handles_consolidate _ m).append ((handles_consolidate _ m).append
    ((handles_consolidate _ m).append ((handles_consolidate _ m).append
    ((handles_consolidate _ m).append (handles_consolidate _ m)))))))).append (.refl _)

/-- What has an id repeats nothing, so it is kept. -/
theorem mem_listed_consolidate (hm : m.Numbered) (hh : h ∈ m.listed)
    (hid : (m.inst h).resultId.isSome) : h ∈ m.consolidate.listed := by
  obtain ⟨id, hid⟩ := Option.isSome_iff_exists.1 hid
  obtain ⟨s, hs⟩ | hf := mem_listed.1 hh
  · refine mem_listed.2 (.inl ⟨s, ?_⟩)
    cases s
    case annotations =>
      have hs : h ∈ m.annotations := hs
      have hmem := List.mem_eraseDups.2 (List.mem_map_of_mem (f := m.inst) hs)
      rw [← annotations_consolidate, List.mem_map] at hmem
      obtain ⟨g, hg, heq⟩ := hmem
      rwa [← hm.unique g h id (heq ▸ hid) hid]
    all_goals exact hs
  · exact mem_listed.2 (.inr hf)

theorem Sound.consolidate (hm : m.Sound) : m.Grows m.consolidate := by
  have hsub := (listed_consolidate m).subset
  have husable (g : Handle) (hg : m.Usable g) : m.consolidate.Usable g :=
    ⟨hg.isSome, fun hle =>
      mem_listed_consolidate (hm.numbered hle) (hg.listed hle) hg.isSome⟩
  refine ⟨⟨hm.bound_pos, fun hle => ?_, hm.nodup.sublist (listed_consolidate m),
    fun h hh => hm.writable h (hsub hh), ?_, ?_, hm.functions, hm.bodies, hm.entryNames, ?_,
    hm.sized, ?_⟩, husable⟩
  · exact ⟨(hm.numbered hle).below, (hm.numbered hle).unique⟩
  · exact fun h r hr => husable r (hm.references h r hr)
  · exact fun s h hh => hm.sections s h ((handles_consolidate s m).subset hh)
  · exact fun e he r hr => husable r (hm.entryReferences e he r hr)
  · exact fun d h hh => (hm.interned d h hh).imp_left (husable h)

/-! ## Storage classes -/

theorem makeUniform_cases (i : Inst Handle) :
    i.kind.storage? ≠ some .function ∧ makeUniform i = i ∨
      i.kind.storage? = some .function ∧
        makeUniform i = { i with kind := i.kind.withStorage .uniform } := by
  unfold makeUniform
  split
  · rename_i hstorage
    exact .inr ⟨hstorage, rfl⟩
  · rename_i hstorage
    exact .inl ⟨hstorage, rfl⟩

theorem kind_makeUniform {α : Type} {f : Kind Handle → α}
    (hf : ∀ k : Kind Handle, f (k.withStorage .uniform) = f k) (i : Inst Handle) :
    f (makeUniform i).kind = f i.kind := by
  obtain ⟨-, heq⟩ | ⟨-, heq⟩ := makeUniform_cases i
  · rw [heq]
  · rw [heq, hf]

theorem storage?_makeUniform (i : Inst Handle) :
    (makeUniform i).kind.storage? ≠ some .function := by
  obtain ⟨hstorage, heq⟩ | ⟨hstorage, heq⟩ := makeUniform_cases i
  · rwa [heq]
  · rw [heq, Kind.storage?_withStorage, hstorage]
    decide

theorem makeUniform_makeUniform (i : Inst Handle) :
    makeUniform (makeUniform i) = makeUniform i := by
  obtain ⟨-, heq⟩ | ⟨hstorage, -⟩ := makeUniform_cases (makeUniform i)
  · exact heq
  · exact absurd hstorage (storage?_makeUniform i)

theorem replaces_makeUniform (i : Inst Handle) : Replaces i (makeUniform i) := by
  obtain ⟨-, heq⟩ | ⟨-, heq⟩ := makeUniform_cases i
  · rw [heq]
    exact .refl i
  · rw [heq]
    have hop : Inst.opcode { i with kind := i.kind.withStorage .uniform } = i.opcode := by
      rw [Inst.opcode, Inst.opcode, Kind.opcode_withStorage]
    refine ⟨rfl, hop, ?_, fun hi => ⟨?_, ?_, ?_⟩⟩
    · intro r hr
      rw [Inst.mem_references] at hr ⊢
      rwa [Kind.references_withStorage] at hr
    · exact Kind.genuine_withStorage.2 hi.genuine
    · have hlayout := hi.layout
      unfold Inst.HasLayout at hlayout ⊢
      rw [hop]
      revert hlayout
      cases i.opcode.layout <;> simp [Inst.Suits, Kind.withStorage_eq_raw]
    · intro s hs
      exact hi.strings s (Kind.mem_operands_withStorage.1 hs)

theorem inst_foldl_makeUniform (hs : List Handle) (m : Module) (g : Handle) :
    ({ m with insts := hs.foldl (fun insts h => insts.modify h makeUniform) m.insts } :
      Module).inst g = if g ∈ hs then makeUniform (m.inst g) else m.inst g := by
  induction hs generalizing m with
  | nil => rfl
  | cons h hs ih =>
      have hmodify : ({ m with insts := m.insts.modify h makeUniform } : Module).inst g =
          if h = g then makeUniform (m.inst g) else m.inst g := by
        rw [inst_modify]
        by_cases heq : h = g
        · by_cases hg : (m.insts.get? g).isSome
          · rw [if_pos ⟨heq, hg⟩, if_pos heq]
          · rw [if_neg (fun hand => hg hand.2), if_pos heq, inst,
              Option.not_isSome_iff_eq_none.1 hg]
            rfl
        · rw [if_neg (fun hand => heq hand.1), if_neg heq]
      have hrest := ih { m with insts := m.insts.modify h makeUniform }
      rw [List.foldl_cons]
      refine hrest.trans ?_
      rw [hmodify]
      by_cases heq : h = g
      · subst heq
        rw [if_pos rfl, if_pos List.mem_cons_self, makeUniform_makeUniform, ite_self]
      · simp only [if_neg heq, List.mem_cons, Ne.symm heq, false_or]

theorem normalizeStorage_cases (m : Module) :
    (m.globals.any m.isInFunctionStorage = false ∧ m.normalizeStorage = (false, m)) ∨
      ∃ insts, m.normalizeStorage = (true, reintern { m with insts }) ∧
        ∀ g, ({ m with insts } : Module).inst g =
          if g ∈ m.globals then makeUniform (m.inst g) else m.inst g := by
  unfold normalizeStorage
  split
  · exact .inr ⟨_, rfl, inst_foldl_makeUniform m.globals m⟩
  · rename_i hany
    exact .inl ⟨Bool.eq_false_iff.2 hany, rfl⟩

theorem Sound.normalizeStorage (hm : m.Sound) : m.Grows m.normalizeStorage.2 := by
  obtain ⟨-, heq⟩ | ⟨insts, heq, hinst⟩ := m.normalizeStorage_cases
  · rw [heq]
    exact hm.refl
  · rw [heq]
    have hreplaces (g : Handle) : Replaces (m.inst g) (({ m with insts } : Module).inst g) := by
      rw [hinst]
      split
      · exact replaces_makeUniform _
      · exact .refl _
    refine hm.change (UInt32.le_refl _) hreplaces (fun _ => .inl) hm.sized ?_
    intro d h hh
    obtain ⟨hglobal, hd⟩ := interned_reintern hh
    have hlisted : h ∈ m.listed := mem_listed.2 (.inl ⟨.globals, hglobal⟩)
    have hid := ((hreplaces h).writable (hm.writable h hlisted)).isSome_of_description? hd
    rw [(hreplaces h).resultId] at hid
    exact ⟨⟨hid, fun _ => hlisted⟩, hd⟩

/-! ## Rounds -/

theorem normalizeStorage_of_normalized (m : Module) :
    m.normalizeStorage.2.consolidate.normalizeStorage =
      (false, m.normalizeStorage.2.consolidate) := by
  have hany : m.normalizeStorage.2.consolidate.globals.any
      m.normalizeStorage.2.consolidate.isInFunctionStorage = false := by
    obtain ⟨hany, heq⟩ | ⟨insts, heq, hinst⟩ := m.normalizeStorage_cases
    · rw [heq]
      exact hany
    · rw [heq, List.any_eq_false]
      intro h hh
      have hmade := hinst h
      rw [if_pos (show h ∈ m.globals from hh)] at hmade
      have hstorage := storage?_makeUniform (m.inst h)
      rw [← hmade] at hstorage
      exact fun hfunction => hstorage (of_decide_eq_true hfunction)
  rw [normalizeStorage, hany]
  rfl

theorem consolidate_consolidate (m : Module) : m.consolidate.consolidate = m.consolidate := by
  have hself : (m.consolidate.annotations.eraseDupsBy fun a b => m.inst a = m.inst b) =
      m.consolidate.annotations := by
    apply eraseDupsBy_eq_self
    rw [annotations_consolidate]
    exact nodup_eraseDups _
  exact congrArg (fun annotations => { m with annotations }) hself

theorem runRound_normalization (n : Nat) (m : Module) :
    Pass.runRound Pass.normalization n m =
      ((if m.normalizeStorage.1 then [⟨.storageClass, n⟩] else []) ++
        (if m.normalizeStorage.2.consolidate.annotations.length ≠
          m.normalizeStorage.2.annotations.length then [⟨.consolidation, n⟩] else []),
        m.normalizeStorage.2.consolidate) := by
  rcases hstorage : m.normalizeStorage with ⟨changed, m₁⟩
  by_cases hlength : m₁.consolidate.annotations.length = m₁.annotations.length <;>
    cases changed <;>
    simp [Pass.runRound, Pass.normalization, Pass.run, hstorage, hlength]

theorem normalize_eq (m : Module) : m.normalize.2 = m.normalizeStorage.2.consolidate := by
  have hsecond (rounds n : Nat) :
      (Pass.repeatRounds Pass.normalization (rounds + 1) n m.normalizeStorage.2.consolidate).2 =
        m.normalizeStorage.2.consolidate := by
    rw [Pass.repeatRounds, runRound_normalization, normalizeStorage_of_normalized]
    simp [consolidate_consolidate]
  rw [normalize, Pass.runAll, Pass.maxRounds, Pass.repeatRounds, runRound_normalization]
  split
  · rename_i heq
    rw [(Prod.mk.inj heq).2]
  · rename_i heq
    rw [← (Prod.mk.inj heq).2]
    exact hsecond 8 _

theorem Sound.normalize (hm : m.Sound) : m.Grows m.normalize.2 := by
  rw [normalize_eq]
  exact hm.normalizeStorage.trans hm.normalizeStorage.sound.consolidate

end KernelGrid.Module
