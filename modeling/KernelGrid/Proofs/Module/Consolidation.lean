import KernelGrid.Proofs.Module.Annotations
import KernelGrid.Proofs.Module.FixedPoints
import Mathlib.Data.List.Induction

/-!
# Consolidation

Of equal annotations the first one is kept.  Whoever asks for decorations is told the same as
before, apart from repetitions, and nothing that is decided by decorations changes.
-/

namespace KernelGrid

/-! ## First occurrences -/

section

variable {α β γ : Type} [DecidableEq β] {f : α → β} {g : β → Option γ} {xs : List α}

def firsts (f : α → β) (xs : List α) : List α :=
  (xs.zipIdx.filter fun (x, i) => f x ∉ (xs.take i).map f).map Prod.fst

theorem firsts_concat (f : α → β) (xs : List α) (x : α) :
    firsts f (xs ++ [x]) = if f x ∈ xs.map f then firsts f xs else firsts f xs ++ [x] := by
  have hfront : (xs.zipIdx.filter fun (y, i) => f y ∉ ((xs ++ [x]).take i).map f) =
      xs.zipIdx.filter fun (y, i) => f y ∉ (xs.take i).map f := by
    refine List.filter_congr fun (y, i) hy => ?_
    have hi : i ≤ xs.length := Nat.le_of_lt (List.snd_lt_of_mem_zipIdx hy)
    simp only [List.take_append_of_le_length hi]
  rw [firsts, List.zipIdx_append, List.filter_append, List.map_append, hfront, ← firsts]
  by_cases hx : f x ∈ xs.map f <;> simp [hx]

/-- A last one is kept if its content is new. -/
theorem eraseDupsBy_concat (f : α → β) (xs : List α) (x : α) :
    ((xs ++ [x]).eraseDupsBy fun a b => f a = f b) =
      if f x ∈ xs.map f then xs.eraseDupsBy fun a b => f a = f b
      else (xs.eraseDupsBy fun a b => f a = f b) ++ [x] := by
  match xs with
  | [] => simp [List.eraseDupsBy_cons]
  | y :: xs =>
      rw [List.cons_append, List.eraseDupsBy_cons, List.eraseDupsBy_cons, List.filter_append]
      by_cases hxy : f x = f y
      · simp [hxy]
      · have hrest := eraseDupsBy_concat f (xs.filter fun b => decide (f b = f y) = false) x
        have hmem : f x ∈ (xs.filter fun b => decide (f b = f y) = false).map f ↔
            f x ∈ (y :: xs).map f := by
          simp only [List.mem_map, List.mem_filter, List.mem_cons]
          grind
        have hlast : [x].filter (fun b => decide (f b = f y) = false) = [x] := by simp [hxy]
        rw [hlast, hrest, apply_ite (List.cons y)]
        exact if_congr hmem rfl rfl
termination_by xs.length
decreasing_by exact Nat.lt_succ_of_le (List.length_filter_le _ _)

theorem eraseDupsBy_eq_firsts (f : α → β) (xs : List α) :
    (xs.eraseDupsBy fun a b => f a = f b) = firsts f xs := by
  induction xs using List.reverseRecOn with
  | nil => rfl
  | append_singleton xs x ih => rw [eraseDupsBy_concat, firsts_concat, ih]

/-- What is read of the first occurrences are the first occurrences of what is read, if nothing
is read of two different contents. -/
theorem filterMap_firsts [DecidableEq γ]
    (hg : ∀ x ∈ xs, ∀ y ∈ xs, ∀ c, g (f x) = some c → g (f y) = some c → f x = f y) :
    (firsts f xs).filterMap (g ∘ f) = firsts id (xs.filterMap (g ∘ f)) := by
  induction xs using List.reverseRecOn with
  | nil => rfl
  | append_singleton xs x ih =>
      have hfront := ih fun a ha b hb =>
        hg a (List.mem_append_left _ ha) b (List.mem_append_left _ hb)
      rw [firsts_concat, List.filterMap_append]
      cases hx : g (f x) with
      | none =>
          have hlast : [x].filterMap (g ∘ f) = [] := by simp [hx]
          rw [hlast, List.append_nil]
          split
          · exact hfront
          · rw [List.filterMap_append, hfront, hlast, List.append_nil]
      | some c =>
          -- what is read of the last one has been read before exactly if its content has been
          -- there
          have hmem : c ∈ (xs.filterMap (g ∘ f)).map id ↔ f x ∈ xs.map f := by
            simp only [List.map_id, List.mem_filterMap, List.mem_map, Function.comp_apply]
            refine exists_congr fun y => and_congr_right fun hy =>
              ⟨fun hc => ?_, fun heq => heq ▸ hx⟩
            exact hg y (List.mem_append_left _ hy) x (by simp) c hc hx
          have hlast : [x].filterMap (g ∘ f) = [c] := by simp [hx]
          rw [hlast, firsts_concat, id, if_congr hmem rfl rfl]
          split
          · exact hfront
          · rw [List.filterMap_append, hfront, hlast]

end

theorem Kind.layout_of_decorated? {ρ : Type} {k : Kind ρ} (hk : k.decorated?.isSome) :
    k.opcode.layout = .plain := by
  cases k
  case decorate => exact Form.layout_opcode .decorate
  case memberDecorate => exact Form.layout_opcode .memberDecorate
  all_goals cases hk

namespace Module

variable {m : Module}

theorem annotations_consolidate_eq (m : Module) :
    m.consolidate.annotations = firsts m.inst m.annotations :=
      eraseDupsBy_eq_firsts m.inst m.annotations

/-- Whether nothing but its kind belongs to a decoration: it has no type and no id. -/
def PlainDecorations (m : Module) : Prop :=
  ∀ h ∈ m.annotations, (m.kindOf h).decorated?.isSome → m.inst h = .plain (m.kindOf h)

instance (m : Module) : Decidable m.PlainDecorations :=
  inferInstanceAs (Decidable (∀ h ∈ m.annotations, _))

theorem plainDecorations_of_decode {w : List Word} (hdecode : decode w = .ok m) :
    m.PlainDecorations := by
  obtain ⟨_, _, _, _, _, -, -, _, _, _, -, hD⟩ := exists_decoded hdecode
  intro h hh hdecorated
  have hlayout := (hD.readable_wire (mem_listed.2 (.inl ⟨.annotations, hh⟩))).layout
  have hop : (m.wire h).opcode.layout = .plain := by
    rw [show (m.wire h).opcode = (m.kindOf h).opcode from Inst.opcode_map _ _]
    exact Kind.layout_of_decorated? hdecorated
  rw [Inst.HasLayout, hop] at hlayout
  rw [Inst.plain, ← Option.map_eq_none_iff.1 hlayout.1,
    ← show (m.inst h).resultId = none from hlayout.2]
  rfl

theorem PlainDecorations.annotate (hm : m.PlainDecorations) (k : Kind Handle) :
    (annotate k m).2.PlainDecorations := by
  rw [annotate_eq]
  intro h hh hdecorated
  cases hget : m.insts.get? h with
  | none =>
      simp only [inst, kindOf, get?_annotated, hget, Option.none_or]
      cases [k][h.index - m.insts.size]? <;> rfl
  | some i =>
      have hinst : (m.annotated [k]).inst h = m.inst h := by
        rw [inst, get?_annotated_of_some hget, inst, hget]
      rw [kindOf, hinst] at hdecorated ⊢
      refine hm h ((List.mem_append.1 hh).resolve_right fun hnew => ?_) hdecorated
      have hnew : h = m.insts.nextHandle := List.mem_singleton.1 hnew
      rw [hnew, Arena.get?_nextHandle] at hget
      cases hget

/-! ## Asking -/

theorem filterMap_notes_consolidate {β : Type} [DecidableEq β] {g : Kind Handle → Option β}
    (hm : m.PlainDecorations) (hdecorated : ∀ k c, g k = some c → k.decorated?.isSome)
    (hinj : ∀ k k' c, g k = some c → g k' = some c → k = k') :
    m.consolidate.notes.filterMap g = firsts id (m.notes.filterMap g) := by
  have hread : ∀ x ∈ m.annotations, ∀ y ∈ m.annotations,
    ∀ c, (g ∘ Inst.kind) (m.inst x) = some c →
      (g ∘ Inst.kind) (m.inst y) = some c → m.inst x = m.inst y := by
    intro x hx y hy c hxc hyc
    rw [hm x hx (hdecorated _ _ hxc), hm y hy (hdecorated _ _ hyc)]
    exact congrArg Inst.plain (hinj _ _ c hxc hyc)
  have hall := filterMap_firsts hread
  rw [← annotations_consolidate_eq] at hall
  rw [notes, notes, List.filterMap_map, List.filterMap_map]
  exact hall

theorem decorations_consolidate (hm : m.PlainDecorations)
    (target : Handle) (decoration : Decoration) :
    m.consolidate.decorations target decoration =
      firsts id (m.decorations target decoration) := by
  rw [decorations_eq_notes, decorations_eq_notes]
  refine filterMap_notes_consolidate hm (fun k words hk => ?_) fun k k' words hk hk' => ?_
  · rw [Kind.wordsOn?_eq_some.1 hk]
    rfl
  · rw [Kind.wordsOn?_eq_some.1 hk, Kind.wordsOn?_eq_some.1 hk']

theorem memberDecorations_consolidate (hm : m.PlainDecorations) (target : Handle) (member : Word)
    (decoration : Decoration) : m.consolidate.memberDecorations target member decoration =
      firsts id (m.memberDecorations target member decoration) := by
  rw [memberDecorations_eq_notes, memberDecorations_eq_notes]
  refine filterMap_notes_consolidate hm (fun k words hk => ?_) fun k k' words hk hk' => ?_
  · rw [Kind.memberWordsOn?_eq_some.1 hk]
    rfl
  · rw [Kind.memberWordsOn?_eq_some.1 hk, Kind.memberWordsOn?_eq_some.1 hk']

theorem hasDecoration_consolidate (m : Module) (target : Handle) (decoration : Decoration) :
    m.consolidate.hasDecoration target decoration = m.hasDecoration target decoration := by
  rw [Bool.eq_iff_iff, hasDecoration_iff, hasDecoration_iff]
  exact exists_congr fun words => mem_notes_consolidate

/-! ## Checking -/

theorem globalFindings_consolidate (m : Module) (h : Handle) :
    m.consolidate.globalFindings h = m.globalFindings h := by
  have hplaced (block : Handle) (count : Word) :
      m.consolidate.placedMembers block count = m.placedMembers block count := by
    simp only [placedMembers, memberOffset?_eq_notes, findSome?_notes_consolidate]
  have hblock (block : Handle) (members : List Handle) :
      m.consolidate.blockFindings h block members = m.blockFindings h block members := by
    simp only [blockFindings, offsetFindings, hasDecoration_consolidate, hplaced]
    rfl
  simp only [globalFindings, hasDecoration_consolidate, hblock]
  rfl

theorem validate_consolidate (m : Module) : m.consolidate.validate = m.validate :=
  congrArg (_ ++ ·) (List.flatMap_congr fun h _ => m.globalFindings_consolidate h)

/-! ## Built-in values -/

theorem findBuiltIn?_consolidate (m : Module) (builtIn : Word) :
    m.consolidate.findBuiltIn? builtIn = m.findBuiltIn? builtIn := by
  refine findSome?_eraseDupsBy (fun g h heq => ?_) m.annotations
  simp only [kindOf, show m.consolidate.inst g = m.consolidate.inst h from heq]

def Overlooks {α : Type} (x : Edit α) : Prop := ∀ (m : Module) (annotations : List Handle),
  x { m with annotations } = ((x m).1, { (x m).2 with annotations })

namespace Overlooks

variable {α β : Type}

protected theorem pure (a : α) : Overlooks (pure a) := fun _ _ => rfl

protected theorem bind {x : Edit α} {f : α → Edit β} (hx : Overlooks x)
    (hf : ∀ a, Overlooks (f a)) : Overlooks (x >>= f) := by
  intro m annotations
  change f (x { m with annotations }).1 (x { m with annotations }).2 = _
  rw [hx m annotations]
  exact hf _ _ _

theorem append (i : Inst Handle) : Overlooks (append i) := by
  intro m annotations
  cases hid : i.resultId with
  | none =>
      rw [append_of_none hid, append_of_none hid]
  | some id =>
      rw [append_of_some hid, append_of_some hid]

theorem define (type : Option Handle) (kind : Kind Handle) : Overlooks (define type kind) :=
  .bind (fun _ _ => rfl) fun _ => append _

theorem intern (d : Description) : Overlooks (intern d) := by
  intro m annotations
  cases hlookup : m.interned.lookup d with
  | some h => rw [intern_of_some hlookup, intern_of_some (m := { m with annotations }) hlookup]
  | none =>
      rcases hstored : Module.define d.type d.kind m with ⟨h, m₁⟩
      have hstored' := define d.type d.kind m annotations
      rw [hstored] at hstored'
      rw [intern_of_none hlookup hstored,
        intern_of_none (m := { m with annotations }) hlookup hstored']
      rfl

theorem addGlobalVar (pointerType : Handle) (storage : StorageClass) :
    Overlooks (addGlobalVar pointerType storage) :=
  .bind (define _ _) fun _ => .bind (fun _ _ => rfl) fun _ => .pure _

theorem annotations_eq {x : Edit α} (hx : Overlooks x) (m : Module) :
    (x m).2.annotations = m.annotations := by
  conv_lhs => rw [hx m m.annotations]

end Overlooks

def inputTriple : Edit Handle := do
  let triple ← vectorType (← unsignedType 32) 3
  addGlobalVar (← pointerType .input triple) .input

theorem overlooks_inputTriple : Overlooks inputTriple :=
  .bind (.intern _) fun _ => .bind (.intern _) fun _ => .bind (.intern _) fun _ =>
    .addGlobalVar _ _

theorem builtInVar_of_some {builtIn : Word} {h : Handle}
    (hfind : m.findBuiltIn? builtIn = some h) : builtInVar builtIn m = (h, m) := by
  refine edit_bind.2 ⟨m, m, rfl, ?_⟩
  rw [hfind]
  rfl

theorem builtInVar_of_none {builtIn : Word} {h : Handle} {m' : Module}
    (hfind : m.findBuiltIn? builtIn = none) (hrun : inputTriple m = (h, m')) :
    builtInVar builtIn m = (h, m'.annotated [.decorate h .builtIn [builtIn]]) := by
  refine edit_bind.2 ⟨m, m, rfl, ?_⟩
  rw [hfind]
  obtain ⟨word, m₁, hword, hrun⟩ := edit_bind.1 hrun
  obtain ⟨triple, m₂, htriple, hrun⟩ := edit_bind.1 hrun
  obtain ⟨pointer, m₃, hpointer, hrun⟩ := edit_bind.1 hrun
  refine edit_bind.2 ⟨_, _, hword, edit_bind.2 ⟨_, _, htriple, edit_bind.2 ⟨_, _, hpointer,
    edit_bind.2 ⟨_, _, hrun, edit_bind.2 ⟨_, _, annotate_eq _ _, rfl⟩⟩⟩⟩⟩

theorem builtInVar_consolidate (builtIn : Word) (m : Module) : ∃ h m' hs,
    builtInVar builtIn m = (h, m') ∧ m'.annotations = m.annotations ++ hs ∧
      builtInVar builtIn m.consolidate =
        (h, { m' with annotations := m.consolidate.annotations ++ hs }) := by
  cases hfind : m.findBuiltIn? builtIn with
  | some h =>
      refine ⟨h, m, [], builtInVar_of_some hfind, (List.append_nil _).symm, ?_⟩
      rw [builtInVar_of_some (m.findBuiltIn?_consolidate builtIn ▸ hfind), List.append_nil]
      rfl
  | none =>
      rcases hrun : inputTriple m with ⟨h, m'⟩
      have hrun' := overlooks_inputTriple m m.consolidate.annotations
      have hkept := overlooks_inputTriple.annotations_eq m
      rw [hrun] at hrun' hkept
      refine ⟨h, _, [m'.insts.nextHandle], builtInVar_of_none hfind hrun, ?_, ?_⟩
      · exact congrArg (· ++ [m'.insts.nextHandle]) hkept
      · exact builtInVar_of_none ((m.findBuiltIn?_consolidate builtIn).trans hfind) hrun'

/-! ## Consolidation -/

/-- Whether the second module says with fewer annotations what the first one says: of equal
ones it keeps the first, and whoever asks is told the same apart from repetitions. -/
structure Condenses (m m' : Module) : Prop where
  others : ∃ annotations, m' = { m with annotations }
  annotations : m'.annotations = firsts m.inst m.annotations
  nodup : (m'.annotations.map m'.inst).Nodup
  decorations : ∀ target decoration,
    m'.decorations target decoration = firsts id (m.decorations target decoration)
  memberDecorations : ∀ target member decoration, m'.memberDecorations target member decoration =
    firsts id (m.memberDecorations target member decoration)
  hasDecoration : ∀ target decoration,
    m'.hasDecoration target decoration = m.hasDecoration target decoration
  builtInVar : ∀ builtIn, ∃ h p hs, Module.builtInVar builtIn m = (h, p) ∧
    p.annotations = m.annotations ++ hs ∧
      Module.builtInVar builtIn m' = (h, { p with annotations := m'.annotations ++ hs })
  findings : m'.validate = m.validate

theorem PlainDecorations.condenses (hm : m.PlainDecorations) : m.Condenses m.consolidate where
  others := ⟨_, rfl⟩
  annotations := m.annotations_consolidate_eq
  nodup := by
    have hnodup := nodup_eraseDups (m.annotations.map m.inst)
    rwa [← annotations_consolidate] at hnodup
  decorations := decorations_consolidate hm
  memberDecorations := memberDecorations_consolidate hm
  hasDecoration := m.hasDecoration_consolidate
  builtInVar builtIn := m.builtInVar_consolidate builtIn
  findings := m.validate_consolidate

/-- Decorations are read and made without type and id.  So consolidation is not seen by those
who ask for them, tells whether it leaves out anything, and leaves nothing to a second one. -/
theorem consolidation_condenses : (∀ w m, decode w = .ok m → m.PlainDecorations) ∧
    (∀ (m : Module) (k : Kind Handle), m.PlainDecorations → (annotate k m).2.PlainDecorations) ∧
    ∀ m : Module, m.PlainDecorations →
      m.Condenses (Pass.consolidation.run m).2 ∧
      ((Pass.consolidation.run m).1 ↔ (Pass.consolidation.run m).2.annotations ≠ m.annotations) ∧
      Pass.consolidation.run (Pass.consolidation.run m).2 =
      (false, (Pass.consolidation.run m).2) := by
  refine ⟨fun w m hdecode => plainDecorations_of_decode hdecode, fun m k hm => hm.annotate k,
    fun m hm => ⟨hm.condenses, ?_, Pass.run_eq_iff.2 (Pass.run_run _ m)⟩⟩
  have hsame : (Pass.consolidation.run m).2 = m ↔
      (Pass.consolidation.run m).2.annotations = m.annotations :=
    ⟨fun heq => by rw [heq], fun heq => congrArg (fun annotations => { m with annotations }) heq⟩
  rw [← Bool.not_eq_false, Pass.run_fst_eq_false]
  exact not_congr hsame

/-- A variable whose binding is given three times, the last time as the first. -/
def boundAgain : List Word :=
  [Stream.magic, 0x10000, 0, 4, 0, 0x40047, 3, 33, 0, 0x40047, 3, 33, 1, 0x40047, 3, 33, 0,
    0x40015, 1, 32, 0, 0x40020, 2, 2, 1, 0x4003b, 2, 3, 2]

theorem consolidation_condenses_boundAgain : ∃ m var, decode boundAgain = .ok m ∧
    m.byId? 3 = some var ∧ m.PlainDecorations ∧ m.Condenses (Pass.consolidation.run m).2 ∧
    m.decorations var .binding = [[0], [1], [0]] ∧
    (Pass.consolidation.run m).2.decorations var .binding = [[0], [1]] ∧
    (Pass.consolidation.run m).1 = true := by
  have hread : (decode boundAgain).toOption.map (fun m =>
      ((m.byId? 3).map fun var => m.decorations var .binding, (Pass.consolidation.run m).1)) =
        some (some [[0], [1], [0]], true) := by
    decide +kernel
  obtain ⟨m, hdecode, hall⟩ := exists_of_map_toOption hread
  obtain ⟨hvar, hchanged⟩ := Prod.mk.inj hall
  obtain ⟨var, hvar, hgiven⟩ := Option.map_eq_some_iff.1 hvar
  obtain ⟨hdecoded, -, hcondenses⟩ := consolidation_condenses
  have hm := hdecoded _ m hdecode
  obtain ⟨hcondenses, -, -⟩ := hcondenses m hm
  refine ⟨m, var, hdecode, hvar, hm, hcondenses, hgiven, ?_, hchanged⟩
  rw [hcondenses.decorations, hgiven]
  rfl

end Module

end KernelGrid
