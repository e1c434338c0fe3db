import KernelGrid.Module.Decorations
import KernelGrid.Proofs.Module.Identifiers

/-!
# Additions

What an edit adds to a module: it stores instructions behind those that are there, extends the
globals and the annotations at their ends, and decorates no variable that was there before.
-/

namespace KernelGrid

/-! ## Descriptions -/

namespace Description

/-- Whether a declaration with this type and kind is found under this description. -/
def Proper (d : Description) : Prop :=
  ∀ id, (⟨d.type, id, d.kind⟩ : Inst Handle).description? = some d

theorem proper_type {kind : Kind Handle} (hkind : kind.isType) : Proper ⟨none, kind⟩ := by
  intro id
  simp [Inst.description?, hkind]

theorem proper_constant {type : Handle} {kind : Kind Handle} (hkind : kind.isConstant) :
    Proper ⟨some type, kind⟩ := by
  intro id
  have htype : kind.isType = false := by
    cases kind
    case constant | constantComposite => rfl
    all_goals cases hkind
  simp [Inst.description?, hkind, htype]

end Description

theorem Inst.kind_of_description? {i : Inst Handle} {d : Description}
    (hi : i.description? = some d) : i.kind = d.kind := by
  unfold description? at hi
  split at hi
  · cases hi
    rfl
  split at hi
  · cases hi
    rfl
  · cases hi

namespace Module

variable {m m' m'' : Module} {h : Handle} {notes notes' : List (Kind Handle)}

def Interns (m : Module) : Prop := ∀ d h, (d, h) ∈ m.interned → (m.inst h).description? = some d

def Describes (m : Module) (h : Handle) (d : Description) : Prop :=
  ∃ i, m.insts.get? h = some i ∧ i.description? = some d

def Results (m : Module) (h type : Handle) (kind : Kind Handle) : Prop :=
  ∃ id, m.insts.get? h = some ⟨some type, some id, kind⟩

theorem inst_of_get? {i : Inst Handle} (hh : m.insts.get? h = some i) : m.inst h = i := by
  rw [inst, hh, Option.getD_some]

theorem Describes.kindOf_eq {d : Description} (hh : m.Describes h d) : m.kindOf h = d.kind := by
  obtain ⟨i, hi, hd⟩ := hh
  rw [kindOf, inst_of_get? hi, Inst.kind_of_description? hd]

theorem Describes.isSome {d : Description} (hh : m.Describes h d) : (m.insts.get? h).isSome := by
  obtain ⟨i, hi, -⟩ := hh
  rw [hi]
  rfl

theorem Results.isSome {type : Handle} {kind : Kind Handle} (hh : m.Results h type kind) :
    (m.insts.get? h).isSome := by
  obtain ⟨id, hi⟩ := hh
  rw [hi]
  rfl

theorem Results.kindOf_eq {type : Handle} {kind : Kind Handle} (hh : m.Results h type kind) :
    m.kindOf h = kind := by
  obtain ⟨id, hi⟩ := hh
  rw [kindOf, inst_of_get? hi]

theorem describes_of_description? {d : Description} (hd : (m.inst h).description? = some d) :
    m.Describes h d := by
  cases hget : m.insts.get? h with
  | some i => exact ⟨i, hget, inst_of_get? hget ▸ hd⟩
  | none =>
      rw [inst, hget] at hd
      cases hd

end Module

def Kind.isUniformVar {ρ : Type} : Kind ρ → Bool
  | var storage _ => storage = .uniform
  | _ => false

theorem Kind.opcode_of_isVar {ρ : Type} {k : Kind ρ} (hk : k.isVar) :
    k.opcode = Form.var.opcode := by
  cases k
  case var => rfl
  all_goals cases hk

theorem Kind.isVar_of_isUniformVar {ρ : Type} {k : Kind ρ} (hk : k.isUniformVar) : k.isVar := by
  cases k
  case var => rfl
  all_goals cases hk

theorem Kind.isUniformVar_of_isType {ρ : Type} {k : Kind ρ} (hk : k.isType) :
    k.isUniformVar = false := by
  cases k
  case var => cases hk
  all_goals rfl

theorem Kind.isUniformVar_of_isConstant {ρ : Type} {k : Kind ρ} (hk : k.isConstant) :
    k.isUniformVar = false := by
  cases k
  case var => cases hk
  all_goals rfl

namespace Module

def Outlasts (m m' : Module) : Prop := ∀ h i, m.insts.get? h = some i → m'.insts.get? h = some i

namespace Outlasts

variable {m m' : Module} {h : Handle} (hmm : m.Outlasts m')

include hmm

theorem isSome (hh : (m.insts.get? h).isSome) : (m'.insts.get? h).isSome := by
  obtain ⟨i, hi⟩ := Option.isSome_iff_exists.1 hh
  rw [hmm h i hi]
  rfl

theorem kindOf_eq (hh : (m.insts.get? h).isSome) : m'.kindOf h = m.kindOf h := by
  obtain ⟨i, hi⟩ := Option.isSome_iff_exists.1 hh
  rw [kindOf, kindOf, inst_of_get? hi, inst_of_get? (hmm h i hi)]

end Outlasts

/-! ## Notes about built-in values -/

section

variable {m : Module} {builtIn : Word} {note var : Handle}

def NotesBuiltIn (m : Module) (note : Handle) (builtIn : Word) (var : Handle) : Prop :=
  (∃ words, m.kindOf note = .decorate var .builtIn (builtIn :: words)) ∧ (m.kindOf var).isVar

def notedVar? (m : Module) (builtIn : Word) (note : Handle) : Option Handle :=
  match m.kindOf note with
  | .decorate target decoration operands =>
    if decoration = .builtIn ∧ operands.head? = some builtIn ∧ (m.kindOf target).isVar then
      some target
    else none
  | _ => none

theorem findBuiltIn?_eq_findSome? (m : Module) (builtIn : Word) :
    m.findBuiltIn? builtIn = m.annotations.findSome? (m.notedVar? builtIn) := rfl

theorem notedVar?_eq_some :
    m.notedVar? builtIn note = some var ↔ m.NotesBuiltIn note builtIn var := by
  unfold notedVar? NotesBuiltIn
  constructor
  · intro hnoted
    split at hnoted
    next target decoration operands heq =>
      split at hnoted
      next hcond =>
        obtain ⟨rfl, hhead, hvar⟩ := hcond
        obtain rfl := Option.some.inj hnoted
        obtain ⟨words, rfl⟩ := List.head?_eq_some_iff.1 hhead
        exact ⟨⟨words, heq⟩, hvar⟩
      · cases hnoted
    · cases hnoted
  · rintro ⟨⟨words, heq⟩, hvar⟩
    simp [heq, hvar]

theorem notedVar?_eq_none :
    m.notedVar? builtIn note = none ↔ ∀ var, ¬m.NotesBuiltIn note builtIn var := by
  rw [Option.eq_none_iff_forall_not_mem]
  exact forall_congr' fun var => not_congr notedVar?_eq_some

theorem findBuiltIn?_of_first {before after : List Handle}
    (hnotes : m.annotations = before ++ note :: after)
    (hbefore : ∀ n ∈ before, ∀ v, ¬m.NotesBuiltIn n builtIn v)
    (hnote : m.NotesBuiltIn note builtIn var) : m.findBuiltIn? builtIn = some var := by
  rw [findBuiltIn?_eq_findSome?, List.findSome?_eq_some_iff]
  exact ⟨before, note, after, hnotes, notedVar?_eq_some.2 hnote,
    fun n hn => notedVar?_eq_none.2 (hbefore n hn)⟩

theorem findBuiltIn?_eq_none : m.findBuiltIn? builtIn = none ↔
    ∀ n ∈ m.annotations, ∀ v, ¬m.NotesBuiltIn n builtIn v := by
  rw [findBuiltIn?_eq_findSome?, List.findSome?_eq_none_iff]
  exact forall₂_congr fun n _ => notedVar?_eq_none

theorem exists_note_of_findBuiltIn? (hfind : m.findBuiltIn? builtIn = some var) :
    ∃ note ∈ m.annotations, m.NotesBuiltIn note builtIn var := by
  obtain ⟨note, hnote, hnoted⟩ := List.exists_of_findSome?_eq_some hfind
  exact ⟨note, hnote, notedVar?_eq_some.1 hnoted⟩

end

end Module

/-- Whether a decoration is attached to the target itself. -/
def Kind.decorates (target : Handle) : Kind Handle → Bool
  | decorate t _ _ => t = target
  | _ => false

namespace Module

variable {m m' m'' : Module} {h : Handle} {notes notes' : List (Kind Handle)}

/-- Nothing has been changed, but instructions may have been stored, functions and entry points
may have been made, and there are more globals and annotations; `notes` are the new
annotations. -/
structure Extends (m : Module) (notes : List (Kind Handle)) (m' : Module) : Prop where
  frame : ∃ bound insts ids entryPoints annotations globals functions interned distinct,
    m' = { m with
      header.bound := bound, insts, ids, entryPoints, annotations, globals, functions,
      interned, distinct }
  insts : ∀ h i, m.insts.get? h = some i → m'.insts.get? h = some i
  interns : m.Interns → m'.Interns
  globals : m.globals <+: m'.globals
  annotations : ∃ hs, m'.annotations = m.annotations ++ hs ∧ (∀ h ∈ hs, m.insts.get? h = none) ∧
    hs.map m'.insts.get? = notes.map fun k => some (.plain k)

namespace Extends

theorem get?_eq_none (hmm : m.Extends notes m') (hh : m'.insts.get? h = none) :
    m.insts.get? h = none := by
  cases hget : m.insts.get? h with
  | none => rfl
  | some i =>
      rw [hmm.insts h i hget] at hh
      cases hh

theorem inst_eq (hmm : m.Extends notes m') (hh : (m.insts.get? h).isSome) :
    m'.inst h = m.inst h := by
  obtain ⟨i, hi⟩ := Option.isSome_iff_exists.1 hh
  rw [inst_of_get? hi, inst_of_get? (hmm.insts h i hi)]

theorem kindOf_eq (hmm : m.Extends notes m') (hh : (m.insts.get? h).isSome) :
    m'.kindOf h = m.kindOf h := congrArg Inst.kind (hmm.inst_eq hh)

theorem isSome (hmm : m.Extends notes m') (hh : (m.insts.get? h).isSome) :
    (m'.insts.get? h).isSome := by
  obtain ⟨i, hi⟩ := Option.isSome_iff_exists.1 hh
  rw [hmm.insts h i hi]
  rfl

theorem describes (hmm : m.Extends notes m') {d : Description} (hh : m.Describes h d) :
    m'.Describes h d := by
  obtain ⟨i, hi, hd⟩ := hh
  exact ⟨i, hmm.insts h i hi, hd⟩

theorem results (hmm : m.Extends notes m') {type : Handle} {kind : Kind Handle}
    (hh : m.Results h type kind) : m'.Results h type kind := by
  obtain ⟨id, hi⟩ := hh
  exact ⟨id, hmm.insts h _ hi⟩

theorem refl (m : Module) : m.Extends [] m :=
  ⟨⟨_, _, _, _, _, _, _, _, _, rfl⟩, fun _ _ => id, id, List.prefix_refl _,
    ⟨[], by simp, by simp, rfl⟩⟩

theorem trans (h₁ : m.Extends notes m') (h₂ : m'.Extends notes' m'') :
    m.Extends (notes ++ notes') m'' := by
  refine ⟨?_, ?_, fun hm => h₂.interns (h₁.interns hm), h₁.globals.trans h₂.globals, ?_⟩
  · obtain ⟨_, _, _, _, _, _, _, _, _, rfl⟩ := h₁.frame
    obtain ⟨_, _, _, _, _, _, _, _, _, rfl⟩ := h₂.frame
    exact ⟨_, _, _, _, _, _, _, _, _, rfl⟩
  · intro h i hi
    exact h₂.insts h i (h₁.insts h i hi)
  · obtain ⟨hs, heq, hfresh, hnotes⟩ := h₁.annotations
    obtain ⟨hs', heq', hfresh', hnotes'⟩ := h₂.annotations
    refine ⟨hs ++ hs', by rw [heq', heq, List.append_assoc], ?_, ?_⟩
    · rw [List.forall_mem_append]
      exact ⟨hfresh, fun h hh => h₁.get?_eq_none (hfresh' h hh)⟩
    · rw [List.map_append, List.map_append, hnotes', ← hnotes]
      congr 1
      apply List.map_congr_left
      intro h hh
      have hmem := List.mem_map_of_mem (f := m'.insts.get?) hh
      rw [hnotes, List.mem_map] at hmem
      obtain ⟨k, -, hk⟩ := hmem
      rw [← hk]
      exact h₂.insts h _ hk.symm

end Extends

structure Adds (m : Module) (notes : List (Kind Handle)) (m' : Module) : Prop
    extends m.Extends notes m' where
  decorated : ∀ k ∈ notes, ∀ h, k.decorates h → (m'.insts.get? h).isSome ∧
    ((m'.kindOf h).isVar → m.insts.get? h = none)

namespace Adds

theorem refl (m : Module) : m.Adds [] m := ⟨.refl m, by simp⟩

theorem trans (h₁ : m.Adds notes m') (h₂ : m'.Adds notes' m'') :
    m.Adds (notes ++ notes') m'' := by
  refine ⟨h₁.toExtends.trans h₂.toExtends, ?_⟩
  rw [List.forall_mem_append]
  refine ⟨?_, ?_⟩
  · intro k hk h hh
    obtain ⟨hstored, hvar⟩ := h₁.decorated k hk h hh
    exact ⟨h₂.isSome hstored, fun h' => hvar (h₂.kindOf_eq hstored ▸ h')⟩
  · intro k hk h hh
    obtain ⟨hstored, hvar⟩ := h₂.decorated k hk h hh
    exact ⟨hstored, fun h' => h₁.get?_eq_none (hvar h')⟩

theorem filter_of_none (hmm : m.Adds notes m') (hh : m'.insts.get? h = none) :
    notes.filter (Kind.decorates h) = [] := by
  rw [List.filter_eq_nil_iff]
  intro k hk hdec
  have hstored := (hmm.decorated k hk h hdec).1
  rw [hh] at hstored
  cases hstored

theorem filter_of_isVar (hmm : m.Adds notes m') (hh : (m.insts.get? h).isSome)
    (hvar : (m.kindOf h).isVar) : notes.filter (Kind.decorates h) = [] := by
  rw [List.filter_eq_nil_iff]
  intro k hk hdec
  have hfresh := (hmm.decorated k hk h hdec).2 (hmm.kindOf_eq hh ▸ hvar)
  rw [hfresh] at hh
  cases hh

end Adds

/-! ## Storing -/

theorem append_frame (i : Inst Handle) (m : Module) : ∃ bound insts ids,
    (append i m).2 = { m with header.bound := bound, insts, ids } := by
  cases hid : i.resultId with
  | none =>
      rw [append_of_none hid]
      exact ⟨_, _, _, rfl⟩
  | some id =>
      rw [append_of_some hid]
      exact ⟨_, _, _, rfl⟩

/-! ## Single edits -/

structure SameCode (m m' : Module) : Prop where
  functions : m'.functions = m.functions
  entryPoints : m'.entryPoints = m.entryPoints

theorem SameCode.refl (m : Module) : m.SameCode m := ⟨rfl, rfl⟩

theorem SameCode.trans (h₁ : m.SameCode m') (h₂ : m'.SameCode m'') : m.SameCode m'' :=
  ⟨h₂.functions.trans h₁.functions, h₂.entryPoints.trans h₁.entryPoints⟩

structure Edits (m : Module) (notes : List (Kind Handle)) (m' : Module) : Prop
    extends m.Extends notes m' where
  code : m.SameCode m'

theorem Edits.refl (m : Module) : m.Edits [] m := ⟨.refl m, .refl m⟩

theorem Edits.trans (h₁ : m.Edits notes m') (h₂ : m'.Edits notes' m'') :
    m.Edits (notes ++ notes') m'' :=
  ⟨h₁.toExtends.trans h₂.toExtends, h₁.code.trans h₂.code⟩

theorem Edits.adds (hmm : m.Edits [] m') : m.Adds [] m' := ⟨hmm.toExtends, by simp⟩

theorem Interns.of_insts {m m' : Module} (hm : m.Interns) (hinterned : m'.interned = m.interned)
    (hinsts : ∀ h i, m.insts.get? h = some i → m'.insts.get? h = some i) : m'.Interns := by
  intro d h hh
  rw [hinterned] at hh
  obtain ⟨i, hi, hd⟩ := describes_of_description? (hm d h hh)
  rw [inst_of_get? (hinsts h i hi), hd]

theorem append_edits {i : Inst Handle} (hrun : append i m = (h, m')) :
    m.Edits [] m' ∧ m'.insts.get? h = some i ∧ m.insts.get? h = none := by
  obtain rfl : h = m.insts.nextHandle := by rw [← fst_append i m, hrun]
  obtain rfl : m' = (append i m).2 := by rw [hrun]
  obtain ⟨bound, insts, ids, hframe⟩ := append_frame i m
  have hget (g : Handle) : (append i m).2.insts.get? g =
      if g = m.insts.nextHandle then some i else m.insts.get? g := by
    rw [insts_append, Arena.get?_push]
  have hinsts (g : Handle) (j : Inst Handle) (hg : m.insts.get? g = some j) :
      (append i m).2.insts.get? g = some j := by
    rw [hget, if_neg, hg]
    rintro rfl
    rw [Arena.get?_nextHandle] at hg
    cases hg
  refine ⟨⟨⟨?_, hinsts, ?_, ?_, ?_⟩, ?_⟩, ?_, ?_⟩
  · exact ⟨bound, insts, ids, m.entryPoints, m.annotations, m.globals, m.functions, m.interned,
      m.distinct, hframe⟩
  · intro hm
    exact hm.of_insts (by rw [hframe]) hinsts
  · exact ⟨[], by rw [hframe, List.append_nil]⟩
  · exact ⟨[], by rw [hframe, List.append_nil], by simp, rfl⟩
  · rw [hframe]
    exact ⟨rfl, rfl⟩
  · rw [hget, if_pos rfl]
  · rw [Arena.get?_nextHandle]

theorem Edits.of_fields {bound : ResultId} {globals distinct : List Handle}
    (hglobals : m.globals <+: globals) :
    m.Edits [] { m with header.bound := bound, globals, distinct } :=
  ⟨⟨⟨_, _, _, _, _, _, _, _, _, rfl⟩, fun _ _ => id, id, hglobals, ⟨[], by simp, by simp, rfl⟩⟩,
    ⟨rfl, rfl⟩⟩

theorem define_edits {type : Option Handle} {kind : Kind Handle}
    (hrun : define type kind m = (h, m')) :
    m.Edits [] m' ∧ (∃ id, m'.insts.get? h = some ⟨type, some id, kind⟩) ∧
      m.insts.get? h = none := by
  change append ⟨type, some m.header.bound, kind⟩
    { m with header.bound := Word.next m.header.bound } = (h, m') at hrun
  obtain ⟨hedits, hget, hfresh⟩ := append_edits hrun
  exact ⟨(Edits.of_fields (List.prefix_refl m.globals)).trans hedits, ⟨_, hget⟩, hfresh⟩

theorem declare_edits (h : Handle) (m : Module) :
    m.Edits [] (declare h m).2 ∧ h ∈ (declare h m).2.globals :=
  ⟨Edits.of_fields (List.prefix_append ..), List.mem_append_right _ (List.mem_singleton_self h)⟩

theorem Edits.of_interned {d : Description} (hd : (m.inst h).description? = some d) :
    m.Edits [] { m with interned := m.interned ++ [(d, h)] } := by
  refine ⟨⟨⟨_, _, _, _, _, _, _, _, _, rfl⟩, fun _ _ => id, ?_, List.prefix_refl _,
    ⟨[], by simp, by simp, rfl⟩⟩, ⟨rfl, rfl⟩⟩
  intro hm d' h' hmem
  obtain hmem | hmem := List.mem_append.1 hmem
  · exact hm d' h' hmem
  · obtain ⟨rfl, rfl⟩ := Prod.mk.inj (List.mem_singleton.1 hmem)
    exact hd

theorem intern_of_some {d : Description} (hlookup : m.interned.lookup d = some h) :
    intern d m = (h, m) := by
  simp only [intern, bind, StateT.bind, get, getThe, MonadStateOf.get, StateT.get, pure, hlookup]
  rfl

theorem intern_of_none {d : Description} {m₁ : Module} (hlookup : m.interned.lookup d = none)
    (hstored : define d.type d.kind m = (h, m₁)) :
    intern d m = (h, { (declare h m₁).2 with interned := m₁.interned ++ [(d, h)] }) := by
  simp only [intern, bind, StateT.bind, get, getThe, MonadStateOf.get, StateT.get, pure, hlookup,
    hstored]
  rfl

theorem intern_cases {d : Description} (hrun : intern d m = (h, m')) :
    (d, h) ∈ m.interned ∧ m' = m ∨ ∃ m₁, define d.type d.kind m = (h, m₁) ∧
      m' = { (declare h m₁).2 with interned := m₁.interned ++ [(d, h)] } := by
  cases hlookup : m.interned.lookup d with
  | some g =>
      rw [intern_of_some hlookup] at hrun
      obtain ⟨rfl, rfl⟩ := Prod.mk.inj hrun
      obtain ⟨l, r, heq, -⟩ := List.lookup_eq_some_iff.1 hlookup
      exact .inl ⟨by rw [heq]; simp, rfl⟩
  | none =>
      rcases hstored : define d.type d.kind m with ⟨g, m₁⟩
      rw [intern_of_none hlookup hstored] at hrun
      obtain ⟨rfl, rfl⟩ := Prod.mk.inj hrun
      exact .inr ⟨m₁, rfl, rfl⟩

theorem intern_edits {d : Description} (hd : d.Proper) (hm : m.Interns)
    (hrun : intern d m = (h, m')) : m.Edits [] m' ∧ m'.Describes h d := by
  obtain ⟨hmem, rfl⟩ | ⟨m₁, hstored, rfl⟩ := intern_cases hrun
  · exact ⟨.refl m', describes_of_description? (hm d h hmem)⟩
  · obtain ⟨hdefine, ⟨id, hget⟩, -⟩ := define_edits hstored
    have hdescription : ((declare h m₁).2.inst h).description? = some d := by
      have hget' : (declare h m₁).2.insts.get? h = _ := hget
      rw [inst_of_get? hget']
      exact hd (some id)
    exact ⟨(hdefine.trans (declare_edits h m₁).1).trans (.of_interned hdescription),
      _, hget, hd (some id)⟩

theorem annotate_cases {kind : Kind Handle} (hrun : annotate kind m = (h, m')) :
    ∃ m₁, append (.plain kind) m = (h, m₁) ∧
      m' = { m₁ with annotations := m₁.annotations ++ [h] } := by
  rcases hstored : append (.plain kind) m with ⟨g, m₁⟩
  have hannotate : annotate kind m = (g, { m₁ with annotations := m₁.annotations ++ [g] }) := by
    simp only [annotate, bind, StateT.bind, hstored]
    rfl
  rw [hannotate] at hrun
  obtain ⟨rfl, rfl⟩ := Prod.mk.inj hrun
  exact ⟨m₁, rfl, rfl⟩

theorem annotate_edits {kind : Kind Handle} (hrun : annotate kind m = (h, m')) :
    m.Edits [kind] m' := by
  obtain ⟨m₁, hstored, rfl⟩ := annotate_cases hrun
  obtain ⟨hedits, hget, hfresh⟩ := append_edits hstored
  obtain ⟨bound, insts, ids, hframe⟩ := append_frame (.plain kind) m
  rw [hstored] at hframe
  have hannotations : m₁.annotations = m.annotations := by
    rw [show m₁ = _ from hframe]
  refine ⟨⟨?_, hedits.insts, hedits.interns, hedits.globals,
    ⟨[h], ?_, by simpa using hfresh, ?_⟩⟩, ⟨hedits.code.functions, hedits.code.entryPoints⟩⟩
  · obtain ⟨_, _, _, _, _, _, _, _, _, rfl⟩ := hedits.frame
    exact ⟨_, _, _, _, _, _, _, _, _, rfl⟩
  · rw [← hannotations]
  · exact congrArg (· :: []) hget

theorem append_globals {i : Inst Handle} (hrun : append i m = (h, m')) :
    m'.globals = m.globals ∧ m'.interned = m.interned := by
  obtain ⟨bound, insts, ids, hframe⟩ := append_frame i m
  rw [hrun] at hframe
  rw [show m' = _ from hframe]
  exact ⟨rfl, rfl⟩

theorem define_globals {type : Option Handle} {kind : Kind Handle}
    (hrun : define type kind m = (h, m')) : m'.globals = m.globals ∧
    m'.interned = m.interned := by
  change append ⟨type, some m.header.bound, kind⟩
    { m with header.bound := Word.next m.header.bound } = (h, m') at hrun
  have hkept := append_globals hrun
  exact hkept

structure Declares (m : Module) (notes : List (Kind Handle)) (vars : List Handle)
    (m' : Module) : Prop extends m.Edits notes m' where
  declared : ∃ hs, m'.globals = m.globals ++ hs ∧
    ∀ h ∈ hs, (m'.insts.get? h).isSome ∧ ((m'.kindOf h).isUniformVar → h ∈ vars)

theorem Declares.of_globals_eq (hmm : m.Edits notes m') (hglobals : m'.globals = m.globals) :
    m.Declares notes [] m' :=
  ⟨hmm, [], by rw [hglobals, List.append_nil], by simp⟩

theorem Declares.trans {vars vars' : List Handle} (h₁ : m.Declares notes vars m')
    (h₂ : m'.Declares notes' vars' m'') : m.Declares (notes ++ notes') (vars ++ vars') m'' := by
  obtain ⟨hs, heq, hdeclared⟩ := h₁.declared
  obtain ⟨hs', heq', hdeclared'⟩ := h₂.declared
  refine ⟨h₁.toEdits.trans h₂.toEdits, hs ++ hs', by rw [heq', heq, List.append_assoc], ?_⟩
  refine List.forall_mem_append.2 ⟨fun h hh => ?_, fun h hh => ?_⟩
  · obtain ⟨hstored, hvar⟩ := hdeclared h hh
    refine ⟨h₂.isSome hstored, fun h' => List.mem_append_left _ (hvar ?_)⟩
    rwa [h₂.kindOf_eq hstored] at h'
  · exact ⟨(hdeclared' h hh).1, fun h' => List.mem_append_right _ ((hdeclared' h hh).2 h')⟩

theorem intern_declares {d : Description} (hd : d.Proper) (hkind : d.kind.isUniformVar = false)
    (hm : m.Interns) (hrun : intern d m = (h, m')) : m.Declares [] [] m' ∧ m'.Describes h d := by
  obtain ⟨hedits, hdescribes⟩ := intern_edits hd hm hrun
  refine ⟨⟨hedits, ?_⟩, hdescribes⟩
  obtain ⟨-, rfl⟩ | ⟨m₁, hstored, rfl⟩ := intern_cases hrun
  · exact ⟨[], (List.append_nil _).symm, by simp⟩
  · refine ⟨[h], congrArg (· ++ [h]) (define_globals hstored).1, ?_⟩
    rw [List.forall_mem_singleton, hdescribes.kindOf_eq, hkind]
    exact ⟨hdescribes.isSome, by simp⟩

theorem annotate_declares {kind : Kind Handle} (hrun : annotate kind m = (h, m')) :
    m.Declares [kind] [] m' := by
  refine .of_globals_eq (annotate_edits hrun) ?_
  obtain ⟨m₁, hstored, rfl⟩ := annotate_cases hrun
  exact (append_globals hstored).1

/-! ## Edits one after the other -/

theorem edit_bind {α β : Type} {x : Edit α} {f : α → Edit β} {b : β} :
    (x >>= f) m = (b, m'') ↔ ∃ a m', x m = (a, m') ∧ f a m' = (b, m'') := by
  have hbind : (x >>= f) m = f (x m).1 (x m).2 := rfl
  rw [hbind]
  constructor
  · intro h
    exact ⟨_, _, rfl, h⟩
  · rintro ⟨a, m', hx, h⟩
    rw [hx]
    exact h

theorem edit_pure {α : Type} {a b : α} : (pure a : Edit α) m = (b, m') ↔ a = b ∧ m = m' :=
  Prod.mk.injEq .. ▸ Iff.rfl

theorem addGlobalVar_edits {pointer : Handle} {storage : StorageClass}
    (hrun : addGlobalVar pointer storage m = (h, m')) :
    m.Edits [] m' ∧ m'.Results h pointer (.var storage none) ∧ h ∈ m'.globals ∧
      m.insts.get? h = none := by
  obtain ⟨g, m₁, hdefine, hrun⟩ := edit_bind.1 hrun
  obtain ⟨hedits, ⟨id, hget⟩, hfresh⟩ := define_edits hdefine
  obtain ⟨_, m₂, hdeclare, hrun⟩ := edit_bind.1 hrun
  obtain ⟨rfl, rfl⟩ := edit_pure.1 hrun
  obtain rfl : m₂ = (declare g m₁).2 := by rw [hdeclare]
  obtain ⟨hedits', hmem⟩ := declare_edits g m₁
  exact ⟨hedits.trans hedits', ⟨id, hedits'.insts g _ hget⟩, hmem, hfresh⟩

theorem addGlobalVar_declares {pointer : Handle} {storage : StorageClass}
    (hrun : addGlobalVar pointer storage m = (h, m')) :
    m.Declares [] (if storage = .uniform then [h] else []) m' := by
  obtain ⟨hedits, hresults, -, -⟩ := addGlobalVar_edits hrun
  refine ⟨hedits, [h], ?_, ?_⟩
  · obtain ⟨g, m₁, hdefine, hrun⟩ := edit_bind.1 hrun
    obtain ⟨_, m₂, hdeclare, hrun⟩ := edit_bind.1 hrun
    obtain ⟨rfl, rfl⟩ := edit_pure.1 hrun
    obtain rfl : m₂ = (declare g m₁).2 := by rw [hdeclare]
    exact congrArg (· ++ [g]) (define_globals hdefine).1
  · rw [List.forall_mem_singleton, hresults.kindOf_eq]
    refine ⟨hresults.isSome, fun hvar => ?_⟩
    rw [if_pos (of_decide_eq_true hvar)]
    exact List.mem_singleton_self h

end Module

end KernelGrid
