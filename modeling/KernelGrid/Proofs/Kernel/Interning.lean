import KernelGrid.Proofs.Kernel.Operations
import KernelGrid.Proofs.Module.Normalization

/-!
# Interning

A type or constant is found under its description exactly if it is the first global that has it
now, but for structs that were made to be distinct.  This survives everything that is done to a
module, so that what is asked for is declared once.
-/

namespace KernelGrid

open KernelGrid.Stream

/-! ## Reading -/

theorem Module.Mentions.distinct {m m' : Module} {mentioned : List ResultId}
    (hmm : m.Mentions mentioned m') : m'.distinct = m.distinct := by
  obtain ⟨_, _, hframe⟩ := hmm.frame
  rw [hframe]

theorem Module.Inserts.distinct {m m' : Module} {h : Handle} {i : Inst Handle}
    (hins : m.Inserts m' h i) : m'.distinct = m.distinct := by
  obtain ⟨_, _, hframe⟩ := hins.frame
  rw [hframe]

theorem Assembly.distinct_of_place {op : Opcode} {h : Handle} {a a' : Assembly}
    (hplace : a.place op h = .ok a') : a'.module.distinct = a.module.distinct := by
  unfold place at hplace
  split at hplace
  · obtain ⟨f, -, hplace⟩ := except_bind.1 hplace
    cases hplace
    rfl
  · split at hplace
    · cases hplace
      rfl
    · split at hplace
      · cases hplace
      · cases hplace
        cases Section.ofOpcode op <;> rfl

section

variable {α : Type} {item : α → Item ResultId} {known : ResultId → Prop} {header : Header}
  {bound : ResultId} {xs : List α} {x : α} {a a' : Assembly} {origin : Handle → Option α}

theorem Assembled.distinct_of_accept {r : Record} (hA : Assembled item known header xs a origin)
    (hbound : bound ≤ header.bound) (hr : Item.ofRecord bound r = .ok (item x))
    (hacc : a.accept bound r = .ok a') : a'.module.distinct = a.module.distinct := by
  have haccepts := hA.accepts hbound hr hacc
  generalize item x = y at haccepts
  cases haccepts with
  | entryPoint hmentions => exact hmentions.distinct
  | functionEnd hclose =>
      unfold Assembly.close at hclose
      split at hclose
      · cases hclose
        rfl
      · cases hclose
  | claim hl _ hclaim =>
      obtain ⟨_, _, _, _, -, hsize⟩ := Module.claimMode?_eq_some.1 hclaim
      obtain ⟨-, -, rfl⟩ := Option.map_eq_some_iff.1 hsize
      have hdistinct := hl.mentions.distinct
      exact hdistinct
  | mode hl _ hs _ => exact hs.inserts.distinct.trans hl.mentions.distinct
  | place hl hs _ hplace =>
      exact (Assembly.distinct_of_place hplace).trans
        (hs.inserts.distinct.trans hl.mentions.distinct)

end

namespace Module

open Relation

variable {m m' m'' m₀ : Module} {d : Description} {h : Handle}

/-- The first global with a description, of those that were not made to be distinct. -/
def declared? (m : Module) (d : Description) : Option Handle :=
  m.globals.find? fun h => h ∉ m.distinct ∧ (m.inst h).description? = some d

theorem declared?_eq_some (hh : m.declared? d = some h) :
    h ∈ m.globals ∧ h ∉ m.distinct ∧ (m.inst h).description? = some d :=
  ⟨List.mem_of_find?_eq_some hh, by simpa using List.find?_some hh⟩

structure Interning (m : Module) : Prop where
  lookup : ∀ d, m.interned.lookup d = m.declared? d
  globals : ∀ h ∈ m.globals, (m.insts.get? h).isSome
  distinct : ∀ h ∈ m.distinct, (m.insts.get? h).isSome
  memoryModel : ∀ h ∈ m.memoryModel, (m.insts.get? h).isSome ∧ (m.inst h).description? = none

theorem lookup_reintern (m : Module) (d : Description) :
    m.reintern.interned.lookup d = m.declared? d := by
  simp only [reintern, declared?]
  induction m.globals with
  | nil => rfl
  | cons h hs ih =>
      rw [List.filterMap_cons, List.find?_cons]
      by_cases hdistinct : h ∈ m.distinct
      · simpa [hdistinct] using ih
      · cases hd : (m.inst h).description? with
        | none => simpa [hdistinct, hd] using ih
        | some d' =>
            by_cases heq : d = d'
            · simp [hdistinct, heq]
            · have hbeq : (d == d') = false := by simpa using heq
              simp only [hdistinct, if_false, Option.map_some, List.lookup_cons, hbeq, ih]
              simp [Ne.symm heq]

namespace Interning

variable (hm : m.Interning)

include hm

theorem congr (hglobals : m'.globals = m.globals) (hdistinct : m'.distinct = m.distinct)
    (hinterned : m'.interned = m.interned) (hmodel : m'.memoryModel = m.memoryModel)
    (hstored : ∀ h, (m.insts.get? h).isSome → (m'.insts.get? h).isSome)
    (hdescription : ∀ h, (m.insts.get? h).isSome →
      (m'.inst h).description? = (m.inst h).description?) : m'.Interning := by
  refine ⟨fun d => ?_, ?_, ?_, ?_⟩
  · rw [hinterned, hm.lookup, declared?, declared?, hglobals, hdistinct]
    rw [← List.head?_filter, ← List.head?_filter]
    refine congrArg List.head? (List.filter_congr fun h hh => ?_)
    rw [hdescription h (hm.globals h hh)]
  · rw [hglobals]
    exact fun h hh => hstored h (hm.globals h hh)
  · rw [hdistinct]
    exact fun h hh => hstored h (hm.distinct h hh)
  · rw [hmodel]
    intro h hh
    obtain ⟨hget, hnone⟩ := hm.memoryModel h hh
    exact ⟨hstored h hget, (hdescription h hget).trans hnone⟩

theorem reintern : m.reintern.Interning :=
  ⟨m.lookup_reintern, hm.globals, hm.distinct, hm.memoryModel⟩

theorem allocId : (Module.allocId m).2.Interning :=
  hm.congr rfl rfl rfl rfl (fun _ => id) fun _ _ => rfl

theorem append (i : Inst Handle) : (Module.append i m).2.Interning := by
  obtain ⟨bound, insts, ids, hframe⟩ := append_frame i m
  refine hm.congr (by rw [hframe]) (by rw [hframe]) (by rw [hframe]) (by rw [hframe]) ?_ ?_
  · intro h hh
    rw [insts_append, Arena.get?_push]
    split
    · rfl
    · exact hh
  · intro h hh
    rw [inst_append, if_neg]
    rintro rfl
    rw [Arena.get?_nextHandle] at hh
    cases hh

theorem define (type : Option Handle) (kind : Kind Handle) :
    (Module.define type kind m).2.Interning := by
  rw [define_eq]
  exact hm.allocId.append _

end Interning

/-! ## New declarations -/

theorem declared?_concat (h : Handle) {distinct : List Handle}
    (hdistinct : ∀ g ∈ m.globals, g ∈ distinct ↔ g ∈ m.distinct)
    (interned : List (Description × Handle)) (d : Description) :
    ({ m with globals := m.globals ++ [h], interned, distinct } : Module).declared? d =
      (m.declared? d).or
        (if h ∉ distinct ∧ (m.inst h).description? = some d then some h else none) := by
  have hinst (g : Handle) : ({ m with globals := m.globals ++ [h], interned, distinct } :
      Module).inst g = m.inst g := rfl
  simp only [declared?, hinst, List.find?_append]
  congr 1
  · rw [← List.head?_filter, ← List.head?_filter]
    refine congrArg List.head? (List.filter_congr fun g hg => ?_)
    simp only [hdistinct g hg]
  · by_cases hnew : h ∉ distinct ∧ (m.inst h).description? = some d
    · rw [if_pos hnew, List.find?_cons_of_pos (by simpa using hnew)]
    · rw [if_neg hnew, List.find?_cons_of_neg (by simpa using hnew), List.find?_nil]

structure Stored (m m' : Module) (h : Handle) (i : Inst Handle) : Prop where
  interning : m'.Interning
  lists : m'.globals = m.globals ∧ m'.distinct = m.distinct ∧ m'.interned = m.interned
  stored : m'.insts.get? h = some i
  fresh : m.insts.get? h = none
  kept : ∀ g, (m.insts.get? g).isSome → m'.inst g = m.inst g

theorem Interning.stored_of_define (hm : m.Interning) {type : Option Handle} {kind : Kind Handle}
    (hrun : Module.define type kind m = (h, m')) :
    m.Stored m' h ⟨type, some m.header.bound, kind⟩ := by
  have hm' := hm.define type kind
  rw [hrun] at hm'
  have hp := puts_define hrun
  have hfresh : m.insts.get? h = none := by rw [hp.handle, Arena.get?_nextHandle]
  refine ⟨hm', ?_, ?_, hfresh, fun g hg => hp.inst_eq_of_ne ?_⟩
  · obtain ⟨bound, ids, rfl⟩ := hp.frame
    exact ⟨rfl, rfl, rfl⟩
  · obtain ⟨bound, ids, rfl⟩ := hp.frame
    rw [hp.handle]
    exact Arena.get?_push_nextHandle ..
  · rintro rfl
    rw [hfresh] at hg
    cases hg

namespace Stored

variable {i : Inst Handle} (hs : m.Stored m' h i)

include hs

theorem isSome : (m'.insts.get? h).isSome := by
  rw [hs.stored]
  rfl

theorem not_mem_globals (hm : m.Interning) : h ∉ m'.globals := by
  rw [hs.lists.1]
  intro hh
  have hget := hm.globals h hh
  rw [hs.fresh] at hget
  cases hget

theorem not_mem_distinct (hm : m.Interning) : h ∉ m'.distinct := by
  rw [hs.lists.2.1]
  intro hh
  have hget := hm.distinct h hh
  rw [hs.fresh] at hget
  cases hget

/-- What is declared is found under its description, unless it is made to be distinct. -/
theorem declares (hm : m.Interning) {interned : List (Description × Handle)}
    {distinct : List Handle} (hdistinct : distinct = m'.distinct ∨ distinct = h :: m'.distinct)
    (hinterned : ∀ d, interned.lookup d = (m'.interned.lookup d).or
      (if h ∉ distinct ∧ i.description? = some d then some h else none)) :
    ({ m' with globals := m'.globals ++ [h], interned, distinct } : Module).Interning := by
  have hglobal := hs.not_mem_globals hm
  refine ⟨fun d => ?_, ?_, ?_, hs.interning.memoryModel⟩
  · rw [declared?_concat h, inst_of_get? hs.stored, ← hs.interning.lookup]
    · exact hinterned d
    · intro g hg
      obtain rfl | rfl := hdistinct
      · rfl
      · rw [List.mem_cons, or_iff_right]
        rintro rfl
        exact hglobal hg
  · exact List.forall_mem_append.2 ⟨hs.interning.globals, List.forall_mem_singleton.2 hs.isSome⟩
  · obtain rfl | rfl := hdistinct
    · exact hs.interning.distinct
    · exact List.forall_mem_cons.2 ⟨hs.isSome, hs.interning.distinct⟩

end Stored

namespace Interning

variable (hm : m.Interning)

include hm

theorem intern (hd : d.Proper) (hrun : intern d m = (h, m')) :
    m'.Interning ∧ m'.declared? d = some h ∧
      (∀ g, (m.insts.get? g).isSome → m'.inst g = m.inst g) ∧
      ((m.declared? d).isSome → m' = m) := by
  cases hlookup : m.interned.lookup d with
  | some g =>
      obtain ⟨rfl, rfl⟩ := Prod.mk.inj ((intern_of_some hlookup).symm.trans hrun)
      exact ⟨hm, by rw [← hm.lookup, hlookup], fun _ _ => rfl, fun _ => rfl⟩
  | none =>
      rcases hstored : Module.define d.type d.kind m with ⟨g, m₁⟩
      obtain ⟨rfl, rfl⟩ := Prod.mk.inj ((intern_of_none hlookup hstored).symm.trans hrun)
      have hs := hm.stored_of_define hstored
      have hnew : ∀ d', (m₁.interned ++ [(d, g)]).lookup d' = (m₁.interned.lookup d').or
          (if g ∉ m₁.distinct ∧
            (⟨d.type, some m.header.bound, d.kind⟩ : Inst Handle).description? =
            some d' then some g else none) := by
        intro d'
        rw [List.lookup_append, hd]
        congr 1
        by_cases heq : d' = d
        · simp [heq, hs.not_mem_distinct hm]
        · have hbeq : (d' == d) = false := by simpa using heq
          simp [List.lookup_cons, hbeq, Ne.symm heq]
      have hm' := hs.declares hm (.inl rfl) hnew
      refine ⟨hm', ?_, hs.kept, fun hsome => ?_⟩
      · refine (hm'.lookup d).symm.trans ((hnew d).trans ?_)
        rw [hs.lists.2.2, hlookup, hd]
        simp [hs.not_mem_distinct hm]
      · rw [← hm.lookup, hlookup] at hsome
        cases hsome

theorem freshStructType (members : List Handle) :
    (Module.freshStructType members m).2.Interning := by
  rcases hstored : Module.define none (.typeStruct members) m with ⟨g, m₁⟩
  have hs := hm.stored_of_define hstored
  have hfresh : (Module.freshStructType members m).2 =
      { m₁ with globals := m₁.globals ++ [g], distinct := g :: m₁.distinct } := by
    simp only [Module.freshStructType, bind, StateT.bind, hstored]
    rfl
  rw [hfresh]
  exact hs.declares hm (.inr rfl) fun d => by simp

theorem addGlobalVar (pointer : Handle) (storage : StorageClass) :
    (Module.addGlobalVar pointer storage m).2.Interning := by
  rcases hstored : Module.define (some pointer) (.var storage none) m with ⟨g, m₁⟩
  have hs := hm.stored_of_define hstored
  have hvar : (Module.addGlobalVar pointer storage m).2 =
      { m₁ with globals := m₁.globals ++ [g] } := by
    simp only [Module.addGlobalVar, bind, StateT.bind, hstored]
    rfl
  rw [hvar]
  exact hs.declares hm (.inl rfl)
    fun d => by simp [Inst.description?, Kind.isType, Kind.isConstant]

/-! ## Changes in place -/

theorem setKind {kind : Kind Handle} (hold : (m.inst h).description? = none)
    (hnew : (⟨(m.inst h).resultType, (m.inst h).resultId, kind⟩ : Inst Handle).description? =
      none) : (Module.setKind h kind m).2.Interning := by
  refine hm.congr rfl rfl rfl rfl ?_ ?_
  · intro g hg
    change (Option.isSome (Arena.get? (m.insts.modify h _) g)) = true
    rw [Arena.get?_modify]
    split
    · rwa [Option.isSome_map]
    · exact hg
  · intro g hg
    rw [inst_setKind]
    split
    · rename_i hand
      obtain ⟨rfl, -⟩ := hand
      exact hnew.trans hold.symm
    · rfl

theorem setMemoryModel (addressing : AddressingModel) (memory : MemoryModel) :
    (Module.setMemoryModel addressing memory m).2.Interning := by
  rcases hrun : Module.setMemoryModel addressing memory m with ⟨u, m'⟩
  obtain ⟨h, hmodel, rfl⟩ | ⟨-, h, m₁, hstored, rfl⟩ := setMemoryModel_cases hrun
  · exact hm.setKind (hm.memoryModel h hmodel).2 rfl
  · have hm₁ := hm.append (.plain (.memoryModel addressing memory))
    rw [hstored] at hm₁
    refine ⟨hm₁.lookup, hm₁.globals, hm₁.distinct, ?_⟩
    rintro _ ⟨⟩
    have hget := (append_edits hstored).2.1
    exact ⟨by change (m₁.insts.get? h).isSome; rw [hget]; rfl,
      congrArg Inst.description? (inst_of_get? hget)⟩

end Interning

theorem description?_eq_none {i : Inst Handle} :
    i.description? = none ↔ i.kind.isType = false ∧
      (i.kind.isConstant → i.resultType = none) := by
  unfold Inst.description?
  split
  · rename_i htype
    simp [htype]
  · rename_i htype
    split
    · rename_i hconstant
      simp [hconstant.1, Option.isSome_iff_ne_none.1 hconstant.2]
    · rename_i hconstant
      rw [not_and, Option.not_isSome_iff_eq_none] at hconstant
      simpa [htype] using hconstant

theorem description?_makeUniform {i : Inst Handle} (hi : i.description? = none) :
    (makeUniform i).description? = none := by
  obtain ⟨-, heq⟩ | ⟨-, heq⟩ := makeUniform_cases i
  · rw [heq, hi]
  · rw [heq]
    rw [description?_eq_none] at hi ⊢
    rwa [Kind.isType_withStorage, Kind.isConstant_withStorage]

theorem isSome_foldl_modify (hs : List Handle) (f : Inst Handle → Inst Handle)
    (insts : Arena (Inst Handle)) (g : Handle) :
    ((hs.foldl (fun insts h => insts.modify h f) insts).get? g).isSome =
      (insts.get? g).isSome := by
  induction hs generalizing insts with
  | nil => rfl
  | cons h hs ih =>
      rw [List.foldl_cons, ih, Arena.get?_modify]
      split
      · exact Option.isSome_map
      · rfl

theorem Interning.normalizeStorage (hm : m.Interning) : m.normalizeStorage.2.Interning := by
  unfold Module.normalizeStorage
  split
  · have hstored (h : Handle) (hh : (m.insts.get? h).isSome) :=
      (isSome_foldl_modify m.globals makeUniform m.insts h).trans hh
    refine ⟨lookup_reintern _, fun h hh => hstored h (hm.globals h hh),
      fun h hh => hstored h (hm.distinct h hh), fun h hh => ?_⟩
    obtain ⟨hget, hnone⟩ := hm.memoryModel h hh
    refine ⟨hstored h hget, ?_⟩
    refine (congrArg Inst.description? (inst_foldl_makeUniform m.globals m h)).trans ?_
    split
    · exact description?_makeUniform hnone
    · exact hnone
  · exact hm

/-! ## Steps -/

theorem Primitive.interning (hstep : Primitive m m') (hm : m.Interning) : m'.Interning := by
  cases hstep with
  | allocId => exact hm.allocId
  | append => exact hm.append _
  | define type kind => exact hm.define type kind
  | intern hd => exact (hm.intern hd rfl).1
  | freshStructType members => exact hm.freshStructType members
  | addGlobalVar pointer storage => exact hm.addGlobalVar pointer storage
  | setMemoryModel addressing memory => exact hm.setMemoryModel addressing memory
  | @restate h words hh =>
      refine hm.setKind ?_ rfl
      have hnone : (m.kindOf h).isType = false ∧ (m.kindOf h).isConstant = false := by
        revert hh
        cases m.kindOf h <;> simp [Kind.isSource, Kind.isType, Kind.isConstant]
      exact description?_eq_none.2 ⟨hnone.1, fun h => absurd h (Bool.eq_false_iff.1 hnone.2)⟩
  | relist hlists =>
      obtain ⟨_, _, _, _, _, _, _, _, rfl⟩ := hlists
      exact hm.congr rfl rfl rfl rfl (fun _ => id) fun _ _ => rfl
  | normalizeStorage => exact hm.normalizeStorage
  | reintern => exact hm.reintern

theorem Interning.steps (hm : m.Interning) (hsteps : ReflTransGen Primitive m m') :
    m'.Interning := by
  induction hsteps with
  | refl => exact hm
  | tail _ hstep ih => exact hstep.interning ih

/-! ## New modules and modules that were read -/

theorem distinct_of_decode {w : List Word} (hdecode : decode w = .ok m) : m.distinct = [] := by
  obtain ⟨_, _, _, _, _, -, -, records, -, item, hm⟩ := exists_endOf hdecode
  exact hm.induction (P := fun _ a => a.module.distinct = []) rfl fun hA hr hacc hxs =>
    (hA.distinct_of_accept (UInt32.le_refl _) hr hacc).trans hxs

theorem interning_empty : empty.Interning :=
  ⟨fun _ => rfl, by simp [empty], by simp [empty], by simp [empty]⟩

theorem interning_of_load {w : List Word} (hdecode : decode w = .ok m₀)
    (hresolve : m₀.resolve = .ok m) : m.Interning := by
  have hm : m.Sound := sound_of_load (w := w) (by
    rw [load_eq_ok]
    exact ⟨m₀, hdecode, resolve_eq_ok.1 hresolve⟩)
  obtain ⟨-, rfl⟩ := resolve_eq_ok.1 hresolve
  refine ⟨m₀.lookup_reintern, fun h hh => hm.stored (mem_listed.2 (.inl ⟨.globals, hh⟩)), ?_, ?_⟩
  · change ∀ h ∈ m₀.distinct, _
    rw [distinct_of_decode hdecode]
    exact fun h hh => nomatch hh
  · intro h hh
    have hlisted : h ∈ Section.memoryModel.handles m₀.reintern := Option.mem_toList.2 hh
    refine ⟨hm.stored (mem_listed.2 (.inl ⟨.memoryModel, hlisted⟩)), ?_⟩
    cases hd : (m₀.reintern.inst h).description? with
    | none => rfl
    | some d =>
        have hsection := (hm.sections .memoryModel h hlisted).1
        exact absurd ((Inst.globals_of_description? hd).symm.trans hsection) (by decide)

/-- Whatever is done to a new module or to one that was read and resolved, a description leads
to the first global that has it, and so what is asked for is declared once. -/
theorem interned_of_operations
    (hstart : m₀ = .empty ∨ ∃ w d, decode w = .ok d ∧ d.resolve = .ok m₀)
    (hops : ReflTransGen Operation m₀ m) :
    (∀ d h, m.interned.lookup d = some h ↔ m.declared? d = some h) ∧
    ∀ r : Request,
      ((r.make m).2.inst (r.make m).1).description? = some r.description ∧
      r.make (r.make m).2 = r.make m ∧
      (∀ r' : Request, r'.description ≠ r.description →
        (r'.make (r.make m).2).1 ≠ (r.make m).1) ∧
      (∀ g ∈ m.globals, g ∉ m.distinct → (m.inst g).description? = some r.description →
        (r.make m).2 = m) ∧
      (r.make m).1 ∉ (r.make m).2.distinct := by
  have hm₀ : m₀.Interning := by
    obtain rfl | ⟨w, d, hdecode, hresolve⟩ := hstart
    · exact interning_empty
    · exact interning_of_load hdecode hresolve
  have hm := hm₀.steps (steps_of_operations hops)
  refine ⟨fun d h => by rw [hm.lookup], fun r => ?_⟩
  rw [r.make_eq]
  rcases hrun : intern r.description m with ⟨h, m'⟩
  obtain ⟨hm', hdeclared, -, hpresent⟩ := hm.intern r.proper hrun
  obtain ⟨hglobal, hdistinct, hdescription⟩ := declared?_eq_some hdeclared
  refine ⟨hdescription, intern_of_some ((hm'.lookup _).trans hdeclared), ?_, ?_, hdistinct⟩
  · intro r' hne heq
    rw [r'.make_eq] at heq
    rcases hrun' : intern r'.description m' with ⟨h', m''⟩
    obtain ⟨-, hdeclared', hkept, -⟩ := hm'.intern r'.proper hrun'
    obtain rfl : h' = h := (congrArg Prod.fst hrun').symm.trans heq
    have hdescription' := (declared?_eq_some hdeclared').2.2
    rw [hkept h' (hm'.globals h' hglobal), hdescription] at hdescription'
    exact hne (Option.some.inj hdescription').symm
  · intro g hg hg' hd
    refine hpresent ?_
    rw [declared?, List.find?_isSome]
    exact ⟨g, hg, by simpa using ⟨hg', hd⟩⟩

/-- A struct of a word that is made to be distinct, in a module that has nothing else. -/
def distinctStruct : Module := (freshStructType [⟨0⟩] ((Request.int 32 false).make .empty).2).2

/-- Asking for a struct of the same members returns another one. -/
theorem interned_of_operations_distinctStruct :
    ReflTransGen Operation .empty distinctStruct ∧ distinctStruct.distinct = [⟨1⟩] ∧
      (∀ d h, distinctStruct.interned.lookup d = some h ↔ distinctStruct.declared? d = some h) ∧
      ((Request.struct [⟨0⟩]).make distinctStruct).1 = ⟨2⟩ ∧
      ∀ r : Request, (r.make distinctStruct).1 ∉ (r.make distinctStruct).2.distinct := by
  have hops : ReflTransGen Operation .empty distinctStruct :=
    .tail (.single (.request (.int 32 false))) (.freshStructType [⟨0⟩])
  obtain ⟨hlookup, hrequest⟩ := interned_of_operations (.inl rfl) hops
  exact ⟨hops, rfl, hlookup, by decide, fun r => (hrequest r).2.2.2.2⟩

end Module

end KernelGrid
