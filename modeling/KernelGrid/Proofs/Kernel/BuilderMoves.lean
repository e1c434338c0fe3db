import KernelGrid.Proofs.Kernel.CodeRules
import KernelGrid.Proofs.Module.Containment

/-!
# Moves of a builder

Edits and code are paths of elementary changes, each of which is given nothing but handles of
the module and positions of functions and blocks that are there.  So a builder stays intact,
and the stages of a lowering are paths as well.
-/

namespace KernelGrid

open Relation

namespace Module

theorem reaches_rules (m₀ : Module) : EditRules (Reaches m₀) fun m t => m.Owns t.handle where
  decorate htarget := (reaches_decorate (List.mem_map_of_mem (f := Use.handle) htarget)).comap
  memberDecorate htarget :=
    (reaches_memberDecorate (List.mem_map_of_mem (f := Use.handle) htarget)).comap
  internType _ hreferences := (reaches_internType fun r hr =>
    List.mem_map_of_mem (f := Use.handle) (hreferences r hr)).comap
  internConstant _ htype hreferences :=
    (reaches_internConstant (List.mem_map_of_mem (f := Use.handle) htype) fun r hr =>
      List.mem_map_of_mem (f := Use.handle) (hreferences r hr)).comap
  freshStructType hmembers := (reaches_freshStructType fun r hr =>
    List.mem_map_of_mem (f := Use.handle) (hmembers r hr)).comap
  addGlobalVar hpointer := (reaches_addGlobalVar
    (List.mem_map_of_mem (f := Use.handle) hpointer)).comap
  builtIn hm hfind := hm.contained.owns_of_findBuiltIn? hfind

variable {m : Module}

theorem Contained.path_decorateGlobalBlock (hm : m.Contained) (host : Host) :
    ReflTransGen Move m (decorateGlobalBlock host m).2 := by
  have hkept : KeepsTrying (Reaches m) (fun m (t : Use) => m.Owns t.handle) []
      (decorateGlobalBlock host) fun _ => [] :=
    (reaches_rules m).decorateGlobalBlock (fun _ hm _ _ hh => hm.contained.owns_of_named hh)
      (fun _ hm _ _ _ hblock => hm.contained.owns_of_pointeeStruct? hblock) host
  exact (hkept.state hm.reaches).path

theorem Contained.path_declareMetadata (hm : m.Contained) :
    ReflTransGen Move m (declareMetadata m).2 := by
  have hkept : Keeps (Reaches m) (fun m (t : Use) => m.Owns t.handle) [] declareMetadata _ :=
    (reaches_rules m).declareMetadata
  exact (hkept.state hm.reaches).path

theorem Contained.path_addComputePreamble (hm : m.Contained) :
    ReflTransGen Move m (addComputePreamble m).2 :=
  (hm.reaches_edit reaches_addComputePreamble).1.path

end Module

namespace Builder

open KernelGrid.Module

variable {b₀ b b' : Builder} {α : Type}

/-! ## Moves -/

/-- Whether a builder builds a contained module, in which it has selected what is there. -/
structure Intact (b : Builder) : Prop where
  contained : b.module.Contained
  function : ∀ i ∈ b.function, i < b.module.functions.length
  block : ∀ i ∈ b.function, ∀ j ∈ b.block, ∃ f,
    b.module.functions[i]? = some f ∧ j < f.blocks.length

inductive Move (b : Builder) : Builder → Prop
  | module {m : Module} (hm : b.module.Move m) : Move b { b with module := m }
  | begin {h : Handle} (hh : b.module.Owns h) :
    Move b { b with module.functions := b.module.functions ++ [.empty h] }
  | openBlock {i : Nat} {h : Handle} (hi : i < b.module.functions.length)
    (hh : b.module.Owns h) :
    Move b { b with module.functions := b.module.functions.modify i fun f =>
      { f with blocks := f.blocks ++ [⟨h, []⟩] } }
  | write {i j : Nat} {f : FunctionDef} {h : Handle} (hf : b.module.functions[i]? = some f)
    (hj : j < f.blocks.length) (hh : b.module.Owns h) :
    Move b { b with module.functions := b.module.functions.modify i fun f =>
      { f with blocks := f.blocks.modify j fun b' => { b' with body := b'.body ++ [h] } } }
  | select {function block : Option Nat}
    (hfunction : ∀ i ∈ function, i < b.module.functions.length)
    (hblock : ∀ i ∈ function, ∀ j ∈ block, ∃ f,
      b.module.functions[i]? = some f ∧ j < f.blocks.length) :
    Move b { b with function, block }

theorem contained_of_functions {m : Module} (hm : m.Contained) {functions : List FunctionDef}
    (hfunctions : ∀ f ∈ functions, ∀ h ∈ f.handles, m.Owns h) :
    ({ m with functions } : Module).Contained := by
  refine ⟨hm.references, fun s h hh => hm.sections s h ?_, hm.entryPoints, hfunctions, hm.ids,
    hm.interned, hm.distinct⟩
  cases s <;> exact hh

theorem contained_of_modify {m : Module} (hm : m.Contained) {i : Nat}
    {g : FunctionDef → FunctionDef} (hg : ∀ f ∈ m.functions, ∀ h ∈ (g f).handles, m.Owns h) :
    ({ m with functions := m.functions.modify i g } : Module).Contained := by
  refine contained_of_functions hm fun f hf => ?_
  obtain ⟨n, hn⟩ := List.mem_iff_getElem?.1 hf
  rw [List.getElem?_modify] at hn
  obtain ⟨f', hf', rfl⟩ := Option.map_eq_some_iff.1 hn
  have hmem := List.mem_of_getElem? hf'
  split
  · exact hg f' hmem
  · exact hm.functions f' hmem

theorem getElem?_modify_of_some {β : Type} {xs : List β} {i n : Nat} {x : β} (g : β → β)
    (hx : xs[n]? = some x) : (xs.modify i g)[n]? = some (if i = n then g x else x) := by
  rw [List.getElem?_modify, hx]
  rfl

theorem Intact.modify (hb : b.Intact) {i : Nat} {g : FunctionDef → FunctionDef}
    (hg : ∀ f ∈ b.module.functions, ∀ h ∈ (g f).handles, b.module.Owns h)
    (hblocks : ∀ f, f.blocks.length ≤ (g f).blocks.length) :
    ({ b with module.functions := b.module.functions.modify i g } : Builder).Intact := by
  refine ⟨contained_of_modify hb.contained hg, fun n hn => ?_, fun n hn j hj => ?_⟩
  · change n < (b.module.functions.modify i g).length
    rw [List.length_modify]
    exact hb.function n hn
  · obtain ⟨f, hf, hlt⟩ := hb.block n hn j hj
    refine ⟨_, getElem?_modify_of_some g hf, ?_⟩
    split
    · exact Nat.lt_of_lt_of_le hlt (hblocks f)
    · exact hlt

theorem Move.intact (hmove : b.Move b') (hb : b.Intact) : b'.Intact := by
  cases hmove with
  | module hm =>
      refine ⟨hm.contained hb.contained, fun i hi => ?_, fun i hi j hj => ?_⟩
      · exact hm.functions.symm ▸ hb.function i hi
      · obtain ⟨f, hf, hlt⟩ := hb.block i hi j hj
        exact ⟨f, hm.functions.symm ▸ hf, hlt⟩
  | @begin h hh =>
      refine ⟨contained_of_functions hb.contained ?_, fun i hi => ?_, fun i hi j hj => ?_⟩
      · refine List.forall_mem_append.2 ⟨hb.contained.functions, List.forall_mem_singleton.2 ?_⟩
        simpa [FunctionDef.handles, FunctionDef.empty] using hh
      · have hlt := hb.function i hi
        change i < (b.module.functions ++ _).length
        rw [List.length_append]
        omega
      · obtain ⟨f, hf, hlt⟩ := hb.block i hi j hj
        refine ⟨f, ?_, hlt⟩
        change (b.module.functions ++ _)[i]? = some f
        rw [List.getElem?_append_left (hb.function i hi), hf]
  | openBlock hi hh =>
      refine hb.modify (fun f hf g hg => ?_) fun f => by simp
      have hall := hb.contained.functions f hf
      simp only [FunctionDef.handles, List.flatMap_append, List.flatMap_cons, List.flatMap_nil,
        List.cons_append, List.mem_cons, List.mem_append, List.not_mem_nil, or_false] at hall hg
      obtain rfl | hg | hg | rfl := hg
      · exact hall _ (.inl rfl)
      · exact hall g (.inr (.inl hg))
      · exact hall g (.inr (.inr hg))
      · exact hh
  | @write i j _ h hf hj hh =>
      refine hb.modify (fun f hf g hg => ?_) fun f => by simp
      have hall := hb.contained.functions f hf
      simp only [FunctionDef.handles, List.cons_append, List.mem_cons, List.mem_append,
        List.mem_flatMap] at hall hg
      obtain rfl | hg | ⟨b', hb', hg⟩ := hg
      · exact hall _ (.inl rfl)
      · exact hall g (.inr (.inl hg))
      · obtain ⟨n, hn⟩ := List.mem_iff_getElem?.1 hb'
        rw [List.getElem?_modify] at hn
        obtain ⟨b'', hb'', rfl⟩ := Option.map_eq_some_iff.1 hn
        have hmem := List.mem_of_getElem? hb''
        have hbefore (hg : g ∈ b''.label :: b''.body) : b.module.Owns g :=
          hall g (.inr (.inr ⟨b'', hmem, List.mem_cons.1 hg⟩))
        split at hg
        · rw [List.mem_append, List.mem_singleton] at hg
          obtain rfl | hg | rfl := hg
          · exact hbefore List.mem_cons_self
          · exact hbefore (List.mem_cons_of_mem _ hg)
          · exact hh
        · exact hbefore (List.mem_cons.2 hg)
  | select hfunction hblock => exact ⟨hb.contained, hfunction, hblock⟩

theorem Intact.of_path (hb : b.Intact) (hpath : ReflTransGen Move b b') : b'.Intact := by
  induction hpath with
  | refl => exact hb
  | tail _ hmove ih => exact hmove.intact ih

theorem path_module {m : Module} (hpath : ReflTransGen Module.Move b.module m) :
    ReflTransGen Move b { b with module := m } :=
  hpath.lift (fun m => ({ b with module := m } : Builder)) fun _ _ hmove => .module hmove

theorem intact_start {m : Module} (hm : m.Contained) : (start m).Intact :=
  ⟨hm, by simp [Builder.start], by simp [Builder.start]⟩

/-! ## Building -/

structure Reaches (b₀ b : Builder) : Prop where
  intact : b.Intact
  path : ReflTransGen Move b₀ b

def Owns (b : Builder) (t : Use) : Prop := b.module.Owns t.handle

theorem Reaches.tail (hb : b₀.Reaches b) (hmove : b.Move b') : b₀.Reaches b' :=
  ⟨hmove.intact hb.intact, hb.path.tail hmove⟩

theorem Reaches.module (hb : b₀.Reaches b) {m : Module} (hm : b.module.Reaches m) :
    b₀.Reaches { b with module := m } :=
  ⟨hb.intact.of_path (path_module hm.path), hb.path.trans (path_module hm.path)⟩

variable {known : List Use} {made : α → List Use}

theorem reaches_edit {e : Edit α}
    (he : ∀ m₀, Keeps (Module.Reaches m₀) (fun m t => m.Owns t.handle) known e made) :
    KeepsTrying (Reaches b₀) Owns known (edit e) made := by
  intro b hb hknown
  obtain ⟨hreaches, hmade⟩ := he b.module b.module hb.intact.contained.reaches hknown
  exact ⟨hb.module hreaches, hmade⟩

theorem reaches_attempt {e : ExceptT ModuleError Edit α}
    (he : ∀ m₀, KeepsTrying (Module.Reaches m₀) (fun m t => m.Owns t.handle) known e made) :
    KeepsTrying (Reaches b₀) Owns known (attempt e) made := by
  intro b hb hknown
  obtain ⟨hreaches, hmade⟩ := he b.module b.module hb.intact.contained.reaches hknown
  exact ⟨hb.module hreaches, hmade⟩

theorem reaches_push {i : Inst Handle} (hi : ∀ r ∈ i.references, r ∈ known.map Use.handle) :
    KeepsTrying (Reaches b₀) Owns known (push i) fun h => [.value h] := by
  refine .of_cases fun b hb hknown => ?_
  obtain ⟨e, hpush⟩ | ⟨function, block, hfunction, hblock, hpush⟩ := push_cases i b
  · exact .inl ⟨e, b, hpush, hb, hknown⟩
  · obtain ⟨f, hf, hlt⟩ := hb.intact.block function hfunction block hblock
    have hstore : b.module.Move (append i b.module).2 := .append fun r hr => by
      obtain ⟨t, ht, rfl⟩ := List.mem_map.1 (hi r hr)
      exact hknown t ht
    have hown : (append i b.module).2.Owns (append i b.module).1 := owns_self rfl
    have hstored := hb.tail (.module hstore)
    have hlisted := hstored.tail (.write (hstore.functions.symm ▸ hf) hlt hown)
    refine .inr ⟨_, _, hpush, hlisted, List.forall_mem_cons.2 ⟨hown, fun t ht => ?_⟩⟩
    exact hstore.owns (hknown t ht)

theorem reaches_pushResult {type : Handle} {kind : Kind Handle}
    (htype : .declaration type ∈ known)
    (hreferences : ∀ r ∈ kind.references, .declaration r ∈ known ∨ .value r ∈ known) :
    KeepsTrying (Reaches b₀) Owns known (pushResult type kind) fun h => [.value h] := by
  have hfresh : KeepsTrying (Reaches b₀) Owns known (edit allocId) fun _ => [] :=
    reaches_edit fun m₀ m hm hknown =>
      ⟨⟨Module.Move.allocId.contained hm.contained, hm.path.tail .allocId⟩, hknown⟩
  refine .bind hfresh fun id => reaches_push fun r hr => ?_
  · obtain hr | hr := Inst.mem_references.1 hr
    · obtain rfl := Option.some.inj hr
      exact List.mem_map_of_mem (f := Use.handle) htype
    · obtain hr | hr := hreferences r hr
      · exact List.mem_map_of_mem (f := Use.handle) hr
      · exact List.mem_map_of_mem (f := Use.handle) hr

theorem reaches_store {pointer object : Handle} (hpointer : .value pointer ∈ known)
    (hobject : .value object ∈ known) :
    KeepsTrying (Reaches b₀) Owns known (store pointer object) fun _ => [] := by
  refine (reaches_push fun r hr => ?_).mono (by simp)
  rw [Inst.references_plain] at hr
  obtain rfl | rfl : r = pointer ∨ r = object := by
    simpa [Kind.references, Kind.operands] using hr
  · exact List.mem_map_of_mem (f := Use.handle) hpointer
  · exact List.mem_map_of_mem (f := Use.handle) hobject

theorem reaches_ret : KeepsTrying (Reaches b₀) Owns known ret fun _ => [] := by
  refine .bind (reaches_push (by
    simp [Inst.references_plain, Kind.references, Kind.operands])) fun _ => ?_
  intro b hb hknown
  have hselect : b.Move { b with block := none } :=
    .select hb.intact.function (by simp)
  exact ⟨hb.tail hselect, hknown⟩

theorem reaches_writes (b₀ : Builder) : WriteRules (Reaches b₀) Owns where
  pushResult _ _ htype hreferences := reaches_pushResult htype hreferences
  store hpointer hobject := reaches_store hpointer hobject
  ret := reaches_ret

theorem reaches_codeRules (b₀ : Builder) : CodeRules (Reaches b₀) Owns :=
  (reaches_writes b₀).codeRules reaches_rules (fun he => reaches_edit he) fun he =>
    reaches_attempt he

end Builder

end KernelGrid
