import KernelGrid.Proofs.Module.Editing
import Mathlib.Data.List.Pairwise
import Mathlib.Logic.Relation

/-!
# Static uses

A function uses the variables that it mentions and those that are mentioned where its calls
lead.  What connects it to its surroundings are the variables of inputs and of outputs, and an
entry point is to list those of its function.
-/

namespace KernelGrid

open Relation (ReflTransGen)

/-- Whether the kind is one of variables that a program takes its input from or leaves its
output in. -/
def Kind.isPort {ρ : Type} : Kind ρ → Bool
  | var storage _ => storage = .input ∨ storage = .output
  | _ => false

/-- The words that may be anything: numbers or ids. -/
def Kind.unread {ρ : Type} : Kind ρ → List Word
  | raw _ words => words
  | _ => []

theorem Kind.isVar_of_isPort {ρ : Type} {k : Kind ρ} (hk : k.isPort) : k.isVar := by
  cases k
  case var => rfl
  all_goals cases hk

theorem Kind.opcode_of_isPort {ρ : Type} {k : Kind ρ} (hk : k.isPort) :
    k.opcode = Form.var.opcode :=
  opcode_of_isVar (isVar_of_isPort hk)

theorem Kind.storage?_of_isPort {ρ : Type} {k : Kind ρ} (hk : k.isPort) :
    k.storage? = some .input ∨ k.storage? = some .output := by
  cases k
  case var storage initializer =>
    exact (of_decide_eq_true hk).imp (congrArg some) (congrArg some)
  all_goals cases hk

theorem Kind.Genuine.eq_label {ρ : Type} {k : Kind ρ} (hk : k.Genuine)
    (hop : k.opcode = Form.label.opcode) : k = .label := by
  cases k
  case placeholder => exact hk.elim
  case label => rfl
  case raw op words => exact absurd rfl (hk.ne_raw hop op words)
  all_goals
    exfalso
    rw [opcode] at hop
    revert hop
    decide

namespace Module

variable {m m' : Module} {f g w : FunctionDef} {v : Handle} {ports : List Handle}

/-- Whether an instruction mentions another one: it refers to it, or has its id among unread
words. -/
def RefersTo (m : Module) (h r : Handle) : Prop :=
  r ∈ (m.inst h).references ∨ m.idOf r ∈ (m.kindOf h).unread

def Calls (m : Module) (caller callee : Handle) : Prop :=
  ∃ f ∈ m.functions, f.function = caller ∧
    ∃ h ∈ f.handles, ∃ arguments, m.kindOf h = .functionCall callee arguments

/-- Whether a variable of inputs or outputs is mentioned by a function or where its calls
lead. -/
def StaticallyUses (m : Module) (function v : Handle) : Prop :=
  (m.kindOf v).isPort ∧ ∃ f ∈ m.functions, ReflTransGen m.Calls function f.function ∧
    ∃ h ∈ f.handles, m.RefersTo h v

def Lists (m : Module) (e : EntryPoint Handle) : Prop :=
  ∀ v, v ∈ e.interface ↔ m.StaticallyUses e.function v

/-! ## Functions of sound modules -/

theorem Sound.stored_of_handles (hm : m.Sound) (hf : f ∈ m.functions) {h : Handle}
    (hh : h ∈ f.handles) : (m.insts.get? h).isSome :=
  hm.stored (mem_listed.2 (.inr ⟨f, hf, hh⟩))

theorem Sound.eq_of_function_eq (hm : m.Sound) (hf : f ∈ m.functions) (hg : g ∈ m.functions)
    (heq : f.function = g.function) : f = g := by
  have hdisjoint := (List.nodup_flatMap.1 (List.nodup_append.1 hm.nodup).2.1).2
  have : Std.Symm (Function.onFun List.Disjoint FunctionDef.handles) :=
    ⟨fun _ _ h _ ha hb => h hb ha⟩
  by_contra hne
  exact hdisjoint.forall hf hg hne List.mem_cons_self (heq ▸ List.mem_cons_self)

theorem Sound.isPort_function (hm : m.Sound) (hf : f ∈ m.functions) :
    (m.kindOf f.function).isPort = false := by
  have hop : (m.kindOf f.function).opcode = Form.function.opcode := (hm.functions f hf).function
  rw [Bool.eq_false_iff]
  intro hport
  exact absurd ((Kind.opcode_of_isPort hport).symm.trans hop) (by decide)

theorem Sound.inst_label (hm : m.Sound) (hf : f ∈ m.functions) {b : Block} (hb : b ∈ f.blocks) :
    (m.inst b.label).references = [] ∧ m.kindOf b.label = .label := by
  have hop : (m.inst b.label).opcode = Form.label.opcode := (hm.functions f hf).labels b hb
  have hlisted : b.label ∈ m.listed := mem_listed.2 (.inr ⟨f, hf, List.mem_append_right _
    (List.mem_flatMap.2 ⟨b, hb, List.mem_cons_self⟩)⟩)
  have hwritable := hm.writable b.label hlisted
  have htype : (m.inst b.label).resultType = none :=
    ((Inst.hasLayout_iff .label hop).1 hwritable.layout).1
  have hkind : (m.inst b.label).kind = .label := hwritable.genuine.eq_label hop
  refine ⟨?_, hkind⟩
  rw [Inst.references, htype, hkind]
  rfl

theorem Sound.isSome_function (hm : m.Sound) (hf : f ∈ m.functions) :
    (m.inst f.function).resultId.isSome := by
  have hlisted : f.function ∈ m.listed := mem_listed.2 (.inr ⟨f, hf, List.mem_cons_self⟩)
  exact (hm.writable _ hlisted).isSome_resultId .function (hm.functions f hf).function
    (by decide)

theorem Sound.isSome_of_path (hm : m.Sound) {function target : Handle}
    (hfunction : (m.inst function).resultId.isSome)
    (hpath : ReflTransGen m.Calls function target) : (m.inst target).resultId.isSome := by
  obtain rfl | ⟨_, -, f, hf, -, h, hh, arguments, hkind⟩ := hpath.cases_tail
  · exact hfunction
  · exact (hm.usable_of_kindOf (h := h) (by simp [hkind, Kind.references, Kind.operands])).isSome

theorem Sound.staticallyUses_leaf (hm : m.Sound) (hf : f ∈ m.functions)
    (hcalls : ∀ h ∈ f.handles, ∀ callee arguments, m.kindOf h ≠ .functionCall callee arguments) :
    m.StaticallyUses f.function v ↔ (m.kindOf v).isPort ∧ ∃ h ∈ f.handles, m.RefersTo h v := by
  refine and_congr_right fun _ => ⟨?_, fun hmention => ⟨f, hf, .refl, hmention⟩⟩
  rintro ⟨g, hg, hpath, hmention⟩
  obtain heq | ⟨callee, ⟨f', hf', heq, h, hh, arguments, hkind⟩, -⟩ := hpath.cases_head
  · obtain rfl := hm.eq_of_function_eq hf hg heq
    exact hmention
  · obtain rfl := hm.eq_of_function_eq hf' hf heq
    exact absurd hkind (hcalls h hh callee arguments)

/-! ## Functions that forward -/

/-- A function that calls one other function, and mentions no variables of inputs or outputs
but these and those that the other function mentions. -/
structure Forwards (m : Module) (w f : FunctionDef) (ports : List Handle) : Prop where
  mem : w ∈ m.functions ∧ f ∈ m.functions
  call : ∃ h ∈ w.handles, ∃ arguments, m.kindOf h = .functionCall f.function arguments
  callee : ∀ h ∈ w.handles, ∀ callee arguments, m.kindOf h = .functionCall callee arguments →
    callee = f.function
  unread : ∀ h ∈ w.handles, (m.kindOf h).unread = []
  mentioned : ∀ v ∈ ports, ∃ h ∈ w.handles, v ∈ (m.inst h).references
  mentions : ∀ h ∈ w.handles, ∀ v ∈ (m.inst h).references, (m.kindOf v).isPort →
    v ∈ ports ∨ ∃ g ∈ f.handles, v ∈ (m.inst g).references

/-- A forwarding function uses what it mentions itself and what the other function uses. -/
theorem Forwards.staticallyUses_iff (hw : m.Forwards w f ports) (hm : m.Sound) :
    m.StaticallyUses w.function v ↔
      v ∈ ports ∧ (m.kindOf v).isPort ∨ m.StaticallyUses f.function v := by
  constructor
  · rintro ⟨hport, g, hg, hpath, h, hh, hrefers⟩
    obtain heq | ⟨c, hcall, hrest⟩ := hpath.cases_head
    · obtain rfl := hm.eq_of_function_eq hw.mem.1 hg heq
      obtain hr | hr := hrefers
      · obtain hv | ⟨h', hh', hr'⟩ := hw.mentions h hh v hr hport
        · exact .inl ⟨hv, hport⟩
        · exact .inr ⟨hport, f, hw.mem.2, .refl, h', hh', .inl hr'⟩
      · rw [hw.unread h hh] at hr
        cases hr
    · obtain ⟨w', hw', heq, h', hh', arguments, hkind⟩ := hcall
      obtain rfl := hm.eq_of_function_eq hw' hw.mem.1 heq
      obtain rfl := hw.callee h' hh' c arguments hkind
      exact .inr ⟨hport, g, hg, hrest, h, hh, hrefers⟩
  · rintro (⟨hv, hport⟩ | ⟨hport, g, hg, hpath, hmention⟩)
    · obtain ⟨h, hh, hr⟩ := hw.mentioned v hv
      exact ⟨hport, w, hw.mem.1, .refl, h, hh, .inl hr⟩
    · obtain ⟨h, hh, arguments, hkind⟩ := hw.call
      exact ⟨hport, g, hg, .head ⟨w, hw.mem.1, rfl, h, hh, arguments, hkind⟩ hpath, hmention⟩

/-- An entry point whose function forwards lists what is used if all that it lists are ports
and the other function uses nothing else. -/
theorem Forwards.lists_iff {e : EntryPoint Handle} (hw : m.Forwards w f e.interface)
    (hm : m.Sound) (he : w.function = e.function) : m.Lists e ↔
      (∀ v ∈ e.interface, (m.kindOf v).isPort) ∧ ∀ v, m.StaticallyUses f.function v →
        v ∈ e.interface := by
  rw [Lists, ← he]
  constructor
  · intro hall
    exact ⟨fun v hv => ((hall v).1 hv).1,
      fun v hv => (hall v).2 ((hw.staticallyUses_iff hm).2 (.inr hv))⟩
  · rintro ⟨hports, hall⟩ v
    rw [hw.staticallyUses_iff hm]
    exact ⟨fun hv => .inl ⟨hv, hports v hv⟩, fun huses => huses.elim And.left (hall v)⟩

theorem Forwards.continues (hw : m.Forwards w f ports) (hm : m.Sound) (hmm : m.Continues m') :
    m'.Forwards w f ports := by
  have hinst {g : FunctionDef} (hg : g ∈ m.functions) {h : Handle} (hh : h ∈ g.handles) :
      m'.inst h = m.inst h := hmm.inst_eq (hm.stored_of_handles hg hh)
  have hkind {h : Handle} (hh : h ∈ w.handles) : m'.kindOf h = m.kindOf h :=
    congrArg Inst.kind (hinst hw.mem.1 hh)
  obtain ⟨fs, hfs, -⟩ := hmm.functions
  refine ⟨?_, ?_, ?_, ?_, ?_, ?_⟩
  · rw [hfs]
    exact ⟨List.mem_append_left _ hw.mem.1, List.mem_append_left _ hw.mem.2⟩
  · obtain ⟨h, hh, arguments, heq⟩ := hw.call
    exact ⟨h, hh, arguments, (hkind hh).trans heq⟩
  · intro h hh callee arguments heq
    exact hw.callee h hh callee arguments ((hkind hh).symm.trans heq)
  · intro h hh
    rw [hkind hh, hw.unread h hh]
  · intro v hv
    obtain ⟨h, hh, hr⟩ := hw.mentioned v hv
    exact ⟨h, hh, by rwa [hinst hw.mem.1 hh]⟩
  · intro h hh v hr hport
    rw [hinst hw.mem.1 hh] at hr
    rw [hmm.kindOf_eq (hm.references h v hr).stored] at hport
    refine (hw.mentions h hh v hr hport).imp_right ?_
    rintro ⟨g, hg, hr'⟩
    exact ⟨g, hg, by rwa [hinst hw.mem.2 hg]⟩

/-! ## Functions that were there before -/

structure KeepsFunctions (m m' : Module) : Prop where
  functions : ∃ fs, m'.functions = m.functions ++ fs ∧
    ∀ f ∈ fs, (m.inst f.function).resultId = none
  insts : ∀ f ∈ m.functions, ∀ h ∈ f.handles, m'.inst h = m.inst h

namespace KeepsFunctions

variable (hmm : m.KeepsFunctions m')

include hmm

theorem mem_functions_iff (hf : (m.inst f.function).resultId.isSome) :
    f ∈ m'.functions ↔ f ∈ m.functions := by
  obtain ⟨fs, hfs, hfresh⟩ := hmm.functions
  rw [hfs, List.mem_append]
  refine ⟨fun hmem => hmem.elim id fun hnew => ?_, .inl⟩
  rw [hfresh f hnew] at hf
  cases hf

theorem calls_iff {caller callee : Handle} (hcaller : (m.inst caller).resultId.isSome) :
    m'.Calls caller callee ↔ m.Calls caller callee := by
  constructor
  · rintro ⟨f, hf, rfl, h, hh, arguments, hkind⟩
    have hf := (hmm.mem_functions_iff hcaller).1 hf
    rw [kindOf, hmm.insts f hf h hh] at hkind
    exact ⟨f, hf, rfl, h, hh, arguments, hkind⟩
  · rintro ⟨f, hf, rfl, h, hh, arguments, hkind⟩
    refine ⟨f, (hmm.mem_functions_iff hcaller).2 hf, rfl, h, hh, arguments, ?_⟩
    rw [kindOf, hmm.insts f hf h hh]
    exact hkind

theorem path_iff (hm : m.Sound) {function target : Handle}
    (hfunction : (m.inst function).resultId.isSome) :
    ReflTransGen m'.Calls function target ↔ ReflTransGen m.Calls function target := by
  constructor
  · intro hpath
    induction hpath with
    | refl => exact .refl
    | tail _ hcall ih => exact ih.tail ((hmm.calls_iff (hm.isSome_of_path hfunction ih)).1 hcall)
  · intro hpath
    induction hpath with
    | refl => exact .refl
    | tail hpath hcall ih =>
        exact ih.tail ((hmm.calls_iff (hm.isSome_of_path hfunction hpath)).2 hcall)

/-- What a function that was there uses of what was there, it used before. -/
theorem staticallyUses_iff (hm : m.Sound) (hf : f ∈ m.functions)
    (hport : (m'.kindOf v).isPort = (m.kindOf v).isPort) (hid : m'.idOf v = m.idOf v) :
    m'.StaticallyUses f.function v ↔ m.StaticallyUses f.function v := by
  have hid' := hm.isSome_function hf
  rw [StaticallyUses, StaticallyUses, hport]
  refine and_congr_right fun _ => ?_
  have hrefers {g : FunctionDef} (hg : g ∈ m.functions) {h : Handle} (hh : h ∈ g.handles) :
      m'.RefersTo h v ↔ m.RefersTo h v := by
    rw [RefersTo, RefersTo, kindOf, kindOf, hmm.insts g hg h hh, hid]
  refine ⟨?_, ?_⟩
  · rintro ⟨g, hg, hpath, h, hh, hmention⟩
    rw [hmm.path_iff hm hid'] at hpath
    have hg := (hmm.mem_functions_iff (hm.isSome_of_path hid' hpath)).1 hg
    exact ⟨g, hg, hpath, h, hh, (hrefers hg hh).1 hmention⟩
  · rintro ⟨g, hg, hpath, h, hh, hmention⟩
    refine ⟨g, (hmm.mem_functions_iff (hm.isSome_of_path hid' hpath)).2 hg, ?_, h, hh,
      (hrefers hg hh).2 hmention⟩
    rwa [hmm.path_iff hm hid']

end KeepsFunctions

theorem Continues.keepsFunctions (hmm : m.Continues m') (hm : m.Sound) :
    m.KeepsFunctions m' := by
  obtain ⟨fs, hfs, hfresh⟩ := hmm.functions
  refine ⟨⟨fs, hfs, fun f hf => ?_⟩, fun _ hf _ hh => hmm.inst_eq (hm.stored_of_handles hf hh)⟩
  rw [inst, hfresh f hf]
  rfl

theorem KeepsFunctions.trans {m'' : Module} (h₁ : m.KeepsFunctions m')
    (h₂ : m'.KeepsFunctions m'') (hids : m.KeepsIds m') : m.KeepsFunctions m'' := by
  obtain ⟨fs, hfs, hfresh⟩ := h₁.functions
  obtain ⟨fs', hfs', hfresh'⟩ := h₂.functions
  refine ⟨⟨fs ++ fs', by rw [hfs', hfs, List.append_assoc], ?_⟩, fun f hf h hh => ?_⟩
  · refine List.forall_mem_append.2 ⟨hfresh, fun f hf => Option.eq_none_iff_forall_ne_some.2 ?_⟩
    intro id hid
    cases (hids _ id hid).symm.trans (hfresh' f hf)
  · rw [h₂.insts f (by rw [hfs]; exact List.mem_append_left _ hf) h hh, h₁.insts f hf h hh]

end Module

end KernelGrid
