import KernelGrid.Module.Encoding
import KernelGrid.Proofs.Kernel.Operations

/-!
# Commands of a builder

Everything that a builder can be asked for, in one type, and all that a single command can do:
it fails, or it adds one instruction in one place, or a type or constant is found.  What a
failed command leaves behind is known exactly, and so are the sequences in which failures do
not matter.
-/

namespace KernelGrid

namespace Kind

def returns {ρ : Type} : Kind ρ → Bool
  | ret | retValue _ => true
  | _ => false

end Kind

namespace Builder

open KernelGrid.Module

/-! ## Emitters -/

inductive Emitter where
  | load (type pointer : Handle)
  | store (pointer object : Handle)
  | compositeExtract (type composite : Handle) (indices : List Word)
  | iAdd (type a b : Handle)
  | iMul (type a b : Handle)
  | accessChain (type base : Handle) (indices : List Handle)
  | functionCall (type function : Handle) (arguments : List Handle)
  | ret
  | retValue (value : Handle)

namespace Emitter

def type? : Emitter → Option Handle
  | load type _ | compositeExtract type _ _ | iAdd type _ _ | iMul type _ _
  | accessChain type _ _ | functionCall type _ _ => some type
  | store _ _ | ret | retValue _ => none

def kind : Emitter → Kind Handle
  | load _ pointer => .load pointer []
  | store pointer object => .store pointer object []
  | compositeExtract _ composite indices => .compositeExtract composite indices
  | iAdd _ a b => .iAdd a b
  | iMul _ a b => .iMul a b
  | accessChain _ base indices => .accessChain base indices
  | functionCall _ function arguments => .functionCall function arguments
  | ret => .ret
  | retValue value => .retValue value

def ends : Emitter → Bool
  | ret | retValue _ => true
  | _ => false

@[simp] theorem returns_kind (e : Emitter) : e.kind.returns = e.ends := by
  cases e <;> rfl

/-- What is asked of the builder.  The end of a block is not handed out. -/
def emit : Emitter → Build (Option Handle)
  | load type pointer => some <$> Builder.load type pointer
  | store pointer object => some <$> Builder.store pointer object
  | compositeExtract type composite indices =>
      some <$> Builder.compositeExtract type composite indices
  | iAdd type a b => some <$> Builder.iAdd type a b
  | iMul type a b => some <$> Builder.iMul type a b
  | accessChain type base indices => some <$> Builder.accessChain type base indices
  | functionCall type function arguments => some <$> Builder.functionCall type function arguments
  | ret => (fun _ => none) <$> Builder.ret
  | retValue value => (fun _ => none) <$> Builder.retValue value

end Emitter

def takeId (b : Builder) (taken : Bool) : Builder :=
  { b with module.header.bound :=
      if taken then Word.next b.module.header.bound else b.module.header.bound }

@[simp] theorem takeId_false (b : Builder) : b.takeId false = b := rfl

theorem takeId_eq_self {b : Builder} {taken : Bool} :
    b.takeId taken = b ↔ taken = false ∨ b.module.header.bound = 0xffffffff := by
  cases taken with
  | false => simp
  | true =>
      rw [← Word.next_eq_self]
      constructor
      · exact fun heq => .inr (congrArg (fun b : Builder => b.module.header.bound) heq)
      · rintro (hid | hmax)
        · cases hid
        · rw [takeId, if_pos rfl, hmax]

def written (b : Builder) (m₁ : Module) (i j : Nat) (h : Handle) : Builder :=
  { b with module := { m₁ with functions := m₁.functions.modify i fun f =>
      { f with blocks := f.blocks.modify j fun b' => { b' with body := b'.body ++ [h] } } } }

theorem unselected_or_selected (b : Builder) :
    (b.function = none ∨ b.block = none) ∨ ∃ i j, b.function = some i ∧ b.block = some j := by
  cases b.function <;> cases b.block <;> simp

/-- Without a function and a block selected, a result still takes an id. -/
theorem Emitter.emit_of_unselected (e : Emitter) {b : Builder}
    (hb : b.function = none ∨ b.block = none) :
    ∃ s, e.emit b = (.error (.detached s), b.takeId e.type?.isSome) := by
  obtain ⟨m, function, block⟩ := b
  cases function with
  | none => cases e <;> exact ⟨.function, rfl⟩
  | some function =>
      cases block with
      | none => cases e <;> exact ⟨.block, rfl⟩
      | some block => exact absurd hb (by simp)

theorem Emitter.emit_of_selected (e : Emitter) {b : Builder} {i j : Nat}
    (hfunction : b.function = some i) (hblock : b.block = some j) :
    ∃ h m₁ id, b.module.Puts ⟨e.type?, id, e.kind⟩ h m₁ ∧
      e.emit b = (.ok (if e.ends then none else some h),
        { b.written m₁ i j h with block := if e.ends then none else some j }) := by
  obtain ⟨m, function, block⟩ := b
  cases hfunction
  cases hblock
  cases e with
  | load | compositeExtract | iAdd | iMul | accessChain | functionCall =>
      exact ⟨_, _, _, puts_define rfl, rfl⟩
  | store | ret | retValue => exact ⟨_, _, _, puts_append rfl rfl, rfl⟩

theorem Emitter.selected_of_runs {e : Emitter} {b b' : Builder} {made : Option Handle}
    (hrun : Runs e.emit b made b') : ∃ i j, b.function = some i ∧ b.block = some j := by
  obtain hnone | hselected := b.unselected_or_selected
  · obtain ⟨s, hfail⟩ := e.emit_of_unselected hnone
    exact nomatch hrun.symm.trans hfail
  · exact hselected

/-! ## Commands -/

/-- What a builder, or the module under it, is asked for. -/
inductive Command where
  | beginFunction (result : Handle) (control : Word) (type : Handle)
  | functionParameter (type : Handle)
  | beginBlock
  | emit (e : Emitter)
  | request (r : Request)
  | freshStructType (members : List Handle)

namespace Command

def run : Command → Build (Option Handle)
  | beginFunction result control type => some <$> Builder.beginFunction result control type
  | functionParameter type => some <$> Builder.functionParameter type
  | beginBlock => some <$> Builder.beginBlock
  | emit e => e.emit
  | request r => some <$> edit r.make
  | freshStructType members => some <$> edit (Module.freshStructType members)

def extendsFunction : Command → Bool
  | functionParameter _ | beginBlock => true
  | _ => false

def declares : Command → Bool
  | request _ | freshStructType _ => true
  | _ => false

/-- Whether an id is taken before it is known that there is a place for the instruction. -/
def takesId : Command → Bool
  | emit e => e.type?.isSome
  | _ => false

/-- The handle of what the command adds or finds, if it succeeds.  The end of a block, which is
not handed out, is stored under the next handle. -/
def made? (c : Command) (b : Builder) : Option Handle :=
  (c.run b).1.toOption.map fun made => made.getD b.module.insts.nextHandle

end Command

/-! ## Single commands -/

/-- What a command can come to, with the handle of what it made and the builder afterwards. -/
inductive Step (b : Builder) : Command → Option Handle → Builder → Prop
  | began (result : Handle) (control : Word) (type : Handle) {id : Option ResultId} {h : Handle}
    {m₁ : Module} (hputs : b.module.Puts ⟨some result, id, .function control type⟩ h m₁)
    {functions : List FunctionDef} (hfunctions : functions = m₁.functions ++ [.empty h]) :
    Step b (.beginFunction result control type) (some h)
      ⟨{ m₁ with functions }, some (functions.length - 1), none⟩
  | noFunction {c : Command} (hc : c.extendsFunction) (hfunction : b.function = none) :
    Step b c none b
  | took (type : Handle) {i : Nat} {id : Option ResultId} {h : Handle} {m₁ : Module}
    (hfunction : b.function = some i)
    (hputs : b.module.Puts ⟨some type, id, .functionParameter⟩ h m₁) :
    Step b (.functionParameter type) (some h)
      { b with module := { m₁ with functions := m₁.functions.modify i fun f =>
        { f with parameters := f.parameters ++ [h] } } }
  | opened {i : Nat} {id : Option ResultId} {h : Handle} {m₁ : Module}
    (hfunction : b.function = some i) (hputs : b.module.Puts ⟨none, id, .label⟩ h m₁)
    {functions : List FunctionDef}
    (hfunctions : functions = m₁.functions.modify i fun f =>
      { f with blocks := f.blocks ++ [⟨h, []⟩] }) :
    Step b .beginBlock (some h) { b with
      module := { m₁ with functions }
      block := functions[i]?.map fun f => f.blocks.length - 1 }
  | unselected (e : Emitter) (hb : b.function = none ∨ b.block = none) :
    Step b (.emit e) none (b.takeId e.type?.isSome)
  | emitted (e : Emitter) {i j : Nat} {id : Option ResultId} {h : Handle} {m₁ : Module}
    (hfunction : b.function = some i) (hblock : b.block = some j)
    (hputs : b.module.Puts ⟨e.type?, id, e.kind⟩ h m₁) :
    Step b (.emit e) (some h)
      { b.written m₁ i j h with block := if e.ends then none else some j }
  | found (r : Request) (h : Handle) : Step b (.request r) (some h) b
  | declared {c : Command} (hc : c.declares) {i : Inst Handle} {h : Handle} {m₁ : Module}
    (hputs : b.module.Puts i h m₁) (interned : List (Description × Handle))
    (distinct : List Handle) : Step b c (some h)
      { b with module := { m₁ with globals := m₁.globals ++ [h], interned, distinct } }

theorem Emitter.step (e : Emitter) (b : Builder) :
    Step b (.emit e) ((Command.emit e).made? b) ((Command.emit e).run b).2 := by
  obtain hnone | ⟨i, j, hfunction, hblock⟩ := b.unselected_or_selected
  · obtain ⟨s, hrun⟩ := e.emit_of_unselected hnone
    rw [Command.made?, Command.run, hrun]
    exact .unselected e hnone
  · obtain ⟨h, m₁, id, hputs, hrun⟩ := e.emit_of_selected hfunction hblock
    have hmade : (if e.ends then none else some h).getD b.module.insts.nextHandle = h := by
      split
      · exact hputs.handle.symm
      · rfl
    rw [Command.made?, Command.run, hrun, Except.toOption, Option.map_some, hmade]
    exact .emitted e hfunction hblock hputs

theorem Command.step (c : Command) (b : Builder) : Step b c (c.made? b) (c.run b).2 := by
  cases c with
  | emit e => exact e.step b
  | beginFunction result control type => exact .began result control type (puts_define rfl) rfl
  | functionParameter type =>
      obtain ⟨m, _ | i, block⟩ := b
      · exact .noFunction rfl rfl
      · exact .took type rfl (puts_define rfl)
  | beginBlock =>
      obtain ⟨m, _ | i, block⟩ := b
      · exact .noFunction rfl rfl
      · exact .opened rfl (puts_define rfl) rfl
  | freshStructType members => exact .declared rfl (puts_define rfl) _ _
  | request r =>
      rcases hintern : intern r.description b.module with ⟨h, m'⟩
      have hrun : (Command.request r).run b = (.ok (some h), { b with module := m' }) := by
        rw [← r.make_eq] at hintern
        exact runs_map.2 ⟨h, runs_edit.2 ⟨m', hintern, rfl⟩, rfl⟩
      rw [Command.made?, hrun]
      obtain ⟨-, rfl⟩ | ⟨m₁, hstored, rfl⟩ := intern_cases hintern
      · exact .found r h
      · exact .declared rfl (puts_define hstored) _ _

/-! ## Sequences of commands -/

/-- A command with the handle of what it made, if it succeeded. -/
structure Event where
  command : Command
  made? : Option Handle

/-- The commands one after the other, whether they succeed or not. -/
def runAll (b : Builder) : List Command → Builder
  | [] => b
  | c :: cs => runAll (c.run b).2 cs

/-- What comes of the commands, the first in front. -/
def events (b : Builder) : List Command → List Event
  | [] => []
  | c :: cs => ⟨c, c.made? b⟩ :: events (c.run b).2 cs

def succeeding (b : Builder) (cs : List Command) : List Command :=
  ((events b cs).filter fun ev => ev.made?.isSome).map (·.command)

def effective (b : Builder) (cs : List Command) : List Command :=
  ((events b cs).filter fun ev => ev.made?.isSome || ev.command.takesId).map (·.command)

theorem runAll_concat (b : Builder) (cs : List Command) (c : Command) :
    runAll b (cs ++ [c]) = (c.run (runAll b cs)).2 := by
  induction cs generalizing b with
  | nil => rfl
  | cons c' cs ih => exact ih (c'.run b).2

theorem events_concat (b : Builder) (cs : List Command) (c : Command) :
    events b (cs ++ [c]) = events b cs ++ [⟨c, c.made? (runAll b cs)⟩] := by
  induction cs generalizing b with
  | nil => rfl
  | cons c' cs ih => exact congrArg (List.cons _) (ih (c'.run b).2)

/-! ## Failures -/

/-- A failing command leaves nothing behind but an id that it may have taken. -/
theorem Command.state_of_failure {c : Command} {b : Builder} (hmade : c.made? b = none) :
    (c.run b).2 = b.takeId c.takesId := by
  have hstep := c.step b
  rw [hmade] at hstep
  generalize (c.run b).2 = b' at hstep
  cases hstep with
  | noFunction hc => cases c <;> first | rfl | cases hc
  | unselected e => rfl

theorem Command.made?_eq_none {c : Command} {b : Builder} :
    c.made? b = none ↔ ∃ err, (c.run b).1 = .error err := by
  rw [made?, Option.map_eq_none_iff]
  cases (c.run b).1 <;> simp [Except.toOption]

/-- The commands that fail and take no id might as well not be given. -/
theorem runAll_effective (b : Builder) (cs : List Command) :
    runAll b (effective b cs) = runAll b cs := by
  induction cs generalizing b with
  | nil => rfl
  | cons c cs ih =>
      have hrest := ih (c.run b).2
      by_cases heffect : ((c.made? b).isSome || c.takesId) = true
      · rw [effective, events, List.filter_cons_of_pos (by exact heffect)]
        exact hrest
      · rw [Bool.or_eq_true, not_or, Bool.not_eq_true, Option.isSome_eq_false_iff,
          Option.isNone_iff_eq_none, Bool.not_eq_true] at heffect
        -- What is left out has left the builder as it was.
        have hstate : (c.run b).2 = b := by
          rw [Command.state_of_failure heffect.1, heffect.2, takeId_false]
        rw [hstate] at hrest
        rw [effective, events, List.filter_cons_of_neg (by simp [heffect]), runAll, hstate]
        exact hrest

theorem effective_eq {b : Builder} {cs : List Command}
    (hcs : ∀ ev ∈ events b cs, ev.made? = none → ev.command.takesId = false) :
    effective b cs = succeeding b cs := by
  rw [effective, succeeding]
  congr 1
  apply List.filter_congr
  intro ev hev
  cases hmade : ev.made? with
  | some h => rfl
  | none => exact hcs ev hev hmade

/-- A failing command changes nothing but the bound of ids, and that only if it takes an id for
a result before it looks for a block.  So a module is written as without the failing commands
that take no id, and if there are no others, as without the failing commands. -/
theorem failures_leave (b : Builder) :
    (∀ c : Command, ∀ err b', c.run b = (.error err, b') →
      b' = b.takeId c.takesId ∧
      (b' = b ↔ c.takesId = false ∨ b.module.header.bound = 0xffffffff)) ∧
    ∀ cs : List Command,
      runAll b (effective b cs) = runAll b cs ∧
      (runAll b (effective b cs)).module.encode = (runAll b cs).module.encode ∧
      ((∀ ev ∈ events b cs, ev.made? = none → ev.command.takesId = false) →
        runAll b (succeeding b cs) = runAll b cs ∧
        (runAll b (succeeding b cs)).module.encode = (runAll b cs).module.encode) := by
  constructor
  · intro c err b' hrun
    have hmade : c.made? b = none := Command.made?_eq_none.2 ⟨err, by rw [hrun]⟩
    have hstate : b' = b.takeId c.takesId := by
      rw [← Command.state_of_failure hmade, hrun]
    refine ⟨hstate, ?_⟩
    rw [hstate]
    exact takeId_eq_self
  · intro cs
    have hrun := runAll_effective b cs
    refine ⟨hrun, by rw [hrun], fun hcs => ?_⟩
    rw [effective_eq hcs] at hrun
    exact ⟨hrun, by rw [hrun]⟩

def wordBuilder : Builder := start (unsignedType 32 .empty).2

/-- A sum of words, asked for where there is no function, fails and still moves the bound, so
what is written is not what is written without it. -/
theorem not_traceless_wordSum :
    ((Command.emit (.iAdd ⟨0⟩ ⟨0⟩ ⟨0⟩)).run wordBuilder).1 = .error (.detached .function) ∧
    ((Command.emit (.iAdd ⟨0⟩ ⟨0⟩ ⟨0⟩)).run wordBuilder).2 ≠ wordBuilder ∧
    (runAll wordBuilder (succeeding wordBuilder [.emit (.iAdd ⟨0⟩ ⟨0⟩ ⟨0⟩)])).module.encode ≠
      (runAll wordBuilder [.emit (.iAdd ⟨0⟩ ⟨0⟩ ⟨0⟩)]).module.encode := by
  refine ⟨rfl, fun heq => ?_, fun heq => ?_⟩
  · have hbound : (3 : Word) = 2 := congrArg (fun b : Builder => b.module.header.bound) heq
    exact absurd hbound (by decide)
  · have hwords : (Except.ok [0x7230203, 0x10000, 0, 2, 0, 0x40015, 1, 32, 0] :
        Except ModuleError (List Word)) =
          .ok [0x7230203, 0x10000, 0, 3, 0, 0x40015, 1, 32, 0] := heq
    exact absurd (Except.ok.inj hwords) (by decide)

end Builder

end KernelGrid
