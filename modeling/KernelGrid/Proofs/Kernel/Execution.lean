import Mathlib.Data.List.Induction
import Mathlib.Logic.Function.Basic
import KernelGrid.Proofs.Kernel.EntryPoint

/-!
# Running the code of an entry point

The integer instructions of an entry point compute words and vectors of words from constants
and from what the variables of built-in values hold.  Run to its end, the code of a cell
numbers the cell.
-/

namespace KernelGrid

inductive Value where
  | word (w : Word)
  | vector (parts : List Word)
deriving DecidableEq, Repr

namespace Value

def word? : Value → Option Word
  | word w => some w
  | vector _ => none

def part? : Value → Word → Option Word
  | word _, _ => none
  | vector parts, n => parts[n.toNat]?

end Value

structure Invocation where
  cell : Extent
  extent : Extent

def Invocation.builtIn? (i : Invocation) (builtIn : Word) : Option Value :=
  if builtIn = BuiltIn.globalInvocationId then some (.vector i.cell.toList)
  else if builtIn = BuiltIn.numWorkgroups then some (.vector i.extent.toList)
  else none

namespace Module

variable (m : Module) (i : Invocation)

def wordConstant? (h : Handle) : Option Word :=
  match m.kindOf h, (m.typeOf? h).map m.kindOf with
  | .constant [w], some (.typeInt 32 _) => some w
  | _, _ => none

def constant? (h : Handle) : Option Value :=
  match m.kindOf h with
  | .constantComposite parts => (parts.mapM m.wordConstant?).map .vector
  | _ => (m.wordConstant? h).map .word

/-- The value of an operand, which is a constant or was computed. -/
def operand? (computed : Handle → Option Value) (h : Handle) : Option Value :=
  m.constant? h <|> computed h

/-- What an instruction yields.  Of instructions that are not about integers nothing is known. -/
def yield? (computed : Handle → Option Value) (h : Handle) : Option Value :=
  match m.kindOf h with
  | .load pointer _ => (m.builtIns pointer).head?.bind i.builtIn?
  | .compositeExtract composite [n] =>
    ((m.operand? computed composite).bind (·.part? n)).map .word
  | .iAdd a b => do
    let x ← (← m.operand? computed a).word?
    let y ← (← m.operand? computed b).word?
    return .word (x + y)
  | .iMul a b => do
    let x ← (← m.operand? computed a).word?
    let y ← (← m.operand? computed b).word?
    return .word (x * y)
  | _ => none

def execute (code : List Handle) : Handle → Option Value :=
  code.foldl (fun computed h => Function.update computed h (m.yield? i computed h)) fun _ => none

def valueAfter (done : List Handle) (h : Handle) : Option Value :=
  m.operand? (m.execute i done) h

end Module

namespace Module

variable {m : Module} {i : Invocation} {done rest : List Handle} {h g : Handle} {v : Value}

theorem execute_append_singleton : m.execute i (done ++ [h]) =
    Function.update (m.execute i done) h (m.yield? i (m.execute i done) h) := by
  rw [execute, List.foldl_append]
  rfl

/-- Instructions yield their values once. -/
theorem execute_append_of_not_mem (hg : g ∉ rest) :
    m.execute i (done ++ rest) g = m.execute i done g := by
  induction rest using List.reverseRecOn with
  | nil => rw [List.append_nil]
  | append_singleton rest h ih =>
      rw [List.mem_append, List.mem_singleton, not_or] at hg
      rw [← List.append_assoc, execute_append_singleton, Function.update_of_ne hg.2, ih hg.1]

theorem operand?_of_constant {computed : Handle → Option Value} (hv : m.constant? h = some v) :
    m.operand? computed h = some v := by
  rw [operand?, hv]
  rfl

/-! ## Constants -/

theorem Describes.typeOf?_eq {type : Handle} {kind : Kind Handle}
    (hh : m.Describes h ⟨some type, kind⟩) : m.typeOf? h = some type := by
  obtain ⟨inst, hget, hd⟩ := hh
  rw [typeOf?, inst_of_get? hget]
  unfold Inst.description? at hd
  split at hd
  · cases hd
  split at hd
  · exact congrArg Description.type (Option.some.inj hd)
  · cases hd

theorem wordConstant?_of_describes {word : Handle} {w : Word}
    (hword : m.Describes word ⟨none, .typeInt 32 false⟩)
    (hh : m.Describes h ⟨some word, .constant [w]⟩) : m.wordConstant? h = some w := by
  rw [wordConstant?, hh.kindOf_eq, hh.typeOf?_eq, Option.map_some, hword.kindOf_eq]
  rfl

theorem constant?_of_describes {word : Handle} {w : Word}
    (hword : m.Describes word ⟨none, .typeInt 32 false⟩)
    (hh : m.Describes h ⟨some word, .constant [w]⟩) : m.constant? h = some (.word w) := by
  rw [constant?, hh.kindOf_eq]
  simp only
  rw [wordConstant?_of_describes hword hh, Option.map_some]

theorem constant?_composite {word type : Handle} {w : Word} {parts : List Handle}
    (hword : m.Describes word ⟨none, .typeInt 32 false⟩)
    (hparts : ∀ p ∈ parts, m.Describes p ⟨some word, .constant [w]⟩)
    (hh : m.Describes h ⟨some type, .constantComposite parts⟩) :
    m.constant? h = some (.vector (parts.map fun _ => w)) := by
  rw [constant?, hh.kindOf_eq]
  simp only
  have hmap : parts.map m.wordConstant? = (parts.map fun _ => w).map some := by
    rw [List.map_map]
    exact List.map_congr_left fun p hp => wordConstant?_of_describes hword (hparts p hp)
  rw [mapM_eq_some.2 hmap, Option.map_some]

/-! ## Values that are known -/

def Knows (m : Module) (i : Invocation) (done : List Handle) (facts : List (Handle × Value)) :
    Prop :=
  ∀ p ∈ facts, m.constant? p.1 = some p.2 ∨
    m.constant? p.1 = none ∧ p.1 ∈ done ∧ m.execute i done p.1 = some p.2

variable {facts : List (Handle × Value)}

theorem Knows.valueAfter_eq (hknows : m.Knows i done facts) (hmem : (h, v) ∈ facts) :
    m.valueAfter i done h = some v := by
  obtain hconstant | ⟨hnone, -, hcomputed⟩ := hknows _ hmem
  · exact operand?_of_constant hconstant
  · rw [valueAfter, operand?, hnone]
    exact hcomputed

theorem Knows.append (hknows : m.Knows i done facts) (hdisjoint : ∀ g ∈ done, g ∉ rest) :
    m.Knows i (done ++ rest) facts := by
  intro p hp
  refine (hknows p hp).imp id fun ⟨hnone, hmem, hcomputed⟩ => ⟨hnone, ?_, ?_⟩
  · exact List.mem_append_left _ hmem
  · rw [execute_append_of_not_mem (hdisjoint _ hmem), hcomputed]

theorem Knows.run (hknows : m.Knows i done facts) (hfresh : h ∉ done)
    (hconstant : m.constant? h = none) (hyield : m.yield? i (m.execute i done) h = some v) :
    m.Knows i (done ++ [h]) ((h, v) :: facts) := by
  refine List.forall_mem_cons.2 ⟨.inr ⟨hconstant, by simp, ?_⟩, ?_⟩
  · rw [execute_append_singleton, Function.update_self, hyield]
  · exact hknows.append fun g hg hmem => hfresh (List.mem_singleton.1 hmem ▸ hg)

theorem Holds.constant?_eq_none {l : Line} (hl : m.Holds l) (hkind : ¬l.kind.isConstant) :
    m.constant? l.handle = none := by
  rw [constant?, wordConstant?, hl.kindOf_eq]
  generalize l.kind = k at hkind
  cases k
  case constant | constantComposite => exact absurd rfl hkind
  all_goals rfl

/-- Whether each of the lines yields its value, given what is known before the first one. -/
def Yields (m : Module) (i : Invocation) : List (Handle × Value) → List (Line × Value) → Prop
  | _, [] => True
  | facts, (l, v) :: steps =>
    (∀ done, m.Knows i done facts → m.yield? i (m.execute i done) l.handle = some v) ∧
      Yields m i ((l.handle, v) :: facts) steps

theorem Knows.lines {steps : List (Line × Value)} (hknows : m.Knows i done facts)
    (hyields : m.Yields i facts steps) (hholds : ∀ l ∈ steps.map Prod.fst, m.Holds l)
    (hkinds : ∀ l ∈ steps.map Prod.fst, ¬l.kind.isConstant)
    (hnodup : (done ++ (steps.map Prod.fst).map Line.handle).Nodup) :
    ∃ facts', m.Knows i (done ++ (steps.map Prod.fst).map Line.handle) (facts' ++ facts) ∧
      ∀ s ∈ steps, (s.1.handle, s.2) ∈ facts' := by
  induction steps generalizing done facts with
  | nil =>
      refine ⟨[], ?_, by simp⟩
      simpa using hknows
  | cons s steps ih =>
      obtain ⟨l, v⟩ := s
      rw [List.map_cons, List.forall_mem_cons] at hholds hkinds
      obtain ⟨hyield, hyields⟩ := hyields
      rw [List.map_cons, List.map_cons, List.append_cons] at hnodup ⊢
      have hfresh : l.handle ∉ done := by
        have hdone := (List.nodup_append.1 (List.nodup_append.1 hnodup).1).2.2
        exact fun hmem => hdone _ hmem _ List.mem_cons_self rfl
      have hnext := hknows.run hfresh (hholds.1.constant?_eq_none hkinds.1) (hyield done hknows)
      obtain ⟨facts', hall, hmem⟩ := ih hnext hyields hholds.2 hkinds.2 hnodup
      refine ⟨facts' ++ [(l.handle, v)], by simpa using hall, ?_⟩
      rw [List.forall_mem_cons]
      exact ⟨by simp, fun s hs => List.mem_append_left _ (hmem s hs)⟩

/-! ## Instructions -/

section

variable {type : Option Handle}

theorem yield?_load {pointer : Handle} {builtIn : Word} {computed : Handle → Option Value}
    (hl : m.Holds ⟨h, type, .load pointer []⟩) (hone : m.HoldsOne)
    (hvar : m.IsBuiltInVar pointer builtIn) : m.yield? i computed h = i.builtIn? builtIn := by
  rw [yield?, hl.kindOf_eq]
  dsimp only
  have hhead : (m.builtIns pointer).head? = some builtIn := by
    cases hvalues : m.builtIns pointer with
    | nil => simpa [hvalues] using hvar.declared
    | cons b bs =>
        have hb : b ∈ m.builtIns pointer := by simp [hvalues]
        rw [List.head?_cons, hone pointer hvar.isVar b hb builtIn hvar.declared]
  rw [hhead]
  rfl

theorem Knows.compositeExtract {composite : Handle} (parts : List Word) {n w : Word}
    (hknows : m.Knows i done facts) (hl : m.Holds ⟨h, type, .compositeExtract composite [n]⟩)
    (hmem : (composite, .vector parts) ∈ facts) (hpart : parts[n.toNat]? = some w) :
    m.yield? i (m.execute i done) h = some (.word w) := by
  have hvalue : m.operand? (m.execute i done) composite = some (.vector parts) :=
    hknows.valueAfter_eq hmem
  rw [yield?, hl.kindOf_eq]
  dsimp only
  rw [hvalue, Option.bind_some, Value.part?, hpart, Option.map_some]

theorem Knows.iAdd {a b : Handle} {x y : Word} (hknows : m.Knows i done facts)
    (hl : m.Holds ⟨h, type, .iAdd a b⟩) (ha : (a, .word x) ∈ facts) (hb : (b, .word y) ∈ facts) :
    m.yield? i (m.execute i done) h = some (.word (x + y)) := by
  have hx : m.operand? (m.execute i done) a = some (.word x) := hknows.valueAfter_eq ha
  have hy : m.operand? (m.execute i done) b = some (.word y) := hknows.valueAfter_eq hb
  rw [yield?, hl.kindOf_eq]
  dsimp only
  rw [hx, hy]
  rfl

theorem Knows.iMul {a b : Handle} {x y : Word} (hknows : m.Knows i done facts)
    (hl : m.Holds ⟨h, type, .iMul a b⟩) (ha : (a, .word x) ∈ facts) (hb : (b, .word y) ∈ facts) :
    m.yield? i (m.execute i done) h = some (.word (x * y)) := by
  have hx : m.operand? (m.execute i done) a = some (.word x) := hknows.valueAfter_eq ha
  have hy : m.operand? (m.execute i done) b = some (.word y) := hknows.valueAfter_eq hb
  rw [yield?, hl.kindOf_eq]
  dsimp only
  rw [hx, hy]
  rfl

end

/-! ## The code of a cell -/

def cellSteps (c : CellCode) (i : Invocation) : List (Line × Value) :=
  let ⟨x, y, z⟩ := i.cell
  let ⟨nx, ny, _⟩ := i.extent
  c.lines.zip
    [.vector i.cell.toList, .word x, .word y, .word z, .word 1, .word 1, .vector i.extent.toList,
      .word nx, .word ny, .word (1 * nx), .word (1 * ny), .word (1 * ny * z),
      .word (y + 1 * ny * z), .word (1 * nx * (y + 1 * ny * z)),
      .word (1 * nx * (y + 1 * ny * z) + x)]

theorem yields_cellSteps {c : CellCode} (hholds : ∀ l ∈ c.lines, m.Holds l) (hc : c.Operands m)
    (hone : m.HoldsOne) :
    m.Yields i [(c.groupSize, .vector [1, 1, 1])] (cellSteps c i) := by
  simp only [CellCode.lines, List.forall_mem_cons] at hholds
  obtain ⟨h₁, h₂, h₃, h₄, h₅, h₆, h₇, h₈, h₉, h₁₀, h₁₁, h₁₂, h₁₃, h₁₄, h₁₅, -⟩ := hholds
  refine ⟨fun _ _ => yield?_load h₁ hone hc.invocationId, ?_⟩
  refine ⟨fun _ hknows => hknows.compositeExtract i.cell.toList h₂ (by simp) rfl, ?_⟩
  refine ⟨fun _ hknows => hknows.compositeExtract i.cell.toList h₃ (by simp) rfl, ?_⟩
  refine ⟨fun _ hknows => hknows.compositeExtract i.cell.toList h₄ (by simp) rfl, ?_⟩
  refine ⟨fun _ hknows => hknows.compositeExtract [1, 1, 1] h₅ (by simp) rfl, ?_⟩
  refine ⟨fun _ hknows => hknows.compositeExtract [1, 1, 1] h₆ (by simp) rfl, ?_⟩
  refine ⟨fun _ _ => yield?_load h₇ hone hc.numWorkgroups, ?_⟩
  refine ⟨fun _ hknows => hknows.compositeExtract i.extent.toList h₈ (by simp) rfl, ?_⟩
  refine ⟨fun _ hknows => hknows.compositeExtract i.extent.toList h₉ (by simp) rfl, ?_⟩
  refine ⟨fun _ hknows => hknows.iMul h₁₀ (by simp) (by simp), ?_⟩
  refine ⟨fun _ hknows => hknows.iMul h₁₁ (by simp) (by simp), ?_⟩
  refine ⟨fun _ hknows => hknows.iMul h₁₂ (by simp) (by simp), ?_⟩
  refine ⟨fun _ hknows => hknows.iAdd h₁₃ (by simp) (by simp), ?_⟩
  refine ⟨fun _ hknows => hknows.iMul h₁₄ (by simp) (by simp), ?_⟩
  exact ⟨fun _ hknows => hknows.iAdd h₁₅ (by simp) (by simp), trivial⟩

end Module

end KernelGrid
