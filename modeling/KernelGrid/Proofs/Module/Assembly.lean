import KernelGrid.Proofs.Inst.Item
import KernelGrid.Proofs.Module.Identifiers
import KernelGrid.Proofs.Module.Outline
import KernelGrid.Proofs.Module.WorkGroups
import Mathlib.Data.List.Induction
import Mathlib.Logic.Function.Basic

/-!
# Assembling

What a partly read module holds, described by the items that were read so far.  Every stored
instruction comes from one of them, each section lists what goes there, and entry points have the
sizes that were stated behind them.
-/

namespace KernelGrid

open KernelGrid.Stream

namespace Item

def entryPoint? : Item ResultId → Option (EntryPoint ResultId)
  | entryPoint e => some e
  | _ => none

def result? : Item ResultId → Option ResultId
  | inst i => i.resultId
  | _ => none

def mentions : Item ResultId → List ResultId
  | entryPoint e => e.references
  | functionEnd => []
  | inst i => i.references ++ i.resultId.toList

def extent? : Item ResultId → Option Extent
  | inst i =>
    match i.kind with
    | .executionMode _ _ [x, y, z] => some ⟨x, y, z⟩
    | _ => none
  | _ => none

end Item

/-! ## What was read -/

section Reading

variable {α : Type} (item : α → Item ResultId)

def after (xs : List α) : Context := Context.start.run (xs.map (Item.mark ∘ item))

def goesTo (xs : List α) (p : Place) : List α := inPlace (Item.mark ∘ item) .start xs p

def entries (xs : List α) : List (EntryPoint ResultId) :=
  (goesTo item xs .entryPoint).filterMap fun x => (item x).entryPoint?

/-- The size that was stated last for a function that has an entry point. -/
def statedSize? (xs : List α) (f : ResultId) : Option Extent :=
  (goesTo item xs (.size f)).getLast?.bind fun x => (item x).extent?

/-- Nothing in place of the end of a function. -/
def inst? (x : α) : Option α := if item x = .functionEnd then none else some x

variable {item} {xs : List α} {x : α}

theorem after_concat : after item (xs ++ [x]) = (after item xs).next (item x).mark := by
  simp [after, Context.run_append]

theorem goesTo_concat (p : Place) :
    goesTo item (xs ++ [x]) p =
      goesTo item xs p ++ if (after item xs).place (item x).mark = p then [x] else [] :=
  inPlace_concat ..

theorem goesTo_concat_of_ne {p : Place} (hp : (after item xs).place (item x).mark ≠ p) :
    goesTo item (xs ++ [x]) p = goesTo item xs p := by
  rw [goesTo_concat, if_neg hp, List.append_nil]

theorem entered_eq (xs : List α) :
    (after item xs).entered = (entries item xs).map (·.function) := by
  induction xs using List.reverseRecOn with
  | nil => rfl
  | append_singleton xs x ih =>
      rw [after_concat, entries]
      by_cases hx : ∃ f, (item x).mark = .entryPoint f
      · obtain ⟨f, hf⟩ := hx
        obtain ⟨e, he, rfl⟩ := Item.mark_eq_entryPoint.1 hf
        rw [goesTo_concat, if_pos (Context.place_eq_entryPoint.2 ⟨_, hf⟩), List.filterMap_append,
          List.map_append, ← entries, ← ih, hf]
        simp [Context.next, Item.entryPoint?, he]
      · rw [goesTo_concat_of_ne fun h => hx (Context.place_eq_entryPoint.1 h),
          Context.entered_next_of_ne fun f hf => hx ⟨f, hf⟩]
        exact ih

theorem goesTo_size {f : ResultId} (hf : f ∉ (after item xs).entered) :
    goesTo item xs (.size f) = [] := by
  induction xs using List.reverseRecOn with
  | nil => rfl
  | append_singleton xs x ih =>
      rw [after_concat] at hf
      have hxs : f ∉ (after item xs).entered := fun h => hf (Context.entered_next _ h)
      rw [goesTo_concat_of_ne fun h => hxs (Context.place_eq_size.1 h).2, ih hxs]

end Reading

/-! ## The invariant -/

namespace Assembly

def openHandles (a : Assembly) : List Handle := a.current.toList.flatMap fun f => f.close.handles

def position (a : Assembly) : Position :=
  match a.current with
  | none => .outside
  | some f => f.position

theorem current_of_position {a : Assembly} (ha : a.position = .outside) : a.current = none := by
  rw [position] at ha
  split at ha
  · rename_i hnone
    exact hnone
  · exact absurd ha (OpenFunction.position_ne_outside _)

end Assembly

variable {α : Type} (item : α → Item ResultId)

def Module.Names (m : Module) (known : ResultId → Prop) : Prop :=
  ∀ h id, (m.inst h).resultId = some id → known id

structure Stores (xs : List α) (m : Module) (origin : Handle → Option α) : Prop where
  indexed : m.Indexed
  closed : m.Closed
  stored : ∀ h, (m.inst h).isPlaceholder = false →
    ∃ x ∈ xs, origin h = some x ∧ item x = .inst (m.wire h)
  vacant : ∀ h, (m.inst h).isPlaceholder → origin h = none
  defined : ∀ x ∈ xs, ∀ id ∈ (item x).result?,
    ∃ h, (m.inst h).resultId = some id ∧ (m.inst h).isPlaceholder = false

structure Lists (xs : List α) (a : Assembly) (origin : Handle → Option α) : Prop where
  sections : ∀ s : Section,
    (s.handles a.module).map origin = (s.keep (goesTo item xs (.listed s))).map some
  functions : (a.module.functions.flatMap fun f => f.handles.map origin ++ [none]) ++
    a.openHandles.map origin = (goesTo item xs .function).map (inst? item)
  settled : ∀ h ∈ a.module.functions.flatMap FunctionDef.handles ++ a.openHandles,
    (origin h).isSome

structure Enters (xs : List α) (m : Module) : Prop where
  linked : ∀ e ∈ m.entryPoints, ∀ r ∈ e.references, (m.inst r).resultId.isSome
  entryPoints : m.entryPoints.map (EntryPoint.map m.idOf) =
    EntryPoint.sized (statedSize? item xs) [] (entries item xs)

structure Frames (xs : List α) (a : Assembly) : Prop where
  functions : ∀ f ∈ a.module.functions, f.Shaped fun h => (a.module.inst h).opcode
  current : ∀ f ∈ a.current, f.Shaped fun h => (a.module.inst h).opcode
  position : (after item xs).position = a.position

/-- The state behind some items, if all ids that they mention are known. -/
structure Assembled (known : ResultId → Prop) (header : Header) (xs : List α) (a : Assembly)
    (origin : Handle → Option α) : Prop where
  header : a.module.header = header
  named : a.module.Names known
  stores : Stores item xs a.module origin
  lists : Lists item xs a origin
  enters : Enters item xs a.module
  frames : Frames item xs a

variable {item} {known : ResultId → Prop} {xs : List α} {x : α} {m m' : Module} {a : Assembly}
  {origin : Handle → Option α} {mentioned : List ResultId}

/-! ## Keeping the invariant -/

def Module.KeepsIds (m m' : Module) : Prop :=
  ∀ h id, (m.inst h).resultId = some id → (m'.inst h).resultId = some id

namespace Module

theorem Mentions.keepsIds (hmm : m.Mentions mentioned m') : m.KeepsIds m' :=
  fun _ _ => hmm.resultId

theorem Mentions.names {known : ResultId → Prop} (hmm : m.Mentions mentioned m')
    (hm : m.Names known) (hknown : ∀ id ∈ mentioned, known id) : m'.Names known := by
  intro h id hid
  obtain heq | ⟨-, id', hmem, hid'⟩ := hmm.stored h
  · exact hm h id (heq ▸ hid)
  · rw [hid'] at hid
    cases hid
    exact hknown _ hmem

theorem Inserts.names {known : ResultId → Prop} {h : Handle} {i : Inst Handle}
    (hins : m.Inserts m' h i) (hm : m.Names known) (hknown : ∀ id ∈ i.resultId, known id) :
    m'.Names known := by
  intro g id hid
  by_cases hg : g = h
  · rw [hg, hins.stored] at hid
    exact hknown id hid
  · rw [hins.others g hg] at hid
    exact hm g id hid

theorem Inserts.keepsIds {h : Handle} {i : Inst Handle} (hins : m.Inserts m' h i) :
    m.KeepsIds m' := by
  intro g id hid
  by_cases hg : g = h
  · rw [hg, hins.stored]
    exact hins.resultId id (hg ▸ hid)
  · rw [hins.others g hg]
    exact hid

theorem KeepsIds.idOf_eq (hmm : m.KeepsIds m') {h : Handle} (hh : (m.inst h).resultId.isSome) :
    m'.idOf h = m.idOf h := by
  obtain ⟨id, hid⟩ := Option.isSome_iff_exists.1 hh
  rw [Module.idOf_eq hid, Module.idOf_eq (hmm h id hid)]

theorem KeepsIds.isSome (hmm : m.KeepsIds m') {h : Handle} (hh : (m.inst h).resultId.isSome) :
    (m'.inst h).resultId.isSome := by
  obtain ⟨id, hid⟩ := Option.isSome_iff_exists.1 hh
  rw [hmm h id hid]
  rfl

theorem KeepsIds.map_idOf (hmm : m.KeepsIds m') {i : Inst Handle}
    (hrefs : ∀ r ∈ i.references, (m.inst r).resultId.isSome) : i.map m'.idOf = i.map m.idOf :=
  Inst.map_congr fun r hr => hmm.idOf_eq (hrefs r hr)

end Module

theorem Stores.mentions (hS : Stores item xs m origin) (hmm : m.Mentions mentioned m')
    (hm' : m'.Indexed) : Stores item xs m' origin := by
  refine ⟨hm', hmm.closed hS.closed, ?_, ?_, ?_⟩
  · intro h hh
    have hinst := hmm.inst_eq hh
    obtain ⟨x, hx, horigin, hitem⟩ := hS.stored h (hinst ▸ hh)
    refine ⟨x, hx, horigin, ?_⟩
    rw [hitem, Module.wire, Module.wire, hinst, hmm.keepsIds.map_idOf (hS.closed h)]
  · intro h hh
    by_contra hsome
    have hstored : (m.inst h).isPlaceholder = false := by
      by_contra hplace
      exact hsome (hS.vacant h (by simpa using hplace))
    rw [hmm.inst_eq_of_stored hstored, hstored] at hh
    cases hh
  · intro x hx id hid
    obtain ⟨h, hh, hstored⟩ := hS.defined x hx id hid
    exact ⟨h, hmm.resultId hh, by rw [hmm.inst_eq_of_stored hstored, hstored]⟩

theorem Stores.concat (hS : Stores item xs m origin) (hx : (item x).result? = none) :
    Stores item (xs ++ [x]) m origin := by
  refine ⟨hS.indexed, hS.closed, ?_, hS.vacant, ?_⟩
  · intro h hh
    obtain ⟨y, hy, horigin, hitem⟩ := hS.stored h hh
    exact ⟨y, List.mem_append_left _ hy, horigin, hitem⟩
  · intro y hy id hid
    rw [List.mem_append, List.mem_singleton] at hy
    obtain hy | rfl := hy
    · exact hS.defined y hy id hid
    · rw [hx] at hid
      cases hid

theorem Stores.inserts (hS : Stores item xs m origin) {h : Handle} {i : Inst Handle}
    (hins : m.Inserts m' h i) (hm' : m'.Indexed)
    (hrefs : ∀ r ∈ i.references, (m.inst r).resultId.isSome) (hi : i.isPlaceholder = false)
    (hx : item x = .inst (i.map m.idOf)) :
    Stores item (xs ++ [x]) m' (Function.update origin h (some x)) := by
  refine ⟨hm', ?_, ?_, ?_, ?_⟩
  · intro g r hr
    by_cases hg : g = h
    · rw [hg, hins.stored] at hr
      exact hins.keepsIds.isSome (hrefs r hr)
    · rw [hins.others g hg] at hr
      exact hins.keepsIds.isSome (hS.closed g r hr)
  · intro g hg
    by_cases hgh : g = h
    · subst hgh
      refine ⟨x, by simp, Function.update_self .., ?_⟩
      rw [hx, Module.wire, hins.stored, hins.keepsIds.map_idOf hrefs]
    · rw [hins.others g hgh] at hg
      obtain ⟨y, hy, horigin, hitem⟩ := hS.stored g hg
      refine ⟨y, List.mem_append_left _ hy, by rw [Function.update_of_ne hgh, horigin], ?_⟩
      rw [hitem, Module.wire, Module.wire, hins.others g hgh,
        hins.keepsIds.map_idOf (hS.closed g)]
  · intro g hg
    by_cases hgh : g = h
    · rw [hgh, hins.stored, hi] at hg
      cases hg
    · rw [hins.others g hgh] at hg
      rw [Function.update_of_ne hgh, hS.vacant g hg]
  · intro y hy id hid
    rw [List.mem_append, List.mem_singleton] at hy
    obtain hy | rfl := hy
    · obtain ⟨g, hg, hstored⟩ := hS.defined y hy id hid
      have hgh : g ≠ h := by
        rintro rfl
        rw [hins.vacant] at hstored
        cases hstored
      exact ⟨g, by rw [hins.others g hgh, hg], by rw [hins.others g hgh, hstored]⟩
    · rw [hx] at hid
      exact ⟨h, by rw [hins.stored]; exact hid, by rw [hins.stored, hi]⟩

/-! ### Lists -/

theorem Lists.isSome_of_mem (hL : Lists item xs a origin) {s : Section} {h : Handle}
    (hh : h ∈ s.handles a.module) : (origin h).isSome := by
  have hmem := List.mem_map_of_mem (f := origin) hh
  rw [hL.sections s, List.mem_map] at hmem
  obtain ⟨x, -, hx⟩ := hmem
  rw [← hx]
  rfl

/-- The origin of what is not listed does not matter. -/
theorem Lists.update (hL : Lists item xs a origin) {h : Handle} (hh : origin h = none)
    (y : Option α) : Lists item xs a (Function.update origin h y) := by
  have hkeep {hs : List Handle} (hsome : ∀ g ∈ hs, (origin g).isSome) :
      hs.map (Function.update origin h y) = hs.map origin := by
    apply List.map_congr_left
    intro g hg
    apply Function.update_of_ne
    rintro rfl
    have hsome := hsome g hg
    rw [hh] at hsome
    cases hsome
  have hsettled := hL.settled
  simp only [List.forall_mem_append, List.mem_flatMap, forall_exists_index, and_imp] at hsettled
  refine ⟨?_, ?_, ?_⟩
  · intro s
    rw [hkeep fun g hg => hL.isSome_of_mem hg, hL.sections s]
  · rw [hkeep hsettled.2, ← hL.functions]
    congr 1
    apply List.flatMap_congr
    intro f hf
    rw [hkeep fun g hg => hsettled.1 g f hf hg]
  · intro g hg
    by_cases hgh : g = h
    · have hsome := hL.settled g hg
      rw [hgh, hh] at hsome
      cases hsome
    · rw [Function.update_of_ne hgh]
      exact hL.settled g hg

/-- What goes to no list changes no list. -/
theorem Lists.concat (hL : Lists item xs a origin)
    (hsection : ∀ s, (after item xs).place (item x).mark ≠ .listed s)
    (hfunction : (after item xs).place (item x).mark ≠ .function) :
    Lists item (xs ++ [x]) a origin := by
  refine ⟨?_, ?_, hL.settled⟩
  · intro s
    rw [goesTo_concat_of_ne (hsection s), hL.sections s]
  · rw [goesTo_concat_of_ne hfunction, hL.functions]

theorem Lists.addToSection (hL : Lists item xs a origin) {s : Section} {h : Handle}
    (hplace : (after item xs).place (item x).mark = .listed s) (hh : origin h = some x) :
    Lists item (xs ++ [x]) { a with module := s.add h a.module } origin := by
  refine ⟨?_, ?_, ?_⟩
  · intro t
    rw [Section.handles_add]
    by_cases hst : s = t
    · subst hst
      rw [goesTo_concat, if_pos hplace, Section.keep_concat, if_pos rfl]
      by_cases hs : s = .memoryModel
      · simp [hs, hh]
      · simp [hs, hh, hL.sections]
    · have hne : (after item xs).place (item x).mark ≠ .listed t := by
        rw [hplace]
        simpa using hst
      rw [if_neg hst, goesTo_concat_of_ne hne, hL.sections]
  · have hne : (after item xs).place (item x).mark ≠ .function := by
      rw [hplace]
      simp
    rw [goesTo_concat_of_ne hne, ← hL.functions, Section.functions_add]
    rfl
  · rw [Section.functions_add]
    exact hL.settled

theorem Lists.addToFunction (hL : Lists item xs a origin) {a' : Assembly} {h : Handle}
    (hplace : (after item xs).place (item x).mark = .function) (hx : item x ≠ .functionEnd)
    (hh : origin h = some x) (hmodule : a'.module = a.module)
    (hopen : a'.openHandles = a.openHandles ++ [h]) : Lists item (xs ++ [x]) a' origin := by
  refine ⟨?_, ?_, ?_⟩
  · intro s
    have hne : (after item xs).place (item x).mark ≠ .listed s := by
      rw [hplace]
      simp
    rw [goesTo_concat_of_ne hne, hmodule, hL.sections]
  · rw [goesTo_concat, if_pos hplace, List.map_append, ← hL.functions, hmodule, hopen]
    simp [hh, inst?, hx]
  · rw [hmodule, hopen, ← List.append_assoc, List.forall_mem_append]
    exact ⟨hL.settled, by simp [hh]⟩

theorem Lists.close (hL : Lists item xs a origin) {f : OpenFunction} (hf : a.current = some f)
    (hx : item x = .functionEnd) :
    Lists item (xs ++ [x])
      ⟨{ a.module with functions := a.module.functions ++ [f.close] }, none⟩ origin := by
  have hplace : (after item xs).place (item x).mark = .function := by
    rw [hx]
    rfl
  have hopen : a.openHandles = f.close.handles := by simp [Assembly.openHandles, hf]
  refine ⟨?_, ?_, ?_⟩
  · intro s
    have hne : (after item xs).place (item x).mark ≠ .listed s := by
      rw [hplace]
      simp
    rw [goesTo_concat_of_ne hne, ← hL.sections s]
    cases s <;> rfl
  · rw [goesTo_concat, if_pos hplace, List.map_append, ← hL.functions, hopen]
    simp [Assembly.openHandles, inst?, hx]
  · have hsettled := hL.settled
    rw [hopen] at hsettled
    simpa [Assembly.openHandles] using hsettled

/-! ### Entry points -/

theorem Enters.keepsIds (hE : Enters item xs m) (hkeep : m.KeepsIds m')
    (hentry : m'.entryPoints = m.entryPoints) : Enters item xs m' := by
  refine ⟨?_, ?_⟩
  · intro e he r hr
    rw [hentry] at he
    exact hkeep.isSome (hE.linked e he r hr)
  · rw [hentry, ← hE.entryPoints]
    apply List.map_congr_left
    intro e he
    exact EntryPoint.map_congr fun r hr => hkeep.idOf_eq (hE.linked e he r hr)

theorem entries_concat (hx : ∀ f, (item x).mark ≠ .entryPoint f) :
    entries item (xs ++ [x]) = entries item xs := by
  rw [entries, goesTo_concat_of_ne, ← entries]
  intro hplace
  obtain ⟨f, hf⟩ := Context.place_eq_entryPoint.1 hplace
  exact hx f hf

theorem statedSize?_concat {f : ResultId} (hx : (after item xs).place (item x).mark ≠ .size f) :
    statedSize? item (xs ++ [x]) f = statedSize? item xs f := by
  rw [statedSize?, goesTo_concat_of_ne hx, ← statedSize?]

/-- What neither enters a function nor states a size leaves the entry points. -/
theorem Enters.concat (hE : Enters item xs m) (hentry : ∀ f, (item x).mark ≠ .entryPoint f)
    (hsize : ∀ f, (after item xs).place (item x).mark ≠ .size f) :
    Enters item (xs ++ [x]) m := by
  refine ⟨hE.linked, ?_⟩
  rw [hE.entryPoints, entries_concat hentry]
  exact EntryPoint.sized_congr fun f _ _ => (statedSize?_concat (hsize f)).symm

theorem Enters.enter (hE : Enters item xs m) {e : EntryPoint Handle}
    (hlinked : ∀ r ∈ e.references, (m.inst r).resultId.isSome)
    (hx : item x = .entryPoint (e.map m.idOf)) (hsize : e.localSize = none) :
    Enters item (xs ++ [x]) { m with entryPoints := m.entryPoints ++ [e] } := by
  have hmark : (item x).mark = .entryPoint (m.idOf e.function) := by
    rw [hx]
    rfl
  have hstated (f : ResultId) : statedSize? item (xs ++ [x]) f = statedSize? item xs f := by
    apply statedSize?_concat
    rw [hmark]
    simp [Context.place]
  have hentries : entries item (xs ++ [x]) = entries item xs ++ [e.map m.idOf] := by
    rw [entries, goesTo_concat, if_pos (Context.place_eq_entryPoint.2 ⟨_, hmark⟩),
      List.filterMap_append, ← entries]
    simp [hx, Item.entryPoint?]
  have hnone : (if m.idOf e.function ∈ ([] : List ResultId) ∨
      m.idOf e.function ∈ (entries item xs).map (·.function) then none
      else statedSize? item xs (m.idOf e.function)) = none := by
    split
    · rfl
    · rename_i hnew
      rw [not_or, ← entered_eq] at hnew
      rw [statedSize?, goesTo_size hnew.2]
      rfl
  refine ⟨?_, ?_⟩
  · intro d hd r hr
    rw [List.mem_append, List.mem_singleton] at hd
    obtain hd | rfl := hd
    · exact hE.linked d hd r hr
    · exact hlinked r hr
  · rw [funext hstated, hentries, EntryPoint.sized_concat]
    change _ = _ ++ [EntryPoint.withSize (if m.idOf e.function ∈ ([] : List ResultId) ∨
      m.idOf e.function ∈ (entries item xs).map (·.function) then none
      else statedSize? item xs (m.idOf e.function)) (e.map m.idOf)]
    rw [hnone, ← hE.entryPoints, List.map_append]
    obtain ⟨model, function, name, interface, localSize⟩ := e
    obtain rfl : localSize = none := hsize
    rfl

theorem Enters.findIdx?_sized (hE : Enters item xs m) (hm : m.Indexed) {function : Handle}
    (hfunction : (m.inst function).resultId.isSome) :
    (EntryPoint.sized (statedSize? item xs) [] (entries item xs)).findIdx?
        (·.function = m.idOf function) =
      m.entryPoints.findIdx? (·.function = function) := by
  rw [← hE.entryPoints]
  exact EntryPoint.findIdx?_map_function fun e he heq =>
    hm.idOf_inj (hE.linked e he _ List.mem_cons_self) hfunction heq

theorem Enters.mem_entered_iff (hE : Enters item xs m) (hm : m.Indexed) {function : Handle}
    (hfunction : (m.inst function).resultId.isSome) :
    m.idOf function ∈ (after item xs).entered ↔
      (m.entryPoints.findIdx? (·.function = function)).isSome := by
  rw [← hE.findIdx?_sized hm hfunction, entered_eq,
    ← EntryPoint.map_function_sized (statedSize? item xs) []]
  simp

theorem Enters.claim (hE : Enters item xs m) (hm : m.Indexed) {function : Handle} {size : Extent}
    (hfunction : (m.inst function).resultId.isSome)
    (hmark : (item x).mark = .size (m.idOf function)) (hsize : (item x).extent? = some size)
    (hclaim : m.claimSize? function size = some m') : Enters item (xs ++ [x]) m' := by
  obtain ⟨i, hi, rfl⟩ := Option.map_eq_some_iff.1 hclaim
  change Enters item (xs ++ [x])
    { m with entryPoints := m.entryPoints.modify i (EntryPoint.withSize (some size)) }
  have hentered : m.idOf function ∈ (after item xs).entered := by
    rw [hE.mem_entered_iff hm hfunction, hi]
    rfl
  have hfind := (hE.findIdx?_sized hm hfunction).trans hi
  have hplace : (after item xs).place (item x).mark = .size (m.idOf function) :=
    Context.place_eq_size.2 ⟨hmark, hentered⟩
  have hstated : statedSize? item (xs ++ [x]) =
      fun f => if f = m.idOf function then some size else statedSize? item xs f := by
    funext f
    by_cases hf : f = m.idOf function
    · rw [hf, if_pos rfl, statedSize?, goesTo_concat, if_pos hplace]
      simp [hsize]
    · rw [if_neg hf]
      apply statedSize?_concat
      rw [hplace]
      simpa using Ne.symm hf
  refine ⟨?_, ?_⟩
  · intro e he r hr
    have hrefs := List.mem_map_of_mem (f := EntryPoint.references) he
    rw [EntryPoint.map_references_modify, List.mem_map] at hrefs
    obtain ⟨d, hd, heq⟩ := hrefs
    exact hE.linked d hd r (heq ▸ hr)
  · change (m.entryPoints.modify i (EntryPoint.withSize (some size))).map
      (EntryPoint.map m.idOf) = _
    rw [EntryPoint.map_modify_withSize, hE.entryPoints, hstated,
      entries_concat (by simp [hmark])]
    exact EntryPoint.modify_sized (by simp) hfind size

/-! ### Outlines -/

theorem Frames.congr (hF : Frames item xs a) (hfunctions : m'.functions = a.module.functions)
    (hinst : ∀ h ∈ a.module.functions.flatMap FunctionDef.handles ++ a.openHandles,
      m'.inst h = a.module.inst h) : Frames item xs { a with module := m' } := by
  simp only [List.forall_mem_append, List.mem_flatMap, forall_exists_index, and_imp] at hinst
  refine ⟨?_, ?_, hF.position⟩
  · intro f hf
    rw [hfunctions] at hf
    exact (hF.functions f hf).congr fun g hg => congrArg Inst.opcode (hinst.1 g f hf hg)
  · intro f hf
    have hcurrent : a.current = some f := hf
    have hopen : a.openHandles = f.close.handles := by simp [Assembly.openHandles, hcurrent]
    rw [hopen] at hinst
    exact ⟨(hF.current f hf).close.congr fun g hg => congrArg Inst.opcode (hinst.2 g hg),
      (hF.current f hf).header⟩

variable {header : Header}

theorem Assembled.isPlaceholder_eq (hA : Assembled item known header xs a origin) {h : Handle}
    (hh : h ∈ a.module.functions.flatMap FunctionDef.handles ++ a.openHandles) :
    (a.module.inst h).isPlaceholder = false := by
  by_contra hplace
  have hsome := hA.lists.settled h hh
  rw [hA.stores.vacant h (by simpa using hplace)] at hsome
  cases hsome

/-! ## Steps -/

theorem Lists.withModule (hL : Lists item xs a origin)
    (hsections : ∀ s : Section, s.handles m' = s.handles a.module)
    (hfunctions : m'.functions = a.module.functions) :
    Lists item xs { a with module := m' } origin := by
  refine ⟨?_, ?_, ?_⟩
  · intro s
    rw [hsections, hL.sections]
  · rw [hfunctions]
    exact hL.functions
  · rw [hfunctions]
    exact hL.settled

theorem Assembled.mentions (hA : Assembled item known header xs a origin)
    (hmm : a.module.Mentions mentioned m') (hm' : m'.Indexed)
    (hknown : ∀ id ∈ mentioned, known id) :
    Assembled item known header xs { a with module := m' } origin := by
  obtain ⟨_, _, hframe⟩ := hmm.frame
  refine ⟨?_, hmm.names hA.named hknown, hA.stores.mentions hmm hm', hA.lists.withModule ?_ ?_,
    hA.enters.keepsIds hmm.keepsIds ?_, hA.frames.congr ?_ ?_⟩
  · rw [hframe]
    exact hA.header
  · intro s
    rw [hframe]
    cases s <;> rfl
  · rw [hframe]
  · rw [hframe]
  · rw [hframe]
  · intro h hh
    exact hmm.inst_eq_of_stored (hA.isPlaceholder_eq hh)

/-- An instruction has been stored at `h` and has no place yet. -/
structure Pending (item : α → Item ResultId) (known : ResultId → Prop) (header : Header)
    (xs : List α) (x : α) (h : Handle) (a : Assembly) (origin : Handle → Option α) : Prop where
  header : a.module.header = header
  named : a.module.Names known
  stores : Stores item (xs ++ [x]) a.module origin
  lists : Lists item xs a origin
  enters : Enters item xs a.module
  frames : Frames item xs a
  origin : origin h = some x

theorem Assembled.inserts (hA : Assembled item known header xs a origin) {h : Handle}
    {i : Inst Handle} (hins : a.module.Inserts m' h i) (hm' : m'.Indexed)
    (hrefs : ∀ r ∈ i.references, (a.module.inst r).resultId.isSome)
    (hi : i.isPlaceholder = false) (hx : item x = .inst (i.map a.module.idOf))
    (hknown : ∀ id ∈ i.resultId, known id) :
    Pending item known header xs x h { a with module := m' }
      (Function.update origin h (some x)) := by
  have hfresh : origin h = none := hA.stores.vacant h hins.vacant
  have hlists := hA.lists.update hfresh (some x)
  obtain ⟨_, _, hframe⟩ := hins.frame
  refine ⟨?_, hins.names hA.named hknown, hA.stores.inserts hins hm' hrefs hi hx,
    hlists.withModule ?_ ?_, hA.enters.keepsIds hins.keepsIds ?_, hA.frames.congr ?_ ?_,
    Function.update_self ..⟩
  · rw [hframe]
    exact hA.header
  · intro s
    rw [hframe]
    cases s <;> rfl
  · rw [hframe]
  · rw [hframe]
  · rw [hframe]
  · intro g hg
    apply hins.others
    rintro rfl
    have hplace := hA.isPlaceholder_eq hg
    rw [hins.vacant] at hplace
    cases hplace

variable {h : Handle}

theorem Pending.addToSection (hP : Pending item known header xs x h a origin) {s : Section}
    (hplace : (after item xs).place (item x).mark = .listed s)
    (hentry : ∀ f, (item x).mark ≠ .entryPoint f)
    (hposition : ((after item xs).next (item x).mark).position = (after item xs).position) :
    Assembled item known header (xs ++ [x]) { a with module := s.add h a.module } origin := by
  have hinst (g : Handle) : (s.add h a.module).inst g = a.module.inst g := by
    rw [Module.inst, Section.insts_add, Module.inst]
  have hstores : Stores item (xs ++ [x]) (s.add h a.module) origin := by
    cases s <;> exact ⟨hP.stores.indexed, hP.stores.closed, hP.stores.stored, hP.stores.vacant,
      hP.stores.defined⟩
  have hkeep : a.module.KeepsIds (s.add h a.module) := by
    intro g id hg
    rw [hinst]
    exact hg
  have hframes := hP.frames.congr (Section.functions_add s h a.module) fun g _ => hinst g
  refine ⟨?_, ?_, hstores, hP.lists.addToSection hplace hP.origin,
    (hP.enters.concat hentry ?_).keepsIds hkeep (Section.entryPoints_add ..),
    hframes.functions, hframes.current, ?_⟩
  · rw [Section.header_add]
    exact hP.header
  · intro g id hg
    rw [hinst] at hg
    exact hP.named g id hg
  · intro f
    rw [hplace]
    simp
  · rw [after_concat, hposition]
    exact hP.frames.position

theorem Pending.addToFunction (hP : Pending item known header xs x h a origin)
    {f f' : OpenFunction} (hmark : (item x).mark = .inst (a.module.inst h).opcode)
    (hmode : (a.module.inst h).opcode ≠ Form.executionMode.opcode) (hf : a.current = some f)
    (hadd : f.add (a.module.inst h).opcode h = .ok f') :
    Assembled item known header (xs ++ [x]) { a with current := some f' } origin := by
  obtain ⟨hshaped, hhandles, hfunction, hposition⟩ :=
    (hP.frames.current f hf).add_spec hadd
  have hinside : (after item xs).position = f.position := by
    rw [hP.frames.position, Assembly.position, hf]
  have hplace : (after item xs).place (item x).mark = .function := by
    have hne : (after item xs).position ≠ .outside := by
      rw [hinside]
      exact OpenFunction.position_ne_outside f
    rw [hmark, Context.place, if_neg hmode, if_pos (.inl hne)]
  have hitem : item x ≠ .functionEnd := by
    intro hend
    rw [hend] at hmark
    cases hmark
  refine ⟨hP.header, hP.named, hP.stores, hP.lists.addToFunction hplace hitem hP.origin rfl ?_,
    hP.enters.concat ?_ ?_, hP.frames.functions, ?_, ?_⟩
  · simp [Assembly.openHandles, hf, hhandles]
  · simp [hmark]
  · simp [hplace]
  · rintro g ⟨⟩
    exact hshaped
  · rw [after_concat, hmark, Context.next, if_neg hfunction]
    change _ = f'.position
    rw [hposition]
    split
    · rfl
    · exact hinside

theorem Pending.openFunction (hP : Pending item known header xs x h a origin)
    (hmark : (item x).mark = .inst Form.function.opcode)
    (hop : (a.module.inst h).opcode = Form.function.opcode) (hf : a.current = none) :
    Assembled item known header (xs ++ [x]) { a with current := some ⟨.empty h, none⟩ }
      origin := by
  have hplace : (after item xs).place (item x).mark = .function := by
    rw [hmark, Context.place, if_neg (by decide), if_pos (.inr rfl)]
  have hitem : item x ≠ .functionEnd := by
    intro hend
    rw [hend] at hmark
    cases hmark
  refine ⟨hP.header, hP.named, hP.stores, hP.lists.addToFunction hplace hitem hP.origin rfl ?_,
    hP.enters.concat ?_ ?_, hP.frames.functions, ?_, ?_⟩
  · simp [Assembly.openHandles, hf, OpenFunction.close, FunctionDef.empty, FunctionDef.handles]
  · simp [hmark]
  · simp [hplace]
  · rintro g ⟨⟩
    exact ⟨⟨hop, by simp [OpenFunction.close, FunctionDef.empty],
      by simp [OpenFunction.close, FunctionDef.empty],
      by simp [OpenFunction.close, FunctionDef.empty]⟩, fun _ => rfl⟩
  · rw [after_concat, hmark, Context.next, if_pos rfl]
    rfl

/-! ### Work group sizes -/

theorem Item.mark_map (g : Handle → ResultId) (i : Inst Handle) :
    (Item.inst (i.map g)).mark =
      match i.kind with
      | .executionMode function mode [_, _, _] =>
        if mode = .localSize then .size (g function) else .inst i.opcode
      | _ => .inst i.opcode := by
  obtain ⟨type?, result?, k⟩ := i
  cases k
  case executionMode function mode operands =>
    obtain _ | ⟨_, _ | ⟨_, _ | ⟨_, _ | ⟨_, _⟩⟩⟩⟩ := operands <;> rfl
  case var storage initializer => cases initializer <;> rfl
  all_goals rfl

/-- Only work group sizes are marked by more than their opcode. -/
theorem Item.mark_of_opcode_ne {i : Inst ResultId} (hop : i.opcode ≠ Form.executionMode.opcode) :
    (Item.inst i).mark = .inst i.opcode := by
  obtain ⟨type?, result?, k⟩ := i
  cases k
  case executionMode => exact absurd rfl hop
  all_goals rfl

theorem Item.mark_cases (i : Inst ResultId) :
    (∃ f size, (Item.inst i).mark = .size f ∧ (Item.inst i).extent? = some size) ∨
      (Item.inst i).mark = .inst i.opcode := by
  by_cases hsize : ∃ function x y z, i.kind = .executionMode function .localSize [x, y, z]
  · obtain ⟨function, x, y, z, hkind⟩ := hsize
    refine .inl ⟨function, ⟨x, y, z⟩, mark_eq_size.2 ⟨i, x, y, z, rfl, hkind⟩, ?_⟩
    simp only [extent?, hkind]
  · refine .inr ?_
    simp only [mark]
    split
    · rename_i function mode x y z hkind
      rw [if_neg]
      rintro rfl
      exact hsize ⟨function, x, y, z, hkind⟩
    · rfl

theorem Module.claimMode?_eq_some {k : Kind Handle} :
    m.claimMode? k = some m' ↔
      ∃ function x y z, k = .executionMode function .localSize [x, y, z] ∧
        m.claimSize? function ⟨x, y, z⟩ = some m' := by
  constructor
  · intro hclaim
    unfold claimMode? at hclaim
    split at hclaim
    · rename_i function mode x y z
      by_cases hmode : mode = .localSize
      · rw [if_pos hmode] at hclaim
        exact ⟨function, x, y, z, by rw [hmode], hclaim⟩
      · rw [if_neg hmode] at hclaim
        cases hclaim
    · cases hclaim
  · rintro ⟨function, x, y, z, rfl, hclaim⟩
    rw [claimMode?, if_pos rfl]
    exact hclaim

theorem Enters.isSome_claimSize? (hE : Enters item xs m) (hm : m.Indexed) {function : Handle}
    (hfunction : (m.inst function).resultId.isSome) (size : Extent) :
    (m.claimSize? function size).isSome ↔ m.idOf function ∈ (after item xs).entered := by
  rw [hE.mem_entered_iff hm hfunction, Module.claimSize?, Option.isSome_map]

/-- A size that is not claimed has no entry point to belong to. -/
theorem Enters.place_ne_size (hE : Enters item xs m) (hm : m.Indexed) {i : Inst Handle}
    (hrefs : ∀ r ∈ i.references, (m.inst r).resultId.isSome)
    (hx : item x = .inst (i.map m.idOf)) (hclaim : m.claimMode? i.kind = none) (f : ResultId) :
    (after item xs).place (item x).mark ≠ .size f := by
  intro hplace
  obtain ⟨hmark, hentered⟩ := Context.place_eq_size.1 hplace
  rw [hx, Item.mark_map] at hmark
  split at hmark
  · rename_i function mode x y z hkind
    split at hmark
    · rename_i hmode
      cases hmark
      have hfunction : (m.inst function).resultId.isSome :=
        hrefs function (Inst.mem_references.2
          (.inr (by simp [hkind, Kind.references, Kind.operands])))
      obtain ⟨m', hm'⟩ := Option.isSome_iff_exists.1
        ((hE.isSome_claimSize? hm hfunction ⟨x, y, z⟩).2 hentered)
      have hsome := Module.claimMode?_eq_some.2
        ⟨function, x, y, z, hkind.trans (by rw [hmode]), hm'⟩
      rw [hclaim] at hsome
      cases hsome
    · cases hmark
  · cases hmark

/-! ### Every record -/

theorem Assembled.enter (hA : Assembled item known header xs a origin) {e : EntryPoint Handle}
    (hlinked : ∀ r ∈ e.references, (a.module.inst r).resultId.isSome)
    (hx : item x = .entryPoint (e.map a.module.idOf)) (hsize : e.localSize = none) :
    Assembled item known header (xs ++ [x])
      { a with module := { a.module with entryPoints := a.module.entryPoints ++ [e] } }
      origin := by
  have hplace : (after item xs).place (item x).mark = .entryPoint := by
    rw [hx]
    rfl
  have hstores := hA.stores.concat (x := x) (by rw [hx]; rfl)
  have hlists := hA.lists.concat (x := x) (by simp [hplace]) (by simp [hplace])
  refine ⟨hA.header, hA.named, ⟨hstores.indexed, hstores.closed, hstores.stored, hstores.vacant,
    hstores.defined⟩, hlists.withModule (fun s => by cases s <;> rfl) rfl,
    hA.enters.enter hlinked hx hsize, hA.frames.functions, hA.frames.current, ?_⟩
  rw [after_concat, hx]
  exact hA.frames.position

theorem Assembled.close (hA : Assembled item known header xs a origin) {a' : Assembly}
    (hx : item x = .functionEnd) (hclose : a.close = .ok a') :
    Assembled item known header (xs ++ [x]) a' origin := by
  unfold Assembly.close at hclose
  split at hclose
  · rename_i f hf
    cases hclose
    have hstores := hA.stores.concat (x := x) (by rw [hx]; rfl)
    have henters := hA.enters.concat (x := x) (by simp [hx, Item.mark])
      (by simp [hx, Item.mark, Context.place])
    refine ⟨hA.header, hA.named,
      ⟨hstores.indexed, hstores.closed, hstores.stored, hstores.vacant,
      hstores.defined⟩, hA.lists.close hf hx, ⟨henters.linked, henters.entryPoints⟩, ?_, ?_, ?_⟩
    · intro g hg
      rw [List.mem_append, List.mem_singleton] at hg
      obtain hg | rfl := hg
      · exact hA.frames.functions g hg
      · exact (hA.frames.current f hf).close
    · simp
    · rw [after_concat, hx]
      rfl
  · cases hclose

theorem Assembled.claim (hA : Assembled item known header xs a origin) {i : Inst Handle}
    (hrefs : ∀ r ∈ i.references, (a.module.inst r).resultId.isSome)
    (hx : item x = .inst (i.map a.module.idOf)) (hresult : i.resultId = none)
    (hclaim : a.module.claimMode? i.kind = some m') :
    Assembled item known header (xs ++ [x]) { a with module := m' } origin := by
  obtain ⟨function, sx, sy, sz, hkind, hsize⟩ := Module.claimMode?_eq_some.1 hclaim
  have hmark : (item x).mark = .size (a.module.idOf function) := by
    rw [hx, Item.mark_map, hkind]
    exact if_pos rfl
  have hextent : (item x).extent? = some ⟨sx, sy, sz⟩ := by
    rw [hx, Item.extent?, Inst.kind_map, hkind]
    rfl
  have hfunction : (a.module.inst function).resultId.isSome :=
    hrefs function (Inst.mem_references.2
      (.inr (by simp [hkind, Kind.references, Kind.operands])))
  have henters := hA.enters.claim hA.stores.indexed hfunction hmark hextent hsize
  have hentered : a.module.idOf function ∈ (after item xs).entered := by
    rw [← hA.enters.isSome_claimSize? hA.stores.indexed hfunction ⟨sx, sy, sz⟩, hsize]
    rfl
  have hplace : (after item xs).place (item x).mark = .size (a.module.idOf function) :=
    Context.place_eq_size.2 ⟨hmark, hentered⟩
  have hstores := hA.stores.concat (x := x) (by rw [hx]; exact hresult)
  have hlists := hA.lists.concat (x := x) (by simp [hplace]) (by simp [hplace])
  obtain ⟨j, -, rfl⟩ := Option.map_eq_some_iff.1 hsize
  refine ⟨hA.header, hA.named, ⟨hstores.indexed, hstores.closed, hstores.stored, hstores.vacant,
    hstores.defined⟩, hlists.withModule (fun s => by cases s <;> rfl) rfl, henters,
    hA.frames.functions, hA.frames.current, ?_⟩
  rw [after_concat, hmark]
  exact hA.frames.position

/-- Execution modes that state no size of an entry point are listed. -/
theorem Pending.addMode (hP : Pending item known header xs x h a origin) {i : Inst ResultId}
    (hx : item x = .inst i) (hop : i.opcode = Form.executionMode.opcode)
    (hsize : ∀ f, (after item xs).place (item x).mark ≠ .size f) :
    Assembled item known header (xs ++ [x])
      { a with module := Section.executionModes.add h a.module } origin := by
  rw [hx] at hsize
  obtain ⟨f, size, hmark, -⟩ | hmark := Item.mark_cases i
  · rw [hmark] at hsize
    have hf : f ∉ (after item xs).entered :=
      fun hf => hsize f (Context.place_eq_size.2 ⟨rfl, hf⟩)
    refine hP.addToSection ?_ (by simp [hx, hmark]) ?_
    · rw [hx, hmark]
      exact if_neg hf
    · rw [hx, hmark]
      rfl
  · rw [hop] at hmark
    refine hP.addToSection ?_ (by simp [hx, hmark]) ?_
    · rw [hx, hmark, Context.place, if_pos rfl]
    · rw [hx, hmark]
      rfl

theorem Pending.place (hP : Pending item known header xs x h a origin) {a' : Assembly}
    (hmark : (item x).mark = .inst (a.module.inst h).opcode)
    (hmode : (a.module.inst h).opcode ≠ Form.executionMode.opcode)
    (hplace : a.place (a.module.inst h).opcode h = .ok a') :
    Assembled item known header (xs ++ [x]) a' origin := by
  unfold Assembly.place at hplace
  split at hplace
  · rename_i f hf
    cases hadd : f.add (a.module.inst h).opcode h with
    | error e =>
        rw [hadd] at hplace
        cases hplace
    | ok f' =>
        rw [hadd] at hplace
        cases hplace
        exact hP.addToFunction hmark hmode hf hadd
  rename_i hnone
  split at hplace
  · rename_i hop
    cases hplace
    exact hP.openFunction (hop ▸ hmark) hop hnone
  rename_i hfunction
  split at hplace
  · cases hplace
  · rename_i hother
    rw [not_or] at hother
    cases hplace
    have hposition : (after item xs).position = .outside := by
      rw [hP.frames.position, Assembly.position, hnone]
    refine hP.addToSection ?_ (by simp [hmark]) ?_
    · rw [hmark, Context.place, if_neg hmode, if_neg (by simp [hposition, hfunction])]
    · rw [hmark, Context.next, if_neg hfunction, if_neg hother.2]

theorem Inst.Readable.references_below {bound : ResultId} {i : Inst ResultId}
    (hi : i.Readable bound) : ∀ id ∈ i.references, IdBelow bound id := by
  intro id hid
  obtain htype | hkind := Inst.mem_references.1 hid
  · exact hi.resultType id htype
  · obtain ⟨t, ht, htarget⟩ := List.mem_filterMap.1 hkind
    have hread := hi.operands t ht
    cases t with
    | ref r =>
        cases htarget
        exact hread
    | literal | string | named | hidden | remark => cases htarget

theorem EntryPoint.Readable.references_below {bound : ResultId} {e : EntryPoint ResultId}
    (he : e.Readable bound) : ∀ id ∈ e.references, IdBelow bound id := by
  rw [references, List.forall_mem_cons]
  exact ⟨he.function, he.interface⟩

theorem Kind.Genuine.isPlaceholder {ρ : Type} {k : Kind ρ} (hk : k.Genuine) :
    k.isPlaceholder = false := by
  cases k
  case placeholder => exact hk.elim
  all_goals rfl

theorem Kind.isPlaceholder_map {ρ σ : Type} (f : ρ → σ) (k : Kind ρ) :
    (k.map f).isPlaceholder = k.isPlaceholder := by
  cases k
  case var storage initializer => cases initializer <;> rfl
  all_goals rfl

theorem Inst.Readable.plain_of_executionMode {bound : ResultId} {i : Inst ResultId}
    (hi : i.Readable bound) (hop : i.opcode = Form.executionMode.opcode) :
    i.resultType = none ∧ i.resultId = none := by
  exact (Inst.hasLayout_iff .executionMode hop).1 hi.layout

/-! ### What accepting a record does -/

structure Module.Links (m m' : Module) (i : Inst ResultId) (j : Inst Handle) : Prop where
  mentions : m.Mentions i.references m'
  indexed : m'.Indexed
  map_idOf : j.map m'.idOf = i
  isSome : ∀ r ∈ j.references, (m'.inst r).resultId.isSome

structure Module.Saves (bound : ResultId) (m m' : Module) (h : Handle) (j : Inst Handle) :
    Prop where
  inserts : m.Inserts m' h j
  indexed : m'.Indexed
  below : ∀ id ∈ j.resultId, IdBelow bound id

namespace Module.Links

variable {i : Inst ResultId} {j : Inst Handle} (hl : m.Links m' i j)

include hl

theorem resultId : j.resultId = i.resultId := by
  rw [← hl.map_idOf, Inst.resultId_map]

theorem opcode : j.opcode = i.opcode := by
  rw [← hl.map_idOf, Inst.opcode_map]

theorem isPlaceholder {bound : ResultId} (hi : i.Readable bound) : j.isPlaceholder = false := by
  rw [Inst.isPlaceholder, ← Kind.isPlaceholder_map m'.idOf, ← Inst.kind_map, hl.map_idOf]
  exact hi.genuine.isPlaceholder

end Module.Links

inductive Assembly.Accepts (bound : ResultId) (a : Assembly) : Item ResultId → Assembly → Prop
  | entryPoint {e : EntryPoint ResultId} {d : EntryPoint Handle} {m : Module}
      (hmentions : a.module.Mentions e.references m) (hindexed : m.Indexed)
      (hmap : d.map m.idOf = e) (hlinked : ∀ r ∈ d.references, (m.inst r).resultId.isSome) :
      Accepts bound a (.entryPoint e)
        { a with module := { m with entryPoints := m.entryPoints ++ [d] } }
  | functionEnd {a' : Assembly} (hclose : a.close = .ok a') : Accepts bound a .functionEnd a'
  /-- The size of a work group goes to the entry points of its function. -/
  | claim {i : Inst ResultId} {j : Inst Handle} {m m' : Module} (hl : a.module.Links m i j)
      (hmode : i.opcode = Form.executionMode.opcode) (hclaim : m.claimMode? j.kind = some m') :
      Accepts bound a (.inst i) { a with module := m' }
  | mode {i : Inst ResultId} {j : Inst Handle} {m m' : Module} {h : Handle}
      (hl : a.module.Links m i j) (hclaim : m.claimMode? j.kind = none)
      (hs : m.Saves bound m' h j) (hmode : i.opcode = Form.executionMode.opcode) :
      Accepts bound a (.inst i) { a with module := Section.executionModes.add h m' }
  | place {i : Inst ResultId} {j : Inst Handle} {m m' : Module} {h : Handle} {a' : Assembly}
      (hl : a.module.Links m i j) (hs : m.Saves bound m' h j)
      (hmode : i.opcode ≠ Form.executionMode.opcode)
      (hplace : Assembly.place i.opcode h { a with module := m' } = .ok a') :
      Accepts bound a (.inst i) a'

section Accepting

variable {bound : ResultId} {r : Record} {a' : Assembly} {i : Inst ResultId} {j : Inst Handle}

theorem Assembled.links (hA : Assembled item known header xs a origin)
    (hbound : bound ≤ header.bound) (hread : i.Readable bound) :
    a.module.Links (i.link a.module).2 i (i.link a.module).1 := by
  have hlt : ∀ id ∈ i.references, id < a.module.header.bound := fun id hid =>
    hA.header ▸ UInt32.lt_of_lt_of_le (hread.references_below id hid).2 hbound
  obtain ⟨hmm, hm', hmap, hrefs⟩ := Module.link_spec hA.stores.indexed hlt
  exact ⟨hmm, hm', hmap, hrefs⟩

theorem Assembled.saves (hA : Assembled item known header xs a origin)
    (hbound : bound ≤ header.bound) (hl : a.module.Links m i j)
    (hins : m.insert bound j = .ok (h, m')) : m.Saves bound m' h j := by
  obtain ⟨_, _, hframe⟩ := hl.mentions.frame
  have hheader : m.header = header := by
    rw [hframe]
    exact hA.header
  obtain ⟨hinserts, hindexed, hbelow⟩ := Module.insert_spec hl.indexed (hheader ▸ hbound) hins
  exact ⟨hinserts, hindexed, hbelow⟩

theorem Assembled.accepts (hA : Assembled item known header xs a origin)
    (hbound : bound ≤ header.bound) (hr : Item.ofRecord bound r = .ok (item x))
    (hacc : a.accept bound r = .ok a') : a.Accepts bound (item x) a' := by
  obtain ⟨hread, hop, -⟩ := Item.readable_of_ofRecord hr
  simp only [Assembly.accept, hr, bind, Except.bind] at hacc
  generalize item x = y at hread hop hacc
  cases y with
  | entryPoint e =>
      have hlt : ∀ id ∈ e.references, id < a.module.header.bound := fun id hid =>
        hA.header ▸ UInt32.lt_of_lt_of_le (hread.references_below id hid).2 hbound
      obtain ⟨hmm, hm', hmap, hlinked⟩ := Module.linkEntryPoint_spec hA.stores.indexed hlt
      cases hacc
      exact .entryPoint hmm hm' hmap hlinked
  | functionEnd => exact .functionEnd (mapError_eq_ok.1 hacc)
  | inst i =>
      have hop : i.opcode = r.opcode := hop
      have hl := hA.links hbound hread
      rcases hlink : i.link a.module with ⟨j, m⟩
      simp only [hlink] at hl hacc
      cases hclaim : m.claimMode? j.kind with
      | some m' =>
          simp only [hclaim] at hacc
          cases hacc
          refine .claim hl ?_ hclaim
          obtain ⟨_, _, _, _, hkind, -⟩ := Module.claimMode?_eq_some.1 hclaim
          rw [← hl.opcode, Inst.opcode, hkind]
          rfl
      | none =>
          simp only [hclaim] at hacc
          obtain ⟨⟨h, m'⟩, hins, hacc⟩ := except_bind.1 hacc
          have hs := hA.saves hbound hl hins
          simp only at hacc
          split at hacc
          · rename_i hmode
            cases hacc
            exact .mode hl hclaim hs (hop.trans hmode)
          · rename_i hmode
            exact .place hl hs (hop ▸ hmode) (hop ▸ mapError_eq_ok.1 hacc)

theorem Assembled.pending (hA : Assembled item known header xs a origin)
    (hl : a.module.Links m i j) (hs : m.Saves bound m' h j) (hread : i.Readable bound)
    (hx : item x = .inst i) (hknown : ∀ id ∈ (item x).mentions, known id) :
    Pending item known header xs x h { a with module := m' }
      (Function.update origin h (some x)) := by
  rw [hx, Item.mentions, List.forall_mem_append] at hknown
  exact (hA.mentions hl.mentions hl.indexed hknown.1).inserts hs.inserts hs.indexed hl.isSome
    (hl.isPlaceholder hread) (hx.trans (congrArg Item.inst hl.map_idOf.symm))
    (by simpa [hl.resultId] using hknown.2)

/-- Reading one more record keeps the invariant. -/
theorem Assembled.accept (hA : Assembled item known header xs a origin)
    (hbound : bound ≤ header.bound) (hr : Item.ofRecord bound r = .ok (item x))
    (hknown : ∀ id ∈ (item x).mentions, known id) (hacc : a.accept bound r = .ok a') :
    ∃ origin', Assembled item known header (xs ++ [x]) a' origin' := by
  have hread := (Item.readable_of_ofRecord hr).1
  have haccepts := hA.accepts hbound hr hacc
  generalize hx : item x = y at hread haccepts
  rw [hx] at hknown
  cases haccepts with
  | entryPoint hmentions hindexed hmap hlinked =>
      have hA' := hA.mentions hmentions hindexed hknown
      exact ⟨origin, hA'.enter hlinked (hx.trans (congrArg Item.entryPoint hmap.symm))
        ((congrArg EntryPoint.localSize hmap).trans hread.localSize)⟩
  | functionEnd hclose => exact ⟨origin, hA.close hx hclose⟩
  | claim hl hmode hclaim =>
      rw [Item.mentions, List.forall_mem_append] at hknown
      have hA' := hA.mentions hl.mentions hl.indexed hknown.1
      exact ⟨origin, hA'.claim hl.isSome (hx.trans (congrArg Item.inst hl.map_idOf.symm))
        (hl.resultId.trans (hread.plain_of_executionMode hmode).2) hclaim⟩
  | mode hl hclaim hs hmode =>
      have hP := hA.pending hl hs hread hx (hx ▸ hknown)
      rw [Item.mentions, List.forall_mem_append] at hknown
      have hA' := hA.mentions hl.mentions hl.indexed hknown.1
      exact ⟨_, hP.addMode hx hmode (hA'.enters.place_ne_size hl.indexed hl.isSome
        (hx.trans (congrArg Item.inst hl.map_idOf.symm)) hclaim)⟩
  | place hl hs hmode hplace =>
      rename_i i j m m' h
      have hP := hA.pending hl hs hread hx (hx ▸ hknown)
      have hstored : (m'.inst h).opcode = i.opcode := by rw [hs.inserts.stored, hl.opcode]
      have hmark : (item x).mark = .inst (m'.inst h).opcode := by
        rw [hx, Item.mark_of_opcode_ne hmode, hstored]
      exact ⟨_, hP.place hmark (hstored ▸ hmode) (hstored ▸ hplace)⟩

end Accepting

/-! ### Records that are accepted -/

theorem Frames.exists_place (hF : Frames item xs a) {op : Opcode} {h : Handle}
    (hop : (a.module.inst h).opcode = op) (hmode : op ≠ Form.executionMode.opcode)
    (hallow : (after item xs).Allows (.inst op)) : ∃ a', a.place op h = .ok a' := by
  subst hop
  simp only [Context.Allows, hmode, false_or, hF.position] at hallow
  unfold Assembly.place
  cases hcurrent : a.current with
  | some f =>
      have hposition : a.position = f.position := by rw [Assembly.position, hcurrent]
      rw [hposition] at hallow
      have hadd : ∃ f', f.add (a.module.inst h).opcode h = .ok f' := by
        apply (hF.current f hcurrent).exists_add
        · intro hfunction
          simp only [hfunction] at hallow
          cases hf : f.position with
          | outside => exact OpenFunction.position_ne_outside f hf
          | header =>
              rw [hf] at hallow
              revert hallow
              decide
          | blocks =>
              rw [hf] at hallow
              exact hallow.1 rfl
        · intro hheader
          rw [hheader] at hallow
          exact hallow
        · intro hblocks
          rw [hblocks] at hallow
          exact hallow.2
      obtain ⟨f', hf'⟩ := hadd
      simp only [hf']
      exact ⟨_, rfl⟩
  | none =>
      have hposition : a.position = .outside := by rw [Assembly.position, hcurrent]
      rw [hposition] at hallow
      simp only
      split
      · exact ⟨_, rfl⟩
      · rw [if_neg (by simpa using hallow)]
        exact ⟨_, rfl⟩

theorem Stores.isPlaceholder_of_fresh (hS : Stores item xs m origin) {id : ResultId} {h : Handle}
    (hfresh : ∀ y ∈ xs, id ∉ (item y).result?) (hid : m.byId? id = some h) :
    (m.inst h).isPlaceholder := by
  by_contra hplace
  obtain ⟨y, hy, -, hitem⟩ := hS.stored h (by simpa using hplace)
  apply hfresh y hy
  rw [hitem]
  exact (hS.indexed id h).1 hid

/-- A record is accepted if it may stand where it stands and defines nothing twice. -/
theorem Assembled.exists_accept {bound : ResultId} {r : Record}
    (hA : Assembled item known header xs a origin) (hbound : bound ≤ header.bound)
    (hr : Item.ofRecord bound r = .ok (item x)) (hknown : ∀ id ∈ (item x).mentions, known id)
    (hallow : (after item xs).Allows (item x).mark)
    (hbelow : ∀ id ∈ (item x).result?, IdBelow bound id)
    (hfresh : ∀ id ∈ (item x).result?, ∀ y ∈ xs, id ∉ (item y).result?) :
    ∃ a', a.accept bound r = .ok a' := by
  obtain ⟨hread, hop, -⟩ := Item.readable_of_ofRecord hr
  simp only [Assembly.accept, hr, bind, Except.bind]
  cases hx : item x with
  | entryPoint e => exact ⟨_, rfl⟩
  | functionEnd =>
      rw [hx] at hallow
      have hopen : a.position ≠ .outside := hA.frames.position ▸ hallow
      cases hcurrent : a.current with
      | none => exact absurd (by rw [Assembly.position, hcurrent]) hopen
      | some f => exact ⟨_, by rw [Assembly.close, hcurrent]; rfl⟩
  | inst i =>
      rw [hx] at hread hop
      have hop : i.opcode = r.opcode := hop
      have hl := hA.links hbound hread
      rcases hlink : i.link a.module with ⟨j, m⟩
      simp only [hlink] at hl ⊢
      have hjid : j.resultId = (item x).result? := by rw [hl.resultId, hx, Item.result?]
      cases hclaim : m.claimMode? j.kind with
      | some m' => exact ⟨_, rfl⟩
      | none =>
          have hA' := hA.mentions hl.mentions hl.indexed
            (by rw [hx, Item.mentions, List.forall_mem_append] at hknown; exact hknown.1)
          obtain ⟨h, m', hins⟩ := Module.exists_insert (m := m) (i := j)
            (hjid ▸ hbelow) fun id hid g hg =>
              hA'.stores.isPlaceholder_of_fresh (hfresh id (hjid ▸ hid)) hg
          simp only [hins]
          split
          · exact ⟨_, rfl⟩
          · rename_i hmode
            have hs := hA.saves hbound hl hins
            have hP := hA.pending hl hs hread hx hknown
            have hstored : (m'.inst h).opcode = r.opcode := by
              rw [hs.inserts.stored, hl.opcode, hop]
            rw [hx, Item.mark_of_opcode_ne (hop.symm ▸ hmode), hop] at hallow
            obtain ⟨a₁, ha₁⟩ := hP.frames.exists_place hstored hmode hallow
            simp only [ha₁]
            exact ⟨_, rfl⟩

/-! ## Runs -/

theorem Assembled.start (header : Header) :
    Assembled item known header [] (.start header) fun _ => none := by
  have hinst (h : Handle) : (Assembly.start header).module.inst h = .plain .placeholder := rfl
  have hbyId (id : ResultId) : (Assembly.start header).module.byId? id = none := by
    simp [Module.byId?, Assembly.start, Module.empty]
  refine ⟨rfl, ?_, ⟨?_, ?_, ?_, fun _ _ => rfl, by simp⟩, ⟨?_, rfl, ?_⟩, ⟨?_, rfl⟩,
    ⟨?_, ?_, rfl⟩⟩
  · intro h id hid
    rw [hinst] at hid
    cases hid
  · intro id h
    rw [hbyId, hinst]
    simp [Inst.plain]
  · intro h r hr
    rw [hinst] at hr
    cases hr
  · intro h hh
    rw [hinst] at hh
    cases hh
  · intro s
    cases s <;> rfl
  · simp [Assembly.start, Module.empty, Assembly.openHandles]
  · simp [Assembly.start, Module.empty]
  · simp [Assembly.start, Module.empty]
  · simp [Assembly.start]

/-- A run assembles its records, and what each accepted record preserves holds behind it. -/
theorem Assembled.run_induction {P : List α → Assembly → Prop} {bound : ResultId}
    {records : List Record} {ys : List α} {a' : Assembly}
    (hread : List.Forall₂ (fun r y => Item.ofRecord bound r = .ok (item y)) records ys)
    (hA : Assembled item known header xs a origin) (hbound : bound ≤ header.bound)
    (hknown : ∀ y ∈ ys, ∀ id ∈ (item y).mentions, known id)
    (hrun : records.foldlM (Assembly.accept bound) a = .ok a') (hstart : P xs a)
    (hstep : ∀ {xs x a a' origin} {r : Record}, Assembled item known header xs a origin →
      Item.ofRecord bound r = .ok (item x) → a.accept bound r = .ok a' → P xs a →
        P (xs ++ [x]) a') :
    P (xs ++ ys) a' ∧ ∃ origin', Assembled item known header (xs ++ ys) a' origin' := by
  induction hread generalizing xs a origin with
  | nil =>
      cases hrun
      rw [List.append_nil]
      exact ⟨hstart, origin, hA⟩
  | @cons r y records ys hr _ ih =>
      rw [List.foldlM_cons] at hrun
      rw [List.forall_mem_cons] at hknown
      cases hacc : a.accept bound r with
      | error e =>
          rw [hacc] at hrun
          cases hrun
      | ok a₁ =>
          rw [hacc] at hrun
          obtain ⟨origin₁, hA₁⟩ := hA.accept hbound hr hknown.1 hacc
          rw [← List.singleton_append, ← List.append_assoc]
          exact ih hA₁ hknown.2 hrun (hstep hA hr hacc hstart)

theorem Assembled.run {bound : ResultId} {records : List Record} {ys : List α} {a' : Assembly}
    (hread : List.Forall₂ (fun r y => Item.ofRecord bound r = .ok (item y)) records ys)
    (hA : Assembled item known header xs a origin) (hbound : bound ≤ header.bound)
    (hknown : ∀ y ∈ ys, ∀ id ∈ (item y).mentions, known id)
    (hrun : records.foldlM (Assembly.accept bound) a = .ok a') :
    ∃ origin', Assembled item known header (xs ++ ys) a' origin' :=
  (hA.run_induction (P := fun _ _ => True) hread hbound hknown hrun trivial
    fun _ _ _ _ => trivial).2

theorem Assembled.exists_run {bound : ResultId} {records : List Record} {ys : List α}
    (hread : List.Forall₂ (fun r y => Item.ofRecord bound r = .ok (item y)) records ys)
    (hA : Assembled item known header xs a origin) (hbound : bound ≤ header.bound)
    (hknown : ∀ y ∈ ys, ∀ id ∈ (item y).mentions, known id)
    (hallow : (after item xs).AllowsAll (ys.map (Item.mark ∘ item)))
    (hbelow : ∀ y ∈ ys, ∀ id ∈ (item y).result?, IdBelow bound id)
    (hnodup : ((xs ++ ys).filterMap fun y => (item y).result?).Nodup) :
    ∃ a', records.foldlM (Assembly.accept bound) a = .ok a' := by
  induction hread generalizing xs a origin with
  | nil => exact ⟨a, rfl⟩
  | @cons r y records ys hr _ ih =>
      rw [List.forall_mem_cons] at hknown hbelow
      have hfresh : ∀ id ∈ (item y).result?, ∀ z ∈ xs, id ∉ (item z).result? := by
        intro id hid z hz hidz
        rw [List.filterMap_append, List.nodup_append] at hnodup
        exact hnodup.2.2 id (List.mem_filterMap.2 ⟨z, hz, hidz⟩) id
          (List.mem_filterMap.2 ⟨y, List.mem_cons_self, hid⟩) rfl
      obtain ⟨a₁, hacc⟩ := hA.exists_accept hbound hr hknown.1 hallow.1 hbelow.1 hfresh
      obtain ⟨origin₁, hA₁⟩ := hA.accept hbound hr hknown.1 hacc
      rw [List.foldlM_cons, hacc]
      exact ih hA₁ hknown.2 (by rw [after_concat]; exact hallow.2) hbelow.2
        (by simpa using hnodup)

end KernelGrid
