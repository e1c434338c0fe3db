import KernelGrid.Proofs.Module.Emission
import Mathlib.Data.List.Nodup

/-!
# Emitted places

What is written of a regular module may stand where it stands, and every record goes back to the
place that it comes from.
-/

namespace KernelGrid.Module

variable {m : Module}

theorem Regular.sorts_sections (hm : m.Regular) {c : Context}
    (hposition : c.position = .outside) (hentered : ∀ id ∈ c.entered, id ∈ m.enteredIds)
    (ss : List Section) :
    Sorts emittedMark c (m.emitSections ss) c fun p =>
      ss.flatMap fun s => if .listed s = p then (s.handles m).map m.emitInst else [] := by
  induction ss with
  | nil => exact ⟨trivial, rfl, fun _ => rfl⟩
  | cons s ss ih =>
      have hs := (hm.stretch_section hposition hentered s).sorts.append ih
      simpa [emitSections] using hs

theorem mem_sizes {x : Item ResultId × Handle} (hx : x ∈ m.entryPoints.filterMap m.emitSize?) :
    ∃ e ∈ m.entryPoints, ∃ size ∈ e.localSize, x = (.inst (.plain
      (.executionMode (m.idOf e.function) .localSize size.toList)), e.function) := by
  obtain ⟨e, he, hx⟩ := List.mem_filterMap.1 hx
  obtain ⟨size, hsize, rfl⟩ := Option.map_eq_some_iff.1 hx
  exact ⟨e, he, size, hsize, rfl⟩

def entered (m : Module) : Context := ⟨.outside, m.enteredIds⟩

theorem sorts_sizes (m : Module) :
    Sorts emittedMark m.entered (m.entryPoints.filterMap m.emitSize?) m.entered fun p =>
      (m.entryPoints.filterMap m.emitSize?).filter fun x => Place.size (m.idOf x.2) = p := by
  have hmark : ∀ x ∈ m.entryPoints.filterMap m.emitSize?,
      emittedMark x = .size (m.idOf x.2) ∧ m.idOf x.2 ∈ m.enteredIds := by
    intro x hx
    obtain ⟨e, he, size, -, rfl⟩ := mem_sizes hx
    exact ⟨rfl, List.mem_map_of_mem he⟩
  have hallow : ∀ x ∈ m.entryPoints.filterMap m.emitSize?, m.entered.Allows (emittedMark x) := by
    intro x hx
    rw [(hmark x hx).1]
    trivial
  have hnext : ∀ x ∈ m.entryPoints.filterMap m.emitSize?,
      m.entered.next (emittedMark x) = m.entered := by
    intro x hx
    rw [(hmark x hx).1]
    rfl
  have hsorts := Sorts.of_stable hallow hnext
  refine ⟨hsorts.allowed, hsorts.run_eq, ?_⟩
  intro p
  rw [hsorts.inPlace_eq]
  apply List.filter_congr
  intro x hx
  obtain ⟨hx, hmem⟩ := hmark x hx
  rw [hx, Context.place, if_pos (show m.idOf x.2 ∈ m.entered.entered from hmem)]

def emittedTo (m : Module) : Place → List (Item ResultId × Handle)
  | .listed s => (s.handles m).map m.emitInst
  | .entryPoint => m.entryPoints.map m.emitEntry
  | .size f => (m.entryPoints.filterMap m.emitSize?).filter fun x => m.idOf x.2 = f
  | .function => m.functions.flatMap m.emitFunction

/-- Everything goes back to the place that it comes from. -/
theorem Regular.sorts_emitted (hm : m.Regular) :
    Sorts emittedMark .start m.emitted m.entered m.emittedTo := by
  have hfirst := hm.sorts_sections (c := .start) rfl (by simp [Context.start])
    [.capabilities, .extensions, .extInstImports, .memoryModel]
  have hentries := (m.stretch_entries .start m.entryPoints).sorts
  have hlast := hm.sorts_sections (c := m.entered) rfl (fun _ hid => hid)
    [.executionModes, .debug, .annotations, .globals]
  have hfunctions := (hm.stretch_functions (c := m.entered) rfl (fun f hf => hf)).sorts
  have hall := (((hfirst.append hentries).append m.sorts_sizes).append hlast).append hfunctions
  refine ⟨hall.allowed, hall.run_eq, ?_⟩
  intro p
  refine (hall.inPlace_eq p).trans ?_
  cases p with
  | listed s => cases s <;> simp [emittedTo]
  | entryPoint | size | function => simp [emittedTo]

end KernelGrid.Module

/-! ## Sizes in front of entry points -/

namespace KernelGrid

def Place.Firm (p : Place) : Prop := p ≠ .listed .executionModes ∧ ∀ f, p ≠ .size f

namespace Module.Legible

variable {m : Module} (hm : m.Legible)

include hm

theorem sorts_sections {c : Context} (hposition : c.position = .outside) (ss : List Section) :
    Sorts emittedMark c (m.emitSections ss) c fun p =>
      (m.emitSections ss).filter fun x => c.place (emittedMark x) = p := by
  have hstable : ∀ x ∈ m.emitSections ss,
      c.Allows (emittedMark x) ∧ c.next (emittedMark x) = c := by
    intro x hx
    obtain ⟨h, hh, rfl⟩ := List.mem_map.1 hx
    obtain ⟨s, -, hs⟩ := List.mem_flatMap.1 hh
    obtain ⟨hallow, hnext, -⟩ := hm.section_place hposition hs
    exact ⟨hallow, hnext⟩
  exact .of_stable (fun x hx => (hstable x hx).1) fun x hx => (hstable x hx).2

theorem filter_section {c : Context} (hposition : c.position = .outside) {p : Place}
    (hp : p.Firm) (s : Section) :
    ((s.handles m).map m.emitInst).filter (fun x => c.place (emittedMark x) = p) =
      if .listed s = p then (s.handles m).map m.emitInst else [] := by
  have hplace : ∀ x ∈ (s.handles m).map m.emitInst,
      c.place (emittedMark x) = p ↔ .listed s = p := by
    intro x hx
    obtain ⟨h, hh, rfl⟩ := List.mem_map.1 hx
    obtain ⟨-, -, heq | ⟨rfl, function, x, y, z, -, -, heq⟩⟩ := hm.section_place hposition hh
    · rw [heq]
    · rw [heq]
      exact ⟨fun h => absurd h.symm (hp.2 _), fun h => absurd h.symm hp.1⟩
  split
  · rename_i hs
    exact List.filter_eq_self.2 fun x hx => decide_eq_true ((hplace x hx).2 hs)
  · rename_i hs
    exact List.filter_eq_nil_iff.2 fun x hx hmem => hs ((hplace x hx).1 (of_decide_eq_true hmem))

theorem filter_sections {c : Context} (hposition : c.position = .outside) {p : Place}
    (hp : p.Firm) (ss : List Section) :
    (m.emitSections ss).filter (fun x => c.place (emittedMark x) = p) =
      ss.flatMap fun s => if .listed s = p then (s.handles m).map m.emitInst else [] := by
  rw [emitSections, List.map_flatMap, List.filter_flatMap]
  exact List.flatMap_congr fun s _ => hm.filter_section hposition hp s

/-- Wherever sizes of work groups do not go, everything goes back to the place that it comes
from. -/
theorem sorts_emitted : ∃ out, Sorts emittedMark .start m.emitted m.entered out ∧
    ∀ p : Place, p.Firm → out p = m.emittedTo p := by
  have hfirst := hm.sorts_sections (c := .start) rfl
    [.capabilities, .extensions, .extInstImports, .memoryModel]
  have hentries := (m.stretch_entries .start m.entryPoints).sorts
  have hlast :=
    hm.sorts_sections (c := m.entered) rfl [.executionModes, .debug, .annotations, .globals]
  have hfunctions := (hm.stretch_functions (c := m.entered) rfl (fun f hf => hf)).sorts
  refine ⟨_, (((hfirst.append hentries).append m.sorts_sizes).append hlast).append hfunctions,
    ?_⟩
  intro p hp
  rw [hm.filter_sections rfl hp, hm.filter_sections rfl hp]
  cases p with
  | listed s =>
      cases s
      case executionModes => exact absurd rfl hp.1
      all_goals simp [emittedTo]
  | size f => exact absurd rfl (hp.2 f)
  | entryPoint | function => simp [emittedTo]

end Module.Legible

end KernelGrid
