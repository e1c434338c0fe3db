import KernelGrid.Proofs.Kernel.EditRules
import KernelGrid.Proofs.Module.Editing

/-!
# Edits of a lowering

Buffers, built-in variables, the global block and the metadata of allocations keep a module
sound, also where the edit fails half-way.
-/

namespace KernelGrid.Module

variable {m m₀ : Module}

/-! ## Looking up -/

theorem Sound.usable_of_named (hm : m.Sound) {name : String} {h : Handle}
    (hh : h ∈ m.named name) : m.Usable h := by
  obtain ⟨g, -, hkind⟩ := List.mem_filterMap.1 hh
  split at hkind
  next t text heq =>
    split at hkind
    · obtain rfl := Option.some.inj hkind
      exact hm.usable_of_kindOf (h := g) (by simp [heq, Kind.references, Kind.operands])
    · cases hkind
  · cases hkind

theorem Sound.usable_of_findBuiltIn? (hm : m.Sound) {builtIn : Word} {h : Handle}
    (hfind : m.findBuiltIn? builtIn = some h) : m.Usable h := by
  obtain ⟨g, -, ⟨words, heq⟩, -⟩ := exists_note_of_findBuiltIn? hfind
  exact hm.usable_of_kindOf (h := g) (by simp [heq, Kind.references, Kind.operands])

theorem Sound.usable_of_pointeeStruct? (hm : m.Sound) {h block : Handle} {members : List Handle}
    (hblock : m.pointeeStruct? h = some (block, members)) : m.Usable block := by
  simp only [pointeeStruct?, bind, Option.bind_eq_some_iff] at hblock
  obtain ⟨pointer, -, block', hpointee, hstruct⟩ := hblock
  have heq : block' = block := by
    split at hstruct
    · exact (Prod.mk.inj (Option.some.inj hstruct)).1
    · cases hstruct
  unfold pointee? at hpointee
  split at hpointee
  next storage pointee hkind =>
    obtain rfl := Option.some.inj hpointee
    rw [← heq]
    exact hm.usable_of_kindOf (h := pointer)
      (by simp [hkind, Kind.references, Kind.operands, List.filterMap_cons])
  · cases hpointee

/-! ## Edits -/

theorem edited_rules (m₀ : Module) : EditRules (Edited m₀) fun m t => m.Usable t.handle where
  decorate htarget := (keeps_decorate (List.mem_map_of_mem (f := Use.handle) htarget)).comap
  memberDecorate htarget :=
    (keeps_memberDecorate (List.mem_map_of_mem (f := Use.handle) htarget)).comap
  internType hkind hreferences := (keeps_internType hkind fun r hr =>
    List.mem_map_of_mem (f := Use.handle) (hreferences r hr)).comap
  internConstant hkind htype hreferences :=
    (keeps_internConstant hkind (List.mem_map_of_mem (f := Use.handle) htype) fun r hr =>
      List.mem_map_of_mem (f := Use.handle) (hreferences r hr)).comap
  freshStructType hmembers := (keeps_freshStructType fun r hr =>
    List.mem_map_of_mem (f := Use.handle) (hmembers r hr)).comap
  addGlobalVar hpointer := (keeps_addGlobalVar
    (List.mem_map_of_mem (f := Use.handle) hpointer)).comap
  builtIn hm hfind := hm.sound.usable_of_findBuiltIn? hfind

theorem keeps_decorateGlobalBlock (host : Host) :
    KeepsTrying (Edited m₀) (fun m (t : Use) => m.Usable t.handle) [] (decorateGlobalBlock host)
      fun _ => [] :=
  (edited_rules m₀).decorateGlobalBlock (fun _ hm _ _ hh => hm.sound.usable_of_named hh)
    (fun _ hm _ _ _ hblock => hm.sound.usable_of_pointeeStruct? hblock) host

theorem keeps_declareMetadata :
    Keeps (Edited m₀) (fun m (t : Use) => m.Usable t.handle) [] declareMetadata
      fun h => [.declaration h] := (edited_rules m₀).declareMetadata

end KernelGrid.Module
