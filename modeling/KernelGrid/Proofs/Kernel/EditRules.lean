import KernelGrid.Kernel.Entry
import KernelGrid.Kernel.GlobalBlock
import KernelGrid.Kernel.Metadata
import KernelGrid.Proofs.Inst.Traversal
import KernelGrid.Proofs.Runs

/-!
# What edits keep

All edits of a lowering are made of a few primitive ones.  A property that these keep, with the
handles that they may be given, is kept by every edit, also where it fails half-way.
-/

namespace KernelGrid

/-- What a handle may be used for: other declarations mention it, code does, or buffers are
made of it. -/
inductive Use where
  | declaration (h : Handle)
  | value (h : Handle)
  | element (h : Handle)

def Use.handle : Use → Handle
  | declaration h | value h | element h => h

namespace Module

/-- A property of modules and one of handles in them, kept wherever something is decorated. -/
structure AnnotationRules (P : Module → Prop) (U : Module → Use → Prop) : Prop where
  decorate {known : List Use} {target : Handle} {decoration : Decoration} {words : List Word} :
    .declaration target ∈ known → Keeps P U known (decorate target decoration words) fun _ => []
  memberDecorate {known : List Use} {target : Handle} {member : Word} {decoration : Decoration}
    {words : List Word} : .declaration target ∈ known →
    Keeps P U known (memberDecorate target member decoration words) fun _ => []

structure EditRules (P : Module → Prop) (U : Module → Use → Prop) : Prop
    extends AnnotationRules P U where
  internType {known : List Use} {kind : Kind Handle} : kind.isType →
    (∀ r ∈ kind.references, .declaration r ∈ known) →
    Keeps P U known (internType kind) fun h => [.declaration h]
  internConstant {known : List Use} {type : Handle} {kind : Kind Handle} : kind.isConstant →
    .declaration type ∈ known → (∀ r ∈ kind.references, .declaration r ∈ known) →
    Keeps P U known (internConstant type kind) fun h => [.declaration h]
  freshStructType {known : List Use} {members : List Handle} :
    (∀ r ∈ members, .declaration r ∈ known) →
    Keeps P U known (freshStructType members) fun h => [.declaration h]
  addGlobalVar {known : List Use} {pointer : Handle} {storage : StorageClass} :
    .declaration pointer ∈ known →
    Keeps P U known (addGlobalVar pointer storage) fun h => [.declaration h]
  builtIn {m : Module} {builtIn : Word} {h : Handle} : P m → m.findBuiltIn? builtIn = some h →
    U m (.declaration h)

variable {P : Module → Prop} {U : Module → Use → Prop} {known : List Use}

namespace AnnotationRules

variable (hr : AnnotationRules P U)

include hr

theorem bindSlot {var : Handle} (binding : Word) (hvar : .declaration var ∈ known) :
    Keeps P U known (bindSlot var binding) fun _ => [] := by
  refine .bind (hr.decorate hvar) fun _ => ?_
  exact .bind (hr.decorate hvar) fun _ => .pure (by simp)

variable (hnamed : ∀ m, P m → ∀ name, ∀ h ∈ m.named name, U m (.declaration h))

include hnamed

theorem bindAllocations (names : List String) :
    KeepsTrying P U known (bindAllocations names) fun _ => [] := by
  refine .forM fun ⟨name, i⟩ _ => ?_
  refine .bind (.get (fun m => (m.findNamed? name).toList.map .declaration) ?_) fun m => ?_
  · intro m hm t ht
    obtain ⟨h, hh, rfl⟩ := List.mem_map.1 ht
    exact hnamed m hm name h (List.mem_of_head? (Option.mem_toList.1 hh))
  cases hfind : m.findNamed? name with
  | some var => exact .lift (hr.bindSlot _ (by simp))
  | none => exact .throw

theorem decorateGlobalBlock (hblock : ∀ m, P m → ∀ h block members,
      m.pointeeStruct? h = some (block, members) → U m (.declaration block)) (host : Host) :
    KeepsTrying P U known (decorateGlobalBlock host) fun _ => [] := by
  unfold Module.decorateGlobalBlock
  refine .bind (.get (fun m => (m.findNamed? globalBlockName).toList.map .declaration ++
    ((m.findNamed? globalBlockName).bind m.pointeeStruct?).toList.map
      (.declaration ∘ Prod.fst)) ?_) fun m => ?_
  · refine fun m hm => List.forall_mem_append.2 ⟨fun t ht => ?_, fun t ht => ?_⟩
    · obtain ⟨h, hh, rfl⟩ := List.mem_map.1 ht
      exact hnamed m hm _ h (List.mem_of_head? (Option.mem_toList.1 hh))
    · obtain ⟨⟨block, members⟩, hmem, rfl⟩ := List.mem_map.1 ht
      obtain ⟨var, -, hfound⟩ := Option.bind_eq_some_iff.1 (Option.mem_toList.1 hmem)
      exact hblock m hm var block members hfound
  cases hfind : m.findNamed? globalBlockName with
  | none => exact .pure (by simp)
  | some var =>
      cases hfound : m.pointeeStruct? var with
      | none =>
          simp only [hfound]
          exact .throw
      | some found =>
          obtain ⟨block, members⟩ := found
          simp only [hfound]
          refine .bind (.lift (hr.bindSlot _ (by simp))) fun _ => ?_
          refine .bind (.lift (hr.decorate (by simp [hfound]))) fun _ => ?_
          split
          · exact .pure (by simp)
          · exact .throw
          split
          · exact .throw_bind
          · refine .bind (.forIn fun _ _ _ => ?_) fun _ => ?_
            · exact .bind (.lift (hr.memberDecorate (by simp [hfound]))) fun _ => .pure (by simp)
            split
            · exact .pure (by simp)
            · exact .bind (hr.bindAllocations hnamed _) fun _ => .pure (by simp)

end AnnotationRules

namespace EditRules

variable (hr : EditRules P U)

include hr

theorem builtInVar (builtIn : Word) :
    Keeps P U known (builtInVar builtIn) fun h => [.declaration h] := by
  unfold Module.builtInVar
  refine .bind (.get (fun m => (m.findBuiltIn? builtIn).toList.map .declaration) ?_) fun m => ?_
  · intro m hm t ht
    obtain ⟨h, hh, rfl⟩ := List.mem_map.1 ht
    exact hr.builtIn hm (Option.mem_toList.1 hh)
  cases hfind : m.findBuiltIn? builtIn with
  | some h => exact .pure (by simp)
  | none =>
      refine .bind (hr.internType rfl (by simp [Kind.references, Kind.operands])) fun word => ?_
      refine .bind (hr.internType rfl (by simp [Kind.references, Kind.operands]))
        fun triple => ?_
      refine .bind (hr.internType rfl
        (by simp [Kind.references, Kind.operands, List.filterMap_cons])) fun pointer => ?_
      refine .bind (hr.addGlobalVar (by simp)) fun var => ?_
      exact .bind (hr.decorate (by simp)) fun _ => .pure (by simp)

theorem addBlockVar {block : Handle} (binding : Word) (hblock : .declaration block ∈ known) :
    Keeps P U known (addBlockVar block binding) fun h => [.declaration h] := by
  refine .bind (hr.internType rfl
    (by simpa [Kind.references, Kind.operands, List.filterMap_cons] using hblock))
    fun pointer => ?_
  refine .bind (hr.addGlobalVar (by simp)) fun var => ?_
  exact .bind (hr.bindSlot binding (by simp)) fun _ => .pure (by simp)

theorem addBuffer {element : Handle} (binding : Word) (helement : .declaration element ∈ known) :
    KeepsTrying P U known (addBuffer element binding) fun h => [.declaration h] := by
  unfold Module.addBuffer
  refine .bind (.get (fun _ => []) (by simp)) fun m => ?_
  refine .bind .ofExcept fun stride => ?_
  refine .bind (.lift (hr.internType rfl
    (by simpa [Kind.references, Kind.operands] using helement))) fun array => ?_
  refine .bind (.lift (hr.decorate (by simp))) fun _ => ?_
  refine .bind (.lift (hr.internType rfl
    (by simp [Kind.references, Kind.operands]))) fun block => ?_
  refine .bind (.lift (hr.decorate (by simp))) fun _ => ?_
  refine .bind (.lift (hr.memberDecorate (by simp))) fun _ => ?_
  exact .lift (hr.addBlockVar binding (by simp))

theorem addMetadata : Keeps P U known addMetadata fun h => [.declaration h] := by
  unfold Module.addMetadata
  refine .bind (hr.internType rfl (by simp [Kind.references, Kind.operands])) fun word => ?_
  refine .bind (hr.freshStructType (by simp [metadataOffsets])) fun record => ?_
  refine .bind (.forIn fun _ _ _ => ?_) fun _ => ?_
  · exact .bind (hr.memberDecorate (by simp)) fun _ => .pure (by simp)
  refine .bind (hr.internType rfl (by simp [Kind.references, Kind.operands])) fun array => ?_
  refine .bind (hr.decorate (by simp)) fun _ => ?_
  refine .bind (hr.internType rfl (by simp [Kind.references, Kind.operands])) fun block => ?_
  refine .bind (hr.decorate (by simp)) fun _ => ?_
  exact hr.addBlockVar metadataBinding (by simp)

theorem declareMetadata : Keeps P U known declareMetadata fun h => [.declaration h] := by
  unfold Module.declareMetadata
  refine .bind hr.addMetadata fun metadata => ?_
  refine .bind (hr.internType rfl (by simp [Kind.references, Kind.operands])) fun word => ?_
  refine .bind (hr.internConstant rfl (by simp) (by simp [Kind.references, Kind.operands]))
    fun _ => ?_
  refine .bind (hr.internConstant rfl (by simp) (by simp [Kind.references, Kind.operands]))
    fun _ => ?_
  exact .bind (hr.internType rfl
    (by simp [Kind.references, Kind.operands, List.filterMap_cons])) fun _ => .pure (by simp)

end EditRules

end Module

end KernelGrid
