import KernelGrid.Grammar.Enumerant

/-!
# Storage classes

Where a pointer points and where a variable lives.
-/

namespace KernelGrid

/-- Storage classes by number. -/
def StorageClass.vocabulary : Vocabulary where
  label := "storage class"
  entries := [
    (0, "UniformConstant"), (1, "Input"), (2, "Uniform"), (3, "Output"), (4, "Workgroup"),
    (5, "CrossWorkgroup"), (6, "Private"), (7, "Function"), (8, "Generic"), (9, "PushConstant"),
    (10, "AtomicCounter"), (11, "Image"), (12, "StorageBuffer"), (4172, "TileImageEXT"),
    (5068, "NodePayloadAMDX"), (5076, "NodeOutputPayloadAMDX"), (5328, "CallableDataNV"),
    (5329, "IncomingCallableDataNV"), (5338, "RayPayloadNV"), (5339, "HitAttributeNV"),
    (5342, "IncomingRayPayloadNV"), (5343, "ShaderRecordBufferNV"),
    (5349, "PhysicalStorageBuffer"), (5385, "HitObjectAttributeNV"),
    (5402, "TaskPayloadWorkgroupEXT"), (5605, "CodeSectionINTEL"), (5936, "DeviceOnlyINTEL"),
    (5937, "HostOnlyINTEL")]

abbrev StorageClass := Enumerant StorageClass.vocabulary

namespace StorageClass

def input : StorageClass := ⟨1, by decide⟩
def uniform : StorageClass := ⟨2, by decide⟩
def output : StorageClass := ⟨3, by decide⟩
def function : StorageClass := ⟨7, by decide⟩

end StorageClass

end KernelGrid
