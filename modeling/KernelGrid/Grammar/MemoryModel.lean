import KernelGrid.Grammar.Enumerant

/-!
# Addressing and memory models

The two choices that every module makes once.
-/

namespace KernelGrid

/-- Addressing models by number. -/
def AddressingModel.vocabulary : Vocabulary where
  label := "addressing model"
  entries := [
    (0, "Logical"), (1, "Physical32"), (2, "Physical64"), (5348, "PhysicalStorageBuffer64")]

abbrev AddressingModel := Enumerant AddressingModel.vocabulary

namespace AddressingModel

def physical32 : AddressingModel := ⟨1, by decide⟩

end AddressingModel

/-- Memory models by number. -/
def MemoryModel.vocabulary : Vocabulary where
  label := "memory model"
  entries := [
    (0, "Simple"), (1, "GLSL450"), (2, "OpenCL"), (3, "Vulkan")]

abbrev MemoryModel := Enumerant MemoryModel.vocabulary

namespace MemoryModel

def glsl450 : MemoryModel := ⟨1, by decide⟩

end MemoryModel

end KernelGrid
