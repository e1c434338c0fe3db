import KernelGrid.Module.Debug

/-!
# The preamble of a compute program

What every lowered module requires of its consumer and states about its source.
-/

namespace KernelGrid

/-- The instruction set that every compute program imports. -/
def extInstSet : String := "GLSL.std.450"

/-- The number of the source language. -/
def sourceLanguage : Word := 2

def sourceVersion : Word := 450

def sourceExtensions : List String :=
  ["GL_ARB_separate_shader_objects", "GL_ARB_shading_language_420pack",
    "GL_GOOGLE_cpp_style_line_directive", "GL_GOOGLE_include_directive"]

/-- States what a compute program needs, where it is not stated yet. -/
def Module.addComputePreamble : Edit Unit := do
  addCapability .shader
  setMemoryModel .physical32 .glsl450
  let _ ← addExtInstImport extInstSet
  setSource sourceLanguage sourceVersion
  sourceExtensions.forM addSourceExtension

end KernelGrid
