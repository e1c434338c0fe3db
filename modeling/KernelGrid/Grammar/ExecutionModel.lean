import KernelGrid.Grammar.Enumerant

/-!
# Execution models and modes

The pipeline stage of an entry point, and the modes that refine how it runs.
-/

namespace KernelGrid

/-- Execution models by number. -/
def ExecutionModel.vocabulary : Vocabulary where
  label := "execution model"
  entries := [
    (0, "Vertex"), (1, "TessellationControl"), (2, "TessellationEvaluation"), (3, "Geometry"),
    (4, "Fragment"), (5, "GLCompute"), (6, "Kernel"), (5267, "TaskNV"), (5268, "MeshNV"),
    (5313, "RayGenerationNV"), (5314, "IntersectionNV"), (5315, "AnyHitNV"),
    (5316, "ClosestHitNV"), (5317, "MissNV"), (5318, "CallableNV"), (5364, "TaskEXT"),
    (5365, "MeshEXT")]

abbrev ExecutionModel := Enumerant ExecutionModel.vocabulary

namespace ExecutionModel

def compute : ExecutionModel := ⟨5, by decide⟩

end ExecutionModel

/-- Execution modes by number. -/
def ExecutionMode.vocabulary : Vocabulary where
  label := "execution mode"
  entries := [
    (0, "Invocations"), (1, "SpacingEqual"), (2, "SpacingFractionalEven"),
    (3, "SpacingFractionalOdd"), (4, "VertexOrderCw"), (5, "VertexOrderCcw"),
    (6, "PixelCenterInteger"), (7, "OriginUpperLeft"), (8, "OriginLowerLeft"),
    (9, "EarlyFragmentTests"), (10, "PointMode"), (11, "Xfb"), (12, "DepthReplacing"),
    (14, "DepthGreater"), (15, "DepthLess"), (16, "DepthUnchanged"), (17, "LocalSize"),
    (18, "LocalSizeHint"), (19, "InputPoints"), (20, "InputLines"), (21, "InputLinesAdjacency"),
    (22, "Triangles"), (23, "InputTrianglesAdjacency"), (24, "Quads"), (25, "Isolines"),
    (26, "OutputVertices"), (27, "OutputPoints"), (28, "OutputLineStrip"),
    (29, "OutputTriangleStrip"), (30, "VecTypeHint"), (31, "ContractionOff"),
    (33, "Initializer"), (34, "Finalizer"), (35, "SubgroupSize"), (36, "SubgroupsPerWorkgroup"),
    (37, "SubgroupsPerWorkgroupId"), (38, "LocalSizeId"), (39, "LocalSizeHintId"),
    (4169, "NonCoherentColorAttachmentReadEXT"), (4170, "NonCoherentDepthAttachmentReadEXT"),
    (4171, "NonCoherentStencilAttachmentReadEXT"), (4421, "SubgroupUniformControlFlowKHR"),
    (4446, "PostDepthCoverage"), (4459, "DenormPreserve"), (4460, "DenormFlushToZero"),
    (4461, "SignedZeroInfNanPreserve"), (4462, "RoundingModeRTE"), (4463, "RoundingModeRTZ"),
    (5017, "EarlyAndLateFragmentTestsAMD"), (5027, "StencilRefReplacingEXT"),
    (5069, "CoalescingAMDX"), (5071, "MaxNodeRecursionAMDX"), (5072, "StaticNumWorkgroupsAMDX"),
    (5073, "ShaderIndexAMDX"), (5077, "MaxNumWorkgroupsAMDX"),
    (5079, "StencilRefUnchangedFrontAMD"), (5080, "StencilRefGreaterFrontAMD"),
    (5081, "StencilRefLessFrontAMD"), (5082, "StencilRefUnchangedBackAMD"),
    (5083, "StencilRefGreaterBackAMD"), (5084, "StencilRefLessBackAMD"), (5269, "OutputLinesNV"),
    (5270, "OutputPrimitivesNV"), (5289, "DerivativeGroupQuadsNV"),
    (5290, "DerivativeGroupLinearNV"), (5298, "OutputTrianglesNV"),
    (5366, "PixelInterlockOrderedEXT"), (5367, "PixelInterlockUnorderedEXT"),
    (5368, "SampleInterlockOrderedEXT"), (5369, "SampleInterlockUnorderedEXT"),
    (5370, "ShadingRateInterlockOrderedEXT"), (5371, "ShadingRateInterlockUnorderedEXT"),
    (5618, "SharedLocalMemorySizeINTEL"), (5620, "RoundingModeRTPINTEL"),
    (5621, "RoundingModeRTNINTEL"), (5622, "FloatingPointModeALTINTEL"),
    (5623, "FloatingPointModeIEEEINTEL"), (5893, "MaxWorkgroupSizeINTEL"),
    (5894, "MaxWorkDimINTEL"), (5895, "NoGlobalOffsetINTEL"), (5896, "NumSIMDWorkitemsINTEL"),
    (5903, "SchedulerTargetFmaxMhzINTEL"), (6154, "StreamingInterfaceINTEL"),
    (6160, "RegisterMapInterfaceINTEL"), (6417, "NamedBarrierCountINTEL")]

abbrev ExecutionMode := Enumerant ExecutionMode.vocabulary

namespace ExecutionMode

def localSize : ExecutionMode := ⟨17, by decide⟩

end ExecutionMode

end KernelGrid
