import KernelGrid.Grammar.Enumerant

/-!
# Decorations

Facts that an instruction can attach to a result or to a member of a struct type.
-/

namespace KernelGrid

/-- Decorations by number. -/
def Decoration.vocabulary : Vocabulary where
  label := "decoration"
  entries := [
    (0, "RelaxedPrecision"), (1, "SpecId"), (2, "Block"), (3, "BufferBlock"), (4, "RowMajor"),
    (5, "ColMajor"), (6, "ArrayStride"), (7, "MatrixStride"), (8, "GLSLShared"),
    (9, "GLSLPacked"), (10, "CPacked"), (11, "BuiltIn"), (13, "NoPerspective"), (14, "Flat"),
    (15, "Patch"), (16, "Centroid"), (17, "Sample"), (18, "Invariant"), (19, "Restrict"),
    (20, "Aliased"), (21, "Volatile"), (22, "Constant"), (23, "Coherent"), (24, "NonWritable"),
    (25, "NonReadable"), (26, "Uniform"), (27, "UniformId"), (28, "SaturatedConversion"),
    (29, "Stream"), (30, "Location"), (31, "Component"), (32, "Index"), (33, "Binding"),
    (34, "DescriptorSet"), (35, "Offset"), (36, "XfbBuffer"), (37, "XfbStride"),
    (38, "FuncParamAttr"), (39, "FPRoundingMode"), (40, "FPFastMathMode"),
    (41, "LinkageAttributes"), (42, "NoContraction"), (43, "InputAttachmentIndex"),
    (44, "Alignment"), (45, "MaxByteOffset"), (46, "AlignmentId"), (47, "MaxByteOffsetId"),
    (4469, "NoSignedWrap"), (4470, "NoUnsignedWrap"), (4487, "WeightTextureQCOM"),
    (4488, "BlockMatchTextureQCOM"), (4999, "ExplicitInterpAMD"),
    (5019, "NodeSharesPayloadLimitsWithAMDX"), (5020, "NodeMaxPayloadsAMDX"),
    (5078, "TrackFinishWritingAMDX"), (5091, "PayloadNodeNameAMDX"),
    (5248, "OverrideCoverageNV"), (5250, "PassthroughNV"), (5252, "ViewportRelativeNV"),
    (5256, "SecondaryViewportRelativeNV"), (5271, "PerPrimitiveNV"), (5272, "PerViewNV"),
    (5273, "PerTaskNV"), (5285, "PerVertexKHR"), (5300, "NonUniform"), (5355, "RestrictPointer"),
    (5356, "AliasedPointer"), (5386, "HitObjectShaderRecordBufferNV"),
    (5398, "BindlessSamplerNV"), (5399, "BindlessImageNV"), (5400, "BoundSamplerNV"),
    (5401, "BoundImageNV"), (5599, "SIMTCallINTEL"), (5602, "ReferencedIndirectlyINTEL"),
    (5607, "ClobberINTEL"), (5608, "SideEffectsINTEL"), (5624, "VectorComputeVariableINTEL"),
    (5625, "FuncParamIOKindINTEL"), (5626, "VectorComputeFunctionINTEL"),
    (5627, "StackCallINTEL"), (5628, "GlobalVariableOffsetINTEL"), (5634, "CounterBuffer"),
    (5635, "UserSemantic"), (5636, "UserTypeGOOGLE"), (5822, "FunctionRoundingModeINTEL"),
    (5823, "FunctionDenormModeINTEL"), (5825, "RegisterINTEL"), (5826, "MemoryINTEL"),
    (5827, "NumbanksINTEL"), (5828, "BankwidthINTEL"), (5829, "MaxPrivateCopiesINTEL"),
    (5830, "SinglepumpINTEL"), (5831, "DoublepumpINTEL"), (5832, "MaxReplicatesINTEL"),
    (5833, "SimpleDualPortINTEL"), (5834, "MergeINTEL"), (5835, "BankBitsINTEL"),
    (5836, "ForcePow2DepthINTEL"), (5899, "BurstCoalesceINTEL"), (5900, "CacheSizeINTEL"),
    (5901, "DontStaticallyCoalesceINTEL"), (5902, "PrefetchINTEL"), (5905, "StallEnableINTEL"),
    (5907, "FuseLoopsInFunctionINTEL"), (5909, "MathOpDSPModeINTEL"), (5914, "AliasScopeINTEL"),
    (5915, "NoAliasINTEL"), (5917, "InitiationIntervalINTEL"), (5918, "MaxConcurrencyINTEL"),
    (5919, "PipelineEnableINTEL"), (5921, "BufferLocationINTEL"), (5944, "IOPipeStorageINTEL"),
    (6080, "FunctionFloatingPointModeINTEL"), (6085, "SingleElementVectorINTEL"),
    (6087, "VectorComputeCallableFunctionINTEL"), (6140, "MediaBlockIOINTEL"),
    (6147, "InitModeINTEL"), (6148, "ImplementInRegisterMapINTEL"), (6168, "HostAccessINTEL"),
    (6170, "FPMaxErrorDecorationINTEL"), (6172, "LatencyControlLabelINTEL"),
    (6173, "LatencyControlConstraintINTEL"), (6175, "ConduitKernelArgumentINTEL"),
    (6176, "RegisterMapKernelArgumentINTEL"), (6177, "MMHostInterfaceAddressWidthINTEL"),
    (6178, "MMHostInterfaceDataWidthINTEL"), (6179, "MMHostInterfaceLatencyINTEL"),
    (6180, "MMHostInterfaceReadWriteModeINTEL"), (6181, "MMHostInterfaceMaxBurstINTEL"),
    (6182, "MMHostInterfaceWaitRequestINTEL"), (6183, "StableKernelArgumentINTEL"),
    (6442, "CacheControlLoadINTEL"), (6443, "CacheControlStoreINTEL")]

abbrev Decoration := Enumerant Decoration.vocabulary

namespace Decoration

def block : Decoration := ⟨2, by decide⟩
def bufferBlock : Decoration := ⟨3, by decide⟩
def arrayStride : Decoration := ⟨6, by decide⟩
def builtIn : Decoration := ⟨11, by decide⟩
def binding : Decoration := ⟨33, by decide⟩
def descriptorSet : Decoration := ⟨34, by decide⟩
def offset : Decoration := ⟨35, by decide⟩

end Decoration

end KernelGrid
