import Sgfx.Library.Fallible
import Sgfx.Library.SlotPool
import Sgfx.Library.Traces
import Sgfx.Types
import Sgfx.Descriptors
import Sgfx.Pipelines
import Sgfx.Programmable
import Sgfx.ResourceTable
import Sgfx.Generations
import Sgfx.Command
import Sgfx.CommandEncoder
import Sgfx.PassEncoders
import Sgfx.Session
import Sgfx.Rejection
import Sgfx.Runs
import Sgfx.Hazards
import Sgfx.Exclusivity
import Sgfx.Elision
import Sgfx.Executions
import Sgfx.Ledger
import Sgfx.Recording
import Sgfx.PassRecording
import Sgfx.Announcements
import Sgfx.Scheduler
import Sgfx.SchedulerOrder
import Sgfx.SchedulerBudget
import Sgfx.Virgl.Dispatch
import Sgfx.Virgl.Admission
import Sgfx.Library.Bytes
import Sgfx.Library.Comparison
import Sgfx.Buffers.Diff
import Sgfx.Buffers.Ranges
import Sgfx.Buffers.Updates
import Sgfx.Virgl.BufferPlan
import Sgfx.Virgl.BufferTrims
import Sgfx.Virgl.BufferLayers
import Sgfx.Virgl.BufferRecording
import Sgfx.Virgl.BufferPublication
import Sgfx.Virgl.CanonicalVertices
import Sgfx.Virgl.CanonicalFreshness
import Sgfx.Buffers.Coverage
import Sgfx.Virgl.BufferDeltas
import Sgfx.Virgl.DeviceBuffers
import Sgfx.Virgl.BufferUploads
import Sgfx.Virgl.DeviceFreshness
import Sgfx.Library.Framing
import Sgfx.Library.WriteElision
import Sgfx.Virgl.DrawCommands
import Sgfx.Virgl.DrawSubmissions
import Sgfx.Virgl.DrawEncoding
import Sgfx.Virgl.DrawKnowledge
import Sgfx.Virgl.DrawElision
import Sgfx.Library.Slices
import Sgfx.Indices.Extrema
import Sgfx.Indices.BoundsCache
import Sgfx.Indices.BoundsRuns
import Sgfx.Library.WordCodec
import Sgfx.Abi.Scalars
import Sgfx.Abi.Descriptors
import Sgfx.PipelineBuilders
import Sgfx.Abi.Pipelines
import Sgfx.Abi.ProgrammablePipelines
import Sgfx.Abi.Snapshots
import Sgfx.Abi.Mirrors
import Sgfx.Library.Lockstep
import Sgfx.Abi.MirrorCaches
import Sgfx.Abi.Retirements
import Sgfx.Library.Following
import Sgfx.Owned
import Sgfx.Library.Nesting
import Sgfx.Leniency
import Sgfx.OwnedValidation
import Sgfx.Vulkan.UploadBatches
import Sgfx.Vulkan.UploadRows
import Sgfx.Vulkan.PieceReplay
import Sgfx.Vulkan.DrawPlans
import Sgfx.Vulkan.BatchSoundness
import Sgfx.Indices.BaseVertex
import Sgfx.Buffers.RangeRuns
import Sgfx.Library.SliceCopies
import Sgfx.Buffers.Sources
import Sgfx.Buffers.DirtyIntervals
import Sgfx.Buffers.DiffBounds
import Sgfx.SchedulerAccounting
import Sgfx.Packets
import Sgfx.PacketRuns
import Sgfx.Library.Cuts
import Sgfx.Library.Agreement
import Sgfx.Vulkan.Results
import Sgfx.Vulkan.PushConstants
import Sgfx.Vulkan.PushConstantRuns
import Sgfx.Vulkan.PushConstantSnapshots
import Sgfx.Library.RowCopies
import Sgfx.Vulkan.ImageReadback
import Sgfx.Vulkan.ReadbackCopies
import Sgfx.Vulkan.Spirv
import Sgfx.Vulkan.Specialization
import Sgfx.Vulkan.Freezing
import Sgfx.Vulkan.FreezeSimulation
import Sgfx.Vulkan.FreezeLaw
import Sgfx.Abi.BindGroups
import Sgfx.Abi.MirrorRows
import Sgfx.Abi.MirrorViews
import Sgfx.Abi.MirrorSyncs
import Sgfx.CommandCapacity
import Sgfx.VertexFetch
import Sgfx.Library.Reservations
import Sgfx.Vulkan.Timelines
import Sgfx.Vulkan.QueueAdmission
import Sgfx.Library.FueledLoops
import Sgfx.Library.Tilings
import Sgfx.Library.Intervals
import Sgfx.Virgl.InlineWrites
import Sgfx.Virgl.InlineTilings
import Sgfx.Vulkan.HostMemory
import Sgfx.Vulkan.Readbacks
import Sgfx.Vulkan.IndirectDraws
import Sgfx.Vulkan.IndirectExpansion
import Sgfx.Library.Emission
import Sgfx.Codegen.ShaderCompiler
import Sgfx.Codegen.ShaderSemantics
import Sgfx.Codegen.MatrixLanes
import Sgfx.Codegen.MatrixLowering
import Sgfx.Vulkan.HostUploads
import Sgfx.Vulkan.HostUploadMerges
import Sgfx.Vulkan.HostUploadReads
import Sgfx.Vulkan.HostUploadSnapshots
import Sgfx.Vulkan.RecordingExecution
import Sgfx.Vulkan.ReadbackMirrors
import Sgfx.Virgl.PassChunks
import Sgfx.Virgl.PassRooms
import Sgfx.Virgl.PassSplitting
import Sgfx.Library.Transducers
import Sgfx.Vulkan.SpirvGrammar
import Sgfx.SpirvCompat
import Sgfx.SpirvNormalisation
import Sgfx.Vulkan.StageInputs
import Sgfx.Vulkan.StageInputTables
import Sgfx.Vulkan.StageInputPacks
import Sgfx.Vulkan.StageInputRewriting
import Sgfx.Vulkan.StageInputLowering
import Sgfx.Vulkan.SpirvTables
import Sgfx.Vulkan.SpirvValues
import Sgfx.Vulkan.InputAttachments
import Sgfx.Vulkan.InputAttachmentRewriting
import Sgfx.Vulkan.InputAttachmentHandles
import Sgfx.Vulkan.InputAttachmentTurns
import Sgfx.Vulkan.InputAttachmentNumbers
import Sgfx.Vulkan.InputAttachmentFetches
import Sgfx.Vulkan.InputAttachmentLowering
import Sgfx.Vulkan.SpirvLayout
import Sgfx.Vulkan.TexelBuffers
import Sgfx.Vulkan.TexelBufferRewriting
import Sgfx.Vulkan.TexelBufferRewriting
import Sgfx.Vulkan.TexelBufferTables
import Sgfx.Abi.Commands
import Sgfx.Abi.CommandReading
import Sgfx.Abi.PassRebuilding
import Sgfx.Abi.CommandReferences
import Sgfx.Abi.RecordedCommands
import Sgfx.Abi.Exchanges
import Sgfx.Abi.CommandMirrors
import Sgfx.Abi.CommandCanonical
import Sgfx.Vulkan.RenderPassChains
