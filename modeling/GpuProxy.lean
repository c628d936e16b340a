import GpuProxy.Math.TransitionSystem
import GpuProxy.Math.MirroredMemory
import GpuProxy.Math.LittleEndian
import GpuProxy.Math.MachineInt
import GpuProxy.Math.PointerPath
import GpuProxy.Math.TwoWayList
import GpuProxy.Math.WriteThrough
import GpuProxy.Math.ByteBuffer
import GpuProxy.Math.Balance
import GpuProxy.Math.BlockMax
import GpuProxy.RingBuffer.Buffer
import GpuProxy.RingBuffer.Fifo
import GpuProxy.Protocol.Command
import GpuProxy.Protocol.Threads
import GpuProxy.Protocol.Framing
import GpuProxy.Protocol.Progress
import GpuProxy.Protocol.Wakeup
import GpuProxy.Protocol.Schedule
import GpuProxy.Protocol.Tokens
import GpuProxy.Protocol.Shutdown
import GpuProxy.Protocol.Stores
import GpuProxy.Protocol.Results
import GpuProxy.VertexAttribs.Attrib
import GpuProxy.VertexAttribs.Draw
import GpuProxy.VertexAttribs.DrawFraming
import GpuProxy.VertexAttribs.EnabledList
import GpuProxy.VertexAttribs.Links
import GpuProxy.VertexAttribs.Insertion
import GpuProxy.VertexAttribs.Chunks
import GpuProxy.VertexAttribs.Groups
import GpuProxy.VertexAttribs.ElementsCount
import GpuProxy.VertexAttribs.DrawMemory
import GpuProxy.VertexAttribs.DrawContents
import GpuProxy.VertexAttribs.DrawWindow
import GpuProxy.VertexAttribs.Reached
import GpuProxy.VertexAttribs.Table
import GpuProxy.VertexAttribs.Counter
import GpuProxy.VertexAttribs.Arrays
import GpuProxy.VertexAttribs.ClientArrays
import GpuProxy.Lists.LinkList
import GpuProxy.Lists.Sequence
import GpuProxy.Lists.Represents
import GpuProxy.Math.PartialMap
import GpuProxy.Names.HashTable
import GpuProxy.Names.Server
import GpuProxy.Names.Translation
import GpuProxy.Names.Delete
import GpuProxy.Names.Supply
import GpuProxy.Contexts.CachedStates
import GpuProxy.Contexts.Destroy
import GpuProxy.Contexts.Sharing
import GpuProxy.Contexts.Forgotten
import GpuProxy.Contexts.Registry
import GpuProxy.Contexts.MakeCurrent
import GpuProxy.Contexts.ActiveStates
import GpuProxy.Contexts.PendingFlags
import GpuProxy.Contexts.Deferred
import GpuProxy.GlState.Entry
import GpuProxy.GlState.Errors
import GpuProxy.GlState.Blend
import GpuProxy.GlState.Stencil
import GpuProxy.GlState.TextureBinding
import GpuProxy.Objects.State
import GpuProxy.GlState.Scalars
import GpuProxy.Objects.Caches
import GpuProxy.Objects.Attachments
import GpuProxy.Objects.Completeness
import GpuProxy.Objects.ShareGroup
import GpuProxy.Objects.DeletedNames
import GpuProxy.VertexAttribs.DrawElements
import GpuProxy.Textures.PixelStore
import GpuProxy.Textures.ImageSize
import GpuProxy.Textures.Staging
import GpuProxy.Textures.CopiedBytes
import GpuProxy.Textures.Parameters
import GpuProxy.GlState.Rejected
import GpuProxy.GlState.DeletedBuffers
import GpuProxy.Math.Memo
import GpuProxy.Programs.Locations
import GpuProxy.Programs.InUse
import GpuProxy.Programs.Uniforms
import GpuProxy.GlState.SubImages
import GpuProxy.VertexAttribs.Readback
import GpuProxy.VertexAttribs.CurrentValues
import GpuProxy.VertexAttribs.IndexLimit
import GpuProxy.Queries.Bindings
import GpuProxy.Queries.Limits
import GpuProxy.Queries.LastSet
import GpuProxy.Math.Words
import GpuProxy.Queries.Extensions
import GpuProxy.Math.CMemory
import GpuProxy.Programs.ShaderSource
import GpuProxy.Generator.Table
import GpuProxy.Generator.ArgumentCopy
import GpuProxy.Math.OwnedHeap
import GpuProxy.Math.DeferredCalls
import GpuProxy.Math.StructLayout
import GpuProxy.Generator.Commands
import GpuProxy.Generator.Packing
import GpuProxy.Generator.Handlers
import GpuProxy.Generator.Ownership
import GpuProxy.Generator.Deferred
import GpuProxy.Generator.CommandLayout
import GpuProxy.Generator.Proxy
import GpuProxy.Generator.ProxyRuns
import GpuProxy.Names.Cells
import GpuProxy.Queries.Strings
import GpuProxy.Contexts.CurrentQueries
import GpuProxy.Contexts.Mutexes
