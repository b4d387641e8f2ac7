import AndroidRenderer.Emugen.Confinement
import AndroidRenderer.OpenglCodecCommon.IndexSlices
import AndroidRenderer.OpenglCodecCommon.CommittedBytes
import AndroidRenderer.GLESv1Enc.GLEncoder
import AndroidRenderer.OpenglRender.RemoteCalls
import AndroidRenderer.OpenglRender.Handles
import AndroidRenderer.OpenglRender.DrawHistory
import AndroidRenderer.Translator.BoundBuffers
import AndroidRenderer.Translator.BackPointers
import AndroidRenderer.GuestEgl.ObjectsInUse
import AndroidRenderer.Gralloc.HostReferences
import AndroidRenderer.Gralloc.Processes
import AndroidRenderer.Qtools.BlockTraces
import AndroidRenderer.OpenglRender.ReadWindow
import AndroidRenderer.Emugen.DecodeProgress
import AndroidRenderer.OpenglCodecCommon.ReadFully
import AndroidRenderer.Translator.DrawArrays
import AndroidRenderer.Translator.Attribute0
import AndroidRenderer.Translator.TextureUnits
import AndroidRenderer.Translator.SubBuffers
import AndroidRenderer.Translator.PaletteBounds
import AndroidRenderer.Translator.PixelSizes
import AndroidRenderer.Translator.ShaderSources
import AndroidRenderer.Qemud.Registration
import AndroidRenderer.Qemud.Shutdown
import AndroidRenderer.Qemud.Ownership
import AndroidRenderer.Gps.Fields
import AndroidRenderer.Gps.LineFraming
import AndroidRenderer.Gps.MalformedFields
import AndroidRenderer.Sensors.Delivery
import AndroidRenderer.Mksdcard.FreeClusters
import AndroidRenderer.Qtools.PopBarriers
import AndroidRenderer.Qtools.MethodStacks
import AndroidRenderer.Qtools.ElfFiles
import AndroidRenderer.Translator.RangeSets
import AndroidRenderer.Qtools.FunctionNames
import AndroidRenderer.Qtools.BlockProfile
import AndroidRenderer.Qtools.GtraceFile
import AndroidRenderer.Qtools.HashTableRuns
import AndroidRenderer.GLESv2Enc.UniformLocations
import AndroidRenderer.GLESv1Enc.ClientArrays
import AndroidRenderer.GLESv2Enc.ShaderSources
import AndroidRenderer.Translator.PointSizes
import AndroidRenderer.Translator.NamedData
import AndroidRenderer.Translator.TextQueries
import AndroidRenderer.Translator.Etc1Images
import AndroidRenderer.OpenglRender.PbufferResize
import AndroidRenderer.OpenglRender.FBConfig
import AndroidRenderer.OpenglRender.RenderServer
import AndroidRenderer.Translator.ConfigOrder
import AndroidRenderer.Translator.AttachedImages
import AndroidRenderer.GuestEgl.WindowBuffers
import AndroidRenderer.GuestEgl.AttribLists
import AndroidRenderer.GuestEgl.EglDisplay
import AndroidRenderer.GuestEgl.ExtensionString
import AndroidRenderer.Gralloc.BufferImages
import AndroidRenderer.Gralloc.DeviceClose
import AndroidRenderer.OpenglCodecCommon.SmartPtrs
import AndroidRenderer.OpenglOsUtils.ArgList
import AndroidRenderer.OpenglCodecCommon.Packing
