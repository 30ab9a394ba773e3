import IntelCamera.Metadata.Buffer
import IntelCamera.Lib.Tiling
import IntelCamera.Metadata.Layout
import IntelCamera.Metadata.Ops
import IntelCamera.Metadata.Refine
import IntelCamera.Metadata.Validate
import IntelCamera.Lib.Store
import IntelCamera.Metadata.Values
import IntelCamera.CameraMetadata
import IntelCamera.Parameters
import IntelCamera.HalInit
import IntelCamera.ParameterAdapter
import IntelCamera.Adapter.Code
import IntelCamera.Lib.Runs
import IntelCamera.Adapter.System
import IntelCamera.Adapter.Results
import IntelCamera.Adapter.Order
import IntelCamera.Adapter.Settings
import IntelCamera.Adapter.Conservation
import IntelCamera.Adapter.Pairing
import IntelCamera.CameraMap
import IntelCamera.Conversions
import IntelCamera.Adapter.Parameters
import IntelCamera.Adapter.Advertised
import IntelCamera.Adapter.OperationMode
import IntelCamera.FaceDatabase.Code
import IntelCamera.FaceDatabase.Load
import IntelCamera.DeviceApi
import IntelCamera.Lib.Access
import IntelCamera.Metadata.Blob
import IntelCamera.ConversionRules
import IntelCamera.FaceDetection
import IntelCamera.Gralloc.Alloc
import IntelCamera.Gralloc.Tracking
import IntelCamera.Merge
import IntelCamera.CameraFailure
import IntelCamera.CameraLock
import IntelCamera.Metadata.Asserts
import IntelCamera.CameraAssert
import IntelCamera.MergeAssert
import IntelCamera.Metadata.RoundTrip
import IntelCamera.Adapter.Geometry
import IntelCamera.FaceRecognition
import IntelCamera.Gralloc.Framebuffer
import IntelCamera.Lib.Text
import IntelCamera.Properties
import IntelCamera.Gralloc.GraphicBuffer
import IntelCamera.Gralloc.Ownership
import IntelCamera.Lib.Tally
import IntelCamera.RefBase
import IntelCamera.Cutils.RecordStream
import IntelCamera.SharedBuffer
import IntelCamera.Lib.Stops
import IntelCamera.Lib.Arrays
import IntelCamera.Vector.Items
import IntelCamera.Vector.Code
import IntelCamera.Vector.Spec
import IntelCamera.Vector.Edit
import IntelCamera.Vector.Sort
import IntelCamera.Vector.System
