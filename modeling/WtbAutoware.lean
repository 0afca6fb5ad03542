import WtbAutoware.Framework.Machine
import WtbAutoware.Framework.Flt
import WtbAutoware.Platform
import WtbAutoware.Framework.BitField
import WtbAutoware.Driver.CtrlFrame
import WtbAutoware.Driver.Node
import WtbAutoware.Driver.StopHold
import WtbAutoware.Driver.FrameStream
import WtbAutoware.Interface.Node
import WtbAutoware.Interface.Mode
import WtbAutoware.Interface.Watchdog
import WtbAutoware.Chain.Topics
import WtbAutoware.Chain.Heartbeat
import WtbAutoware.Chain.Gear
import WtbAutoware.Driver.Odometry
import WtbAutoware.Driver.Wire
import WtbAutoware.Gateway.Node
import WtbAutoware.Ahrs.Node
import WtbAutoware.Bridge.Node
import WtbAutoware.Chain.Accuracy
import WtbAutoware.Chain.Feedback
import WtbAutoware.Driver.SpeedLimit
import WtbAutoware.Bridge.Balance
import WtbAutoware.Bridge.Forward
import WtbAutoware.Bridge.Transmit
import WtbAutoware.Ahrs.Provenance
import WtbAutoware.Gateway.Cancel
import WtbAutoware.Gateway.Permission
import WtbAutoware.Sensing.PointCloud
import WtbAutoware.Sensing.Transformer
import WtbAutoware.Sensing.Layout
import WtbAutoware.Mapping.ImageProjection
import WtbAutoware.Mapping.Deskew
import WtbAutoware.Chain.NonFinite
import WtbAutoware.Driver.Heading
import WtbAutoware.Interface.Authority
import WtbAutoware.Driver.Bicycle
import WtbAutoware.Driver.Partition
import WtbAutoware.Driver.Undecodable
import WtbAutoware.DriverOnly.Equivalence
import WtbAutoware.DriverOnly.Yaw
import WtbAutoware.Bridge.Copy
import WtbAutoware.Bridge.Loss
import WtbAutoware.Sensing.LockStep
import WtbAutoware.Sensing.TimeOffset
import WtbAutoware.Sensing.Adapter
import WtbAutoware.Framework.Grid
import WtbAutoware.Sensing.Rows
import WtbAutoware.Sensing.Bounds
import WtbAutoware.Sensing.Replacement
import WtbAutoware.FakePcd.Pgm
import WtbAutoware.FakePcd.Ending
import WtbAutoware.FakePcd.Format
import WtbAutoware.FakePcd.Reading
import WtbAutoware.FakePcd.Payload
import WtbAutoware.FakePcd.Layouts
import WtbAutoware.FakePcd.Points
import WtbAutoware.Ahrs.LostFrames
import WtbAutoware.Ahrs.Resync
import WtbAutoware.Framework.Buffer
import WtbAutoware.Framework.Greedy
import WtbAutoware.Mapping.FeatureExtraction
import WtbAutoware.Mapping.Picking
import WtbAutoware.Mapping.Segments
import WtbAutoware.Mapping.Features
import WtbAutoware.Mapping.Corners
import WtbAutoware.Mapping.SlotFour
import WtbAutoware.Mapping.RangeImage
import WtbAutoware.Mapping.Arrays
import WtbAutoware.Mapping.Pipeline
import WtbAutoware.Mapping.FirstPoint
import WtbAutoware.Mapping.Rotation
import WtbAutoware.Ahrs.Checksum
import WtbAutoware.Mapping.Preintegration
import WtbAutoware.Mapping.FactorGraph
import WtbAutoware.Mapping.Samples
import WtbAutoware.Mapping.Fusion
import WtbAutoware.Framework.Intervals
import WtbAutoware.Lidar.Sectors
import WtbAutoware.Lidar.Driver
import WtbAutoware.Lidar.Sweeps
import WtbAutoware.Lidar.Tables
import WtbAutoware.Lidar.Times
import WtbAutoware.FakePcd.Shortage
