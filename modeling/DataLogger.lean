import DataLogger.Foundation.Machine
import DataLogger.Foundation.BitSet
import DataLogger.Foundation.KernelObjects
import DataLogger.CanGw.Wire
import DataLogger.CanGw.Codec
import DataLogger.CanGw.Control
import DataLogger.CanGw.Mirror
import DataLogger.CanGw.Recovery
import DataLogger.CanGw.Settings
import DataLogger.CanGw.MngThread
import DataLogger.CanGw.RxPath
import DataLogger.CanGw.Forwarding
import DataLogger.CanGw.StateEvents
import DataLogger.RpmsgPlatform.ResourceTable
import DataLogger.Ads868x.Device
import DataLogger.Ads868x.Driver
import DataLogger.Ads868x.ReadChannels
import DataLogger.CanGwApp.AutoScan
import DataLogger.Foundation.CyclicCounter
import DataLogger.CanGwApp.AdcTask
import DataLogger.Ads868x.ChannelSetup
import DataLogger.Ads868x.Sequence
import DataLogger.Ads868x.Acquisition
import DataLogger.Foundation.Threads
import DataLogger.Ads868x.Serialisation
import DataLogger.Foundation.Schedule
import DataLogger.Keepalive.KaTask
import DataLogger.RpmsgPlatform.ReadySem
import DataLogger.Console.Tee
import DataLogger.Foundation.Components
import DataLogger.Foundation.SharedLog
import DataLogger.MainApp.System
import DataLogger.MainApp.Parts
import DataLogger.MainApp.Safety
import DataLogger.MainApp.LinuxView
import DataLogger.MainApp.Dormant
import DataLogger.CanGwApp.Firmware
import DataLogger.CanGw.Transmit
import DataLogger.CanGwApp.Traffic
import DataLogger.CanGwApp.Bus
import DataLogger.CanGwApp.LinuxView
import DataLogger.Foundation.Threaded
import DataLogger.AdcDt.Comparison
import DataLogger.RpmsgPlatform.Kicks
import DataLogger.Foundation.Histories
import DataLogger.Ads868x.Atomicity
import DataLogger.RpmsgEcho.Client
import DataLogger.RpmsgEcho.Tty
import DataLogger.RpmsgEcho.Firmware
import DataLogger.RpmsgEcho.StopAndWait
