import Earphone.Ascs.Handshake
import Earphone.Avctp.Reassembly
import Earphone.Avdtp.Config
import Earphone.Avdtp.Signal
import Earphone.Avdtp.Walk
import Earphone.BaseData.Record
import Earphone.BaseData.RoundTrip
import Earphone.Bass.BisSelect
import Earphone.Bass.SourceTable
import Earphone.BleMgr.AdvDataRun
import Earphone.BleMgr.ConnParam
import Earphone.BleMgr.ScanReport
import Earphone.BleMgr.ScanRun
import Earphone.Bond.Cccd
import Earphone.Bond.FlashInit
import Earphone.Bond.Inherit
import Earphone.Bond.LeFind
import Earphone.Bond.PriorityRun
import Earphone.Calendar.Clock
import Earphone.Codec.Capability
import Earphone.Console.Params
import Earphone.Console.Rings
import Earphone.DataTransfer.Run
import Earphone.EqFtl.Run
import Earphone.ExtAdv.Params
import Earphone.GattSvc.Sends
import Earphone.GattcStorage.Discover
import Earphone.GattcStorage.LoadSafe
import Earphone.Hid.Fields
import Earphone.Iap.Ctrl
import Earphone.Iap.WindowRun
import Earphone.Latency.AsrcAdjust
import Earphone.Latency.Timers
import Earphone.McsTree.Runs
import Earphone.MediaBuffer.DsWrite
import Earphone.MediaPool.Fit
import Earphone.Notification.Level
import Earphone.Obex.Md5
import Earphone.Obex.Receive
import Earphone.Obex.Stream
import Earphone.Ota.Download
import Earphone.Ots.MetadataRun
import Earphone.Ots.ObjIds
import Earphone.OtsWrite.Run
import Earphone.Remote.Lifetime
import Earphone.Remote.Sync
import Earphone.Rfc.RoundTrip
import Earphone.Rfc.TableRun
import Earphone.Roleswap.Transfer
import Earphone.SysTimer.Due
import Earphone.UserCmd.Parse
import Earphone.VectorSet.Compute
import Earphone.VectorSet.Bag
