import TBoxMpu.Autopilot.Framing
import TBoxMpu.Autopilot.Message
import TBoxMpu.Foton.Adapt
import TBoxMpu.Foton.PowerOff
import TBoxMpu.Foton.WakeUp
import TBoxMpu.Gb32960.Threads
import TBoxMpu.Gb32960.Report
import TBoxMpu.Gb32960.Ack
import TBoxMpu.Gb32960.Reissue
import TBoxMpu.Gb32960.Reassembly
import TBoxMpu.Gb32960.ReceiveBound
import TBoxMpu.Fota.ImageMeaning
import TBoxMpu.Fota.Rollback
import TBoxMpu.Fota.Blocks
import TBoxMpu.Fota.Restore
import TBoxMpu.Fota.Ctrl
import TBoxMpu.Scom.Delivery
import TBoxMpu.Mid.MsgResync
import TBoxMpu.Mid.MsgRoundTrip
import TBoxMpu.Fota.UdsMatch
import TBoxMpu.Mid.RdsCrash
import TBoxMpu.Base.Tcom
import TBoxMpu.Base.AtRetry
import TBoxMpu.Base.PmWake
import TBoxMpu.Base.Upgrade
import TBoxMpu.Can.MapAgree
import TBoxMpu.Uds.SecLockout
import TBoxMpu.Uds.Timers
import TBoxMpu.Uds.Snapshot
import TBoxMpu.Hu.Exchange
import TBoxMpu.Scom.Stall
import TBoxMpu.Scom.Dispatch
import TBoxMpu.Scom.RingRoom
import TBoxMpu.Uds.J1939
import TBoxMpu.Base.SockRuns
import TBoxMpu.Mid.HashMap
import TBoxMpu.Gb32960.SessionNumbers
import TBoxMpu.Gb32960.KeptAwake
import TBoxMpu.Gb32960.NoBuffer
import TBoxMpu.Gb32960.CellTiles
import TBoxMpu.Foton.IndexFile
import TBoxMpu.Base.FwFailures
import TBoxMpu.Base.PkgBounds
import TBoxMpu.Hu.Receive
import TBoxMpu.Can.DbcSuffix
import TBoxMpu.Can.DataIn
import TBoxMpu.Can.Decode
import TBoxMpu.Can.Signal
import TBoxMpu.Can.SuffixBounds
import TBoxMpu.Base.Status
import TBoxMpu.Base.Iwdz
import TBoxMpu.Base.IwdzKept
import TBoxMpu.Base.AtWhitelist
import TBoxMpu.Base.Shell
import TBoxMpu.Gb32960.ErrorRuns
import TBoxMpu.Gb32960.PacketRuns
import TBoxMpu.Mid.RingFifo
import TBoxMpu.Mid.RdsBuffer
import TBoxMpu.Lib.Slots
import TBoxMpu.Base.CfgPara
import TBoxMpu.Uds.DtcReport
import TBoxMpu.Uds.Indication
import TBoxMpu.Uds.IndBounds
import TBoxMpu.Lib.Alternation
import TBoxMpu.Uds.FaultTable
import TBoxMpu.Fota.LoadBin
import TBoxMpu.Lib.Digits
import TBoxMpu.Mid.Base64
import TBoxMpu.Uds.DidValue
import TBoxMpu.Lib.DoubleBuffer
import TBoxMpu.Base.Inx
import TBoxMpu.Lib.Search
import TBoxMpu.Base.OldFile
import TBoxMpu.Lib.Cleanup
import TBoxMpu.Base.DiskFull
import TBoxMpu.Fota.SizeEstimate
import TBoxMpu.Fota.Xml
import TBoxMpu.Fota.XmlText
import TBoxMpu.Fota.XmlListing
import TBoxMpu.Lib.Tables
import TBoxMpu.Fota.LoadPkg
import TBoxMpu.Fota.Manifest
import TBoxMpu.Fota.Frames
import TBoxMpu.Fota.Progress
import TBoxMpu.Fota.ProgressTotal
import TBoxMpu.Lib.Window
import TBoxMpu.Fota.LineTrim
import TBoxMpu.Uds.Server
import TBoxMpu.Uds.ServerAnswers
import TBoxMpu.Uds.ServerRuns
import TBoxMpu.Lib.Circulant
import TBoxMpu.Lib.Blocks
import TBoxMpu.Mid.Aes
import TBoxMpu.Lib.Absorb
import TBoxMpu.Lib.RecordRing
import TBoxMpu.Mid.Log
import TBoxMpu.Mid.Sha
import TBoxMpu.Autopilot.Packet
import TBoxMpu.Nm.Dial
import TBoxMpu.Nm.DialRuns
import TBoxMpu.Lib.Lines
import TBoxMpu.Lib.Calendar
import TBoxMpu.Gps.Dev
import TBoxMpu.Gps.Decode
import TBoxMpu.Gps.LocalTime
import TBoxMpu.Gps.Fix
import TBoxMpu.Can.Thread
