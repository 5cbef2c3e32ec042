import ExternalTrusty.RoundTrip
import ExternalTrusty.AvbResponse
import ExternalTrusty.ErrorWord
import ExternalTrusty.KmInitChecked
import ExternalTrusty.RpmbRequest
import ExternalTrusty.ProxyReply
import ExternalTrusty.KeymasterSerializable
import ExternalTrusty.ResponseCut
import ExternalTrusty.CallOnce
import ExternalTrusty.CpuExclusion
import ExternalTrusty.PagesKept
import ExternalTrusty.RpmbWrap
import ExternalTrusty.Observed
import ExternalTrusty.ChannelOwners
import ExternalTrusty.LiveHandle
import ExternalTrusty.Mailbox
import ExternalTrusty.AnswerReads
import ExternalTrusty.SparedMemory
import ExternalTrusty.ClientCalls
import ExternalTrusty.Correlation
import ExternalTrusty.RawProgress
import ExternalTrusty.WaitIsolation
import ExternalTrusty.HandleGrant
import ExternalTrusty.ReplyHeader
import ExternalTrusty.SerializeRoundTrip
import ExternalTrusty.KeymasterCalls
import ExternalTrusty.SentMessages
import ExternalTrusty.Attempts
import ExternalTrusty.CaResponse
import ExternalTrusty.SameBytes
import ExternalTrusty.Lockstep
import ExternalTrusty.FirstMessage
import ExternalTrusty.Interference
import ExternalTrusty.Virtq
import ExternalTrusty.VirtqView
import ExternalTrusty.VirtqLaws
import ExternalTrusty.VirtqCalls
import ExternalTrusty.ControlQueue
import ExternalTrusty.PermanentAttributes
import ExternalTrusty.HwbccResponse
import ExternalTrusty.UuidRead
import ExternalTrusty.FieldStores
import ExternalTrusty.ShareDescriptor
import ExternalTrusty.TrustyMem
import ExternalTrusty.PageInfo
import ExternalTrusty.TrustyDevInit
import ExternalTrusty.Chains
import ExternalTrusty.ControlScan
import ExternalTrusty.PortName
import ExternalTrusty.PciProbe
import ExternalTrusty.Verdict
import ExternalTrusty.BlockSwap
import ExternalTrusty.ByteOrder
import ExternalTrusty.BumpAllocator
import ExternalTrusty.Features
import ExternalTrusty.LogMessages
import ExternalTrusty.RpmbPort
import ExternalTrusty.IdleWake
import ExternalTrusty.SecondaryStart
import ExternalTrusty.ConsoleDevice
import ExternalTrusty.AvbHistory
import ExternalTrusty.MmcStorage
import ExternalTrusty.StorageRuns
import ExternalTrusty.Libtipc
