import Libiscsi.Lib.Outcome
import Libiscsi.Lib.Run
import Libiscsi.Lib.Numbering
import Libiscsi.Bytes
import Libiscsi.Types
import Libiscsi.Pdu
import Libiscsi.Cancel
import Libiscsi.CancelSpec
import Libiscsi.TimeoutCorrect
import Libiscsi.Crc32c
import Libiscsi.Iovector
import Libiscsi.IovectorAdd
import Libiscsi.Queue
import Libiscsi.Write
import Libiscsi.WriteSpec
import Libiscsi.Command
import Libiscsi.Requests
import Libiscsi.QueueSpec
import Libiscsi.ServiceSpec
import Libiscsi.CmdsnInv
import Libiscsi.CmdsnSubmit
import Libiscsi.CmdsnCorrect
import Libiscsi.Modepage
import Libiscsi.ModepageCorrect
import Libiscsi.Reconnect
import Libiscsi.ReconnectSettings
import Libiscsi.GiveUp
import Libiscsi.FullConnect
import Libiscsi.FullConnectCorrect
import Libiscsi.Iser
import Libiscsi.IserCorrect
import Libiscsi.IserBuddy
import Libiscsi.IserBuddyCorrect
import Libiscsi.IserRing
import Libiscsi.DataOutOwner
import Libiscsi.DataOutSteps
import Libiscsi.DataOutSubmit
import Libiscsi.DataOutCorrect
import Libiscsi.Lib.Tiling
import Libiscsi.Lib.Bounded
import Libiscsi.Burst
import Libiscsi.IovectorSpec
import Libiscsi.WriteCover
import Libiscsi.Unmarshall
import Libiscsi.UnmarshallCorrect
import Libiscsi.Cdb
import Libiscsi.CdbCorrect
import Libiscsi.BlockTask
import Libiscsi.BlockTaskCorrect
import Libiscsi.LunReset
import Libiscsi.CancelTask
import Libiscsi.CancelTaskCorrect
import Libiscsi.BurstFailure
import Libiscsi.OutqueueOrder
import Libiscsi.Reentrant
import Libiscsi.ReentrantCorrect
import Libiscsi.IovectorTransfer
import Libiscsi.IovectorCorrect
import Libiscsi.Lib.Departure
import Libiscsi.WireFormat
import Libiscsi.WireCorrect
import Libiscsi.DataInCorrect
import Libiscsi.HandedOn
import Libiscsi.SenseReads
import Libiscsi.SenseCorrect
import Libiscsi.Lib.CString
import Libiscsi.Discovery
import Libiscsi.DiscoveryCorrect
import Libiscsi.Login
import Libiscsi.LoginReply
import Libiscsi.LoginRun
import Libiscsi.Negotiation
import Libiscsi.LoginStatsn
import Libiscsi.FreshLogin
import Libiscsi.LoginBounds
import Libiscsi.Chap
import Libiscsi.MutualChap
import Libiscsi.WriteSplit
import Libiscsi.Lib.Reading
import Libiscsi.Decode
import Libiscsi.CountedLists
import Libiscsi.ReadToc
import Libiscsi.PortGroups
import Libiscsi.SupportedOpcodes
import Libiscsi.VpdLists
import Libiscsi.ModeSense
import Libiscsi.Unmap
import Libiscsi.CdbBuilders
import Libiscsi.CdbBuildersCorrect
import Libiscsi.FullSize
import Libiscsi.Url
import Libiscsi.IserData
import Libiscsi.IserReceive
import Libiscsi.IserIsolation
import Libiscsi.Tags
import Libiscsi.UrlDecode
import Libiscsi.UrlCorrect
import Libiscsi.UrlTotal
import Libiscsi.Crc32cCorrect
import Libiscsi.ReadSocket
import Libiscsi.ReadSocketCorrect
import Libiscsi.Lib.LinkedList
import Libiscsi.Slist
import Libiscsi.Events
import Libiscsi.Digests
import Libiscsi.Serials
import Libiscsi.Lib.BlockHash
import Libiscsi.Md5
import Libiscsi.Sha
import Libiscsi.Sha3
import Libiscsi.ChapDigest
import Libiscsi.Dispatch
import Libiscsi.Replies
import Libiscsi.Portal
import Libiscsi.Handover
import Libiscsi.Destroy
