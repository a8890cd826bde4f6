import Boxd.Except
import Boxd.Script.Basic
import Boxd.Script.Parse
import Boxd.Script.Exec
import Boxd.Script.Validate
import Boxd.Script.SigHash
import Boxd.Script.Checked
import Boxd.Script.Legacy
import Boxd.Script.Builder
import Boxd.Chain.Basic
import Boxd.Chain.State
import Boxd.Chain.Engine
import Boxd.Chain.Run
import Boxd.Chain.Frame
import Boxd.Chain.Loaders
import Boxd.Chain.Orphans
import Boxd.Chain.MainChain
import Boxd.Chain.Fork
import Boxd.Chain.Accept
import Boxd.Chain.Calls
import Boxd.Chain.Replay
import Boxd.Chain.Indexes
import Boxd.Chain.Restart
import Boxd.Chain.TxIndex
import Boxd.Chain.Eternal
import Boxd.Chain.Eviction
import Boxd.Chain.FailedReorg
import Boxd.Chain.Filter
import Boxd.Chain.AddrIndex
import Boxd.Chain.Connect
import Boxd.Chain.Sync
import Boxd.Chain.Serve
import Boxd.P2p.PeerScore
import Boxd.Rpcpb.Wire
import Boxd.Rpcpb.Wallet
import Boxd.Rpcpb.RoundTrip
import Boxd.Rpcpb.Safety
import Boxd.Rpcpb.Unknown
