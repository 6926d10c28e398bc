import DatenLord.Fuse.Abi
import DatenLord.Fuse.Argument
import DatenLord.Fuse.Request
import DatenLord.Fuse.Layout
import DatenLord.Fuse.Payload
import DatenLord.Fuse.Decode
import DatenLord.Dist.Node
import DatenLord.Dist.Server
import DatenLord.Dist.Consistency
import DatenLord.Dist.Reachable
import DatenLord.Dist.Commute
import DatenLord.Dist.Namespace
import DatenLord.Dist.Tasks
import DatenLord.Dist.Linearizable
import DatenLord.Dist.Acceptor
