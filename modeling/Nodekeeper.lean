import Nodekeeper.QueriesCache.Model
import Nodekeeper.QueriesCache.Invariant
import Nodekeeper.QueriesCache.Preservation
import Nodekeeper.QueriesCache.Delivery
import Nodekeeper.QueriesCache.Stranding
import Nodekeeper.Str.Utf8
import Nodekeeper.Cli.NodeVersion
import Nodekeeper.Cli.PathCompletion
import Nodekeeper.Cli.Configs
import Nodekeeper.Cli.Init
import Nodekeeper.Cli.Systemd
import Nodekeeper.Cli.Run
