import SpinVpn.Lib.Machine
import SpinVpn.Lib.Keyed
import SpinVpn.Database.Profile
import SpinVpn.Database.Table
import SpinVpn.Bg.Service
import SpinVpn.Bg.Connecting
import SpinVpn.Bg.Resources
import SpinVpn.Main.Connection
import SpinVpn.Main.App
import SpinVpn.Main.Toggle
import SpinVpn.Main.Mirror
import SpinVpn.Main.Display
import SpinVpn.Main.Rollback
import SpinVpn.Main.Servers
import SpinVpn.Main.Records
import SpinVpn.Bg.Traffic
import SpinVpn.Plugin.Options
import SpinVpn.Database.Json
import SpinVpn.Subscription.Refresh
import SpinVpn.Subscription.Invariant
import SpinVpn.Subscription.Calls
import SpinVpn.Subscription.Managed
import SpinVpn.Subscription.Idempotent
import SpinVpn.Plugin.RoundTrip
import SpinVpn.Database.Export
import SpinVpn.Database.Import
import SpinVpn.Database.Restore
import SpinVpn.Database.Url
import SpinVpn.Plugin.Printed
import SpinVpn.Plugin.Reread
import SpinVpn.Net.Link
import SpinVpn.Net.NetworkActor
import SpinVpn.Net.Requests
import SpinVpn.Net.Registration
import SpinVpn.Bg.Lifetime
import SpinVpn.Bg.Listening
import SpinVpn.Bg.Guard
import SpinVpn.Database.Share
import SpinVpn.Lib.OrderedSet
import SpinVpn.Utils.Text
import SpinVpn.Net.Subnet
import SpinVpn.Acl.Acl
import SpinVpn.Acl.RoundTrip
import SpinVpn.Lib.Octets
import SpinVpn.Database.KeyValuePair
import SpinVpn.Net.Matching
import SpinVpn.Bg.LocalDnsWorker
import SpinVpn.Acl.Flatten
import SpinVpn.Brand.BrandStrategy
import SpinVpn.Acl.Loading
import SpinVpn.Lib.Paths
import SpinVpn.Plugin.Manager
import SpinVpn.Database.Legacy
import SpinVpn.Bg.Rates
import SpinVpn.Database.PrivateStore
import SpinVpn.Utils.SplitIntoFour
import SpinVpn.Bg.Bandwidth
import SpinVpn.Net.LocalCookieJar
import SpinVpn.Ads.Expiry
import SpinVpn.Ads.Units
import SpinVpn.Database.Replace
import SpinVpn.Main.Binding
import SpinVpn.Database.Identity
import SpinVpn.Main.Heartbeat
import SpinVpn.Net.RetryInterceptor
import SpinVpn.Utils.TimeUnit
import SpinVpn.Net.OkHttpApi
import SpinVpn.Lib.SortedList
import SpinVpn.Net.SubnetOrder
import SpinVpn.Lib.Replacing
import SpinVpn.Net.NetTranUtils
import SpinVpn.Lib.Memory
import SpinVpn.Lib.Simulation
import SpinVpn.Tun.ChunkBuffer
import SpinVpn.Tun.PacketBuffer
import SpinVpn.Tun.TcpClient
import SpinVpn.Lib.OnesComplement
import SpinVpn.Tun.UdpPacket
import SpinVpn.Lib.Recency
import SpinVpn.Tun.SocksUdpGwClient
import SpinVpn.Lib.Dialog
import SpinVpn.Tun.BSocksClient
import SpinVpn.Lib.SearchTree
import SpinVpn.Tun.BAVL
import SpinVpn.Lib.Prefixes
import SpinVpn.Tun.Ipaddr6
import SpinVpn.Bg.Tunnel
