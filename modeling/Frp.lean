import Frp.Aggregator
import Frp.BackoffSound
import Frp.ClientControlSound
import Frp.ClientManagers
import Frp.ClientUdpSound
import Frp.ConnRequests
import Frp.ConnectStream
import Frp.ControlProxies
import Frp.DashboardPages
import Frp.DatagramPlane
import Frp.DateCounterSound
import Frp.DetectDeadline
import Frp.Domains
import Frp.Health
import Frp.HelloSound
import Frp.HoleSessionSound
import Frp.HttpGroupBalance
import Frp.ListenGroupRunSound
import Frp.MachineLoads
import Frp.MakeHoleSound
import Frp.ManagedForwarderSound
import Frp.MuxerRunSound
import Frp.NatLoopSound
import Frp.Oidc
import Frp.ProxyConfigSound
import Frp.ProxyQuota
import Frp.RateLimit
import Frp.RegisterSound
import Frp.RegistryCalls
import Frp.RejectedPacket
import Frp.RelayRecycleSound
import Frp.SudpPackets
import Frp.TransportPool
import Frp.TransporterSound
import Frp.VisitorListeners
import Frp.VisitorPhase
import Frp.Vnet
import Frp.WorkConnSound
import Frp.WrapperSound
import Frp.XtcpTunnelSound
import Frp.XudpClassify
import Frp.XudpProxySound
import Frp.XudpVisitorSound
