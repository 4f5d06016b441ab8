import GreenTunnel.Bytes
import GreenTunnel.Checked
import GreenTunnel.RecordStream
import GreenTunnel.ShortWrites
import GreenTunnel.Text
import GreenTunnel.AsciiCase
import GreenTunnel.Lines
import GreenTunnel.ClientHello
import GreenTunnel.SniWalk
import GreenTunnel.NestedName
import GreenTunnel.HelloFormat
import GreenTunnel.WellFormedHello
import GreenTunnel.SyntheticHello
import GreenTunnel.Fragmenter
import GreenTunnel.HelloPipeline
import GreenTunnel.SniCut
import GreenTunnel.VectoredWrite
import GreenTunnel.NetAddr
import GreenTunnel.LowerCase
import GreenTunnel.Utf8
import GreenTunnel.HttpText
import GreenTunnel.HeaderRewrite
import GreenTunnel.RequestLine
import GreenTunnel.ListedDomain
import GreenTunnel.DnsFormat
import GreenTunnel.DnsMessage
import GreenTunnel.DnsWalk
import GreenTunnel.DnsResponse
import GreenTunnel.DnsQuery
import GreenTunnel.Trace
import GreenTunnel.Protocol
import GreenTunnel.Network
import GreenTunnel.HelloForward
import GreenTunnel.WriteCalls
import GreenTunnel.Resolver
import GreenTunnel.Tunnel
import GreenTunnel.Redirect
import GreenTunnel.LocalHost
import GreenTunnel.TunnelData
import GreenTunnel.ConnectTarget
import GreenTunnel.Authority
import GreenTunnel.Args
import GreenTunnel.DnsServer
import GreenTunnel.Resolution
import GreenTunnel.Session
import GreenTunnel.SessionOrder
import GreenTunnel.Uplink
import GreenTunnel.Opening
import GreenTunnel.Startup
import GreenTunnel.Server
import GreenTunnel.ExtensionsOffset
import GreenTunnel.Responses
import GreenTunnel.AltSvc
import GreenTunnel.Reaches
import GreenTunnel.Decoy
import GreenTunnel.Options
import GreenTunnel.Censor
