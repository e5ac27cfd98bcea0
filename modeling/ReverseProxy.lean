import ReverseProxy.Codec.H1.Writer
import ReverseProxy.Codec.H1.Segmentation
import ReverseProxy.Codec.H1.Conservation
import ReverseProxy.Codec.H1.KeepAlive
import ReverseProxy.Codec.H1.Target
import ReverseProxy.Codec.H1.FramingChoice
import ReverseProxy.Codec.H3.LiteralHeaders
import ReverseProxy.Codec.H3.Hygiene
import ReverseProxy.Codec.ContentLength
import ReverseProxy.Codec.H3.Completion
import ReverseProxy.Relay.Authority
import ReverseProxy.Relay.Fin
import ReverseProxy.Relay.RequestBoundary
import ReverseProxy.Relay.ResponseFraming
import ReverseProxy.Relay.Draining
import ReverseProxy.Relay.IdleTimer
import ReverseProxy.Relay.Retry
import ReverseProxy.Transport.HeaderBlock
import ReverseProxy.Transport.HeaderSet
import ReverseProxy.Transport.QuicCallbacks
import ReverseProxy.Transport.QuicReceive
import ReverseProxy.Transport.EngineTick
import ReverseProxy.Relay.Progress
import ReverseProxy.Codec.ChunkedBody
import ReverseProxy.Proxy.Reuse
import ReverseProxy.Proxy.PoolOwnership
import ReverseProxy.Proxy.Handoff
import ReverseProxy.Proxy.QuicSharing
import ReverseProxy.Proxy.Connects
import ReverseProxy.Proxy.Registries
import ReverseProxy.Proxy.Ownership
