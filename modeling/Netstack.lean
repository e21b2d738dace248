import Netstack.HttpCache.FlushRace
import Netstack.HttpCache.Persistence
import Netstack.HttpCache.NoStore
import Netstack.HttpCache.Freshness
import Netstack.Socks5.Segmentation
import Netstack.Socks5.UdpConnection
import Netstack.CApi.HashMapRefinement
import Netstack.Common.UrlHost
import Netstack.HttpExec.Completion
import Netstack.HttpExec.Outcome
import Netstack.HttpExec.UrlPolicy
import Netstack.HttpExec.Pinning
import Netstack.HttpExec.Revalidation
import Netstack.HttpClient.FinalHeaders
import Netstack.HttpClient.CacheAnswer
import Netstack.HttpClient.CacheTransparency
import Netstack.HttpClient.RequestInterception
import Netstack.HttpExec.Reconfiguration
import Netstack.HttpInterceptor.Deletion
import Netstack.HttpInterceptor.Chain
import Netstack.HttpOverCurl.Retransmission
import Netstack.Uploader.MultiPartReading
import Netstack.WebSocket.ServerDelivery
import Netstack.WebSocket.ClientMessages
import Netstack.WebSocketNative.ServerMessages
import Netstack.WebSocketNative.ServerRestart
import Netstack.WebSocketNative.ServerAdmission
import Netstack.WebSocketNative.ClientMessages
import Netstack.WebSocketNative.ClientSessions
import Netstack.TlsSocket.TrustAnchors
import Netstack.TlsSocket.Reconnection
import Netstack.TlsSocket.Sends
import Netstack.TlsSocket.Reader
import Netstack.TlsServer.ClientIds
import Netstack.TlsServer.PollRound
import Netstack.TlsServer.Independence
import Netstack.Socket.Sending
import Netstack.Socket.UdpSocket
import Netstack.Socket.TcpSocket
import Netstack.Socket.UdpReceiving
import Netstack.HttpClient.Cancellation
import Netstack.Socket.LocalServer
import Netstack.Socket.TcpServer
import Netstack.Socket.ConnectMonitor
import Netstack.Common.SocketStatistics
import Netstack.Socket.NetAddress
import Netstack.NapiUtils.EventManager
