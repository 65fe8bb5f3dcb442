import OhecoBroker.Cli.Reconnect
import OhecoBroker.Control.Expiry
import OhecoBroker.Control.Generation
import OhecoBroker.Control.Limits
import OhecoBroker.Control.Revocation
import OhecoBroker.Control.Turn
import OhecoBroker.Control.Versions
import OhecoBroker.Flows.Admission
import OhecoBroker.Flows.Memory
import OhecoBroker.Flows.Views
import OhecoBroker.Json.NulScan
import OhecoBroker.Login.Generations
import OhecoBroker.Login.Timestamp
import OhecoBroker.Mapping.Record
import OhecoBroker.Mapping.Resumable
import OhecoBroker.Peer.KeyAgreement
import OhecoBroker.Peer.RelayPolicy
import OhecoBroker.Peer.Routing
import OhecoBroker.Peer.TransportParams
import OhecoBroker.Shell.Events
import OhecoBroker.Shell.Stdin
import OhecoBroker.Turn.Counters
import OhecoBroker.Turn.Rate
import OhecoBroker.Turn.Renewal
import OhecoBroker.Udp.Datagrams
import OhecoBroker.Usage.Quota
import OhecoBroker.WebSocket.Push
