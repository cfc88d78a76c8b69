import AirTraffic.Foundation.Region
import AirTraffic.Foundation.Writes
import AirTraffic.Foundation.Endian
import AirTraffic.Foundation.CString
import AirTraffic.Foundation.Decimal
import AirTraffic.Foundation.CInt
import AirTraffic.Foundation.Rounding
import AirTraffic.Foundation.Table
import AirTraffic.Foundation.Transition
import AirTraffic.Foundation.Loop
import AirTraffic.Foundation.RecordLock
import AirTraffic.Foundation.LockWaits
import AirTraffic.Foundation.BoundedBuffer
import AirTraffic.Foundation.Confluence
import AirTraffic.Foundation.Network
import AirTraffic.Foundation.RingNetwork
import AirTraffic.Foundation.StreamNetwork
import AirTraffic.Storage.Disk
import AirTraffic.Storage.Sto
import AirTraffic.Storage.Rows
import AirTraffic.Storage.Specs
import AirTraffic.Storage.OrderedMap
import AirTraffic.Storage.Failure
import AirTraffic.Storage.OwnKey
import AirTraffic.Storage.Layout
import AirTraffic.Storage.Lookup
import AirTraffic.Storage.Shifted
import AirTraffic.Storage.Locks
import AirTraffic.Storage.Steps
import AirTraffic.Storage.Serial
import AirTraffic.Storage.Drain
import AirTraffic.Transport.Shmem
import AirTraffic.Transport.Reconnect
import AirTraffic.Transport.Listen
import AirTraffic.Transport.Msgqueue
import AirTraffic.Transport.Fifo
import AirTraffic.Transport.Handshake
import AirTraffic.Transport.Socket
import AirTraffic.Atcd.Plane
import AirTraffic.Atcd.Motion
import AirTraffic.Atcd.Landing
import AirTraffic.Atcd.Game
import AirTraffic.Atcd.Airworthy
import AirTraffic.Atcd.Heading
import AirTraffic.Atcd.Identity
import AirTraffic.Atcd.Fleet
import AirTraffic.Atcd.Observation
import AirTraffic.Atcd.Impact
import AirTraffic.Atcd.Ledger
import AirTraffic.Atcd.Scan
import AirTraffic.Atcd.Contract
import AirTraffic.Atcd.Twice
import AirTraffic.Atcd.Creation
import AirTraffic.Protocol.Serialize
import AirTraffic.Protocol.Room
import AirTraffic.Protocol.Codec
import AirTraffic.Protocol.Proto
import AirTraffic.Protocol.Residue
import AirTraffic.Protocol.Stream
import AirTraffic.Protocol.Delivery
import AirTraffic.Protocol.RoundTrip
import AirTraffic.Protocol.Reader
import AirTraffic.Protocol.Parties
import AirTraffic.Protocol.Meeting
import AirTraffic.Protocol.Framing
import AirTraffic.Server.Handler
import AirTraffic.Server.Serve
import AirTraffic.Server.Session
import AirTraffic.Server.World
import AirTraffic.Server.Board
import AirTraffic.Server.Observers
import AirTraffic.Server.Score
import AirTraffic.Server.Commands
import AirTraffic.Server.Fresh
import AirTraffic.Server.Position
import AirTraffic.Server.Capacity
import AirTraffic.Server.Padding
import AirTraffic.Server.KeepsKeys
import AirTraffic.Server.Loop
import AirTraffic.Server.Clients
import AirTraffic.Server.Interrupt
import AirTraffic.Server.Processes
import AirTraffic.Server.Reaping
import AirTraffic.Server.Visit
import AirTraffic.Server.RowGame
import AirTraffic.Server.Workers
import AirTraffic.Server.Scene
import AirTraffic.Server.SharedFile
import AirTraffic.Cli.Proxy
import AirTraffic.Cli.Api
import AirTraffic.Cli.Calls
import AirTraffic.Cli.PollFailure
import AirTraffic.Cli.Bounds
import AirTraffic.Cli.Lost
import AirTraffic.Atcc.Input
import AirTraffic.Atcc.Pages
import AirTraffic.Atcc.Play
import AirTraffic.Utils.Pplanes
