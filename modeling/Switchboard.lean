import Switchboard.Main
import Switchboard.Proofs.Exchange.Dispatch
import Switchboard.Proofs.Admission.Notices
import Switchboard.Proofs.Admission.Gate
import Switchboard.Proofs.Relay.Delivery
import Switchboard.Proofs.Frame.Decoding
import Switchboard.Proofs.Packet.Interleaving
import Switchboard.Proofs.Wire.Link
import Switchboard.Proofs.Feed.Conveyance
import Switchboard.Proofs.Feed.Neighbours
import Switchboard.Proofs.Service.Run
import Switchboard.Proofs.Service.Balance
import Switchboard.Proofs.Admission.Shutdown
import Switchboard.Proofs.Service.Answers
import Switchboard.Proofs.Service.Calls
import Switchboard.Proofs.Server.Upstream
import Switchboard.Proofs.Relay.Announced
import Switchboard.Proofs.Service.Counts
import Switchboard.Proofs.Feed.Retraction
import Switchboard.Proofs.Wire.Flush
import Switchboard.Proofs.Exchange.Retirement
import Switchboard.Proofs.Packet.Withheld
import Switchboard.Proofs.Relay.Bound
import Switchboard.Proofs.Feed.Welcome
import Switchboard.Proofs.Wire.Command
import Switchboard.Proofs.Service.Tally
import Switchboard.Proofs.Exchange.Tokens
import Switchboard.Proofs.Shutdown
import Switchboard.Proofs.Files.Socket
import Switchboard.Proofs.Server.Startup
