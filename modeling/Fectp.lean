import Fectp.ReliableDelivery
import Fectp.FlushVerdict
import Fectp.FailedSend
import Fectp.Endpoint.Candidates
import Fectp.Endpoint.Migration
import Fectp.Endpoint.KeepaliveWake
import Fectp.RoundTrip
import Fectp.Congestion
import Fectp.ReassemblyCeiling
import Fectp.ReassemblyInverse
import Fectp.PathMtu
import Fectp.Rendezvous.Groups
import Fectp.SessionOpen
import Fectp.Endpoint.PathLearning
import Fectp.Rendezvous.Registration
import Fectp.DeltaBodies
import Fectp.Introductions.Discoveries
import Fectp.Rendezvous.Spelling
import Fectp.TicketLife
import Fectp.Endpoint.Lifetimes
import Fectp.RelayTraffic
import Fectp.FrameSpelling
import Fectp.CodingAttempts
import Fectp.RetransmitPacing
import Fectp.Endpoint.Resumption
