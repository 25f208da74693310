import HiddenLightning.Refusals
import HiddenLightning.AtomicWrites
import HiddenLightning.RetryLoop
import HiddenLightning.InFlight
import HiddenLightning.Settlement
import HiddenLightning.Saving
import HiddenLightning.PartFiles
import HiddenLightning.AttemptKeys
import HiddenLightning.PeerInfo
import HiddenLightning.DumpResults
import HiddenLightning.StartupArgs
import HiddenLightning.HexUtils
import HiddenLightning.SignMessage
import HiddenLightning.Reconnects
import HiddenLightning.ChainStartup
import HiddenLightning.OnionFailures
import HiddenLightning.CommitmentSecrets
import HiddenLightning.GossipFees
import HiddenLightning.GossipOrder
import HiddenLightning.FrameBuffers
import HiddenLightning.HostilePeers
import HiddenLightning.PeerDelivery
import HiddenLightning.PeerProgress
