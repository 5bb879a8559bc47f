import Moonshine.Proof.Session.Finality
import Moonshine.Proof.Session.Retry
import Moonshine.Proof.Session.Crash
import Moonshine.Proof.Control.Totality
import Moonshine.Proof.Control.RoundTrip
import Moonshine.Proof.Stream.Nonces
import Moonshine.Proof.Video.FecHeader
import Moonshine.Proof.Video.Percentage
import Moonshine.Proof.Video.Recovery
import Moonshine.Proof.Video.Sei
import Moonshine.Proof.Video.Av1Metadata
import Moonshine.Proof.Video.Reassembly
import Moonshine.Proof.Video.Epochs
import Moonshine.Proof.Audio.Channels
import Moonshine.Proof.Audio.Credit
import Moonshine.Proof.Audio.Drain
import Moonshine.Proof.Audio.FecBlocks
import Moonshine.Proof.Audio.Recovery
import Moonshine.Proof.Pairing.Commitment
import Moonshine.Proof.Pairing.PinRelease
import Moonshine.Impl.Compositor.Handlers
import Moonshine.Proof.Session.Rejection
import Moonshine.Proof.Stream.CurrentKey
import Moonshine.Proof.Control.Authenticity
import Moonshine.Proof.Compositor.Dangling
import Moonshine.Proof.Compositor.TransientIndex
import Moonshine.Proof.Compositor.Selection
import Moonshine.Proof.Session.KeyLength
import Moonshine.Impl.Compositor.Color
import Moonshine.Proof.Compositor.SwapchainColor
import Moonshine.Proof.Video.ColorLabels
import Moonshine.Proof.Compositor.Slots
import Moonshine.Proof.Video.WarmUp
import Moonshine.Proof.Video.Sequence
import Moonshine.Proof.Video.GsoSocket
import Moonshine.Impl.Audio.Receive
import Moonshine.Proof.Audio.Receive
import Moonshine.Framework.Rounding
import Moonshine.Impl.Audio.BufferLengths
import Moonshine.Proof.Audio.BufferLengths
import Moonshine.Proof.Audio.Prebuffering
import Moonshine.Proof.Audio.Frames
import Moonshine.Framework.PhaseAccumulator
import Moonshine.Framework.Signal
import Moonshine.Impl.Audio.Sampled
import Moonshine.Proof.Audio.Sampled
import Moonshine.Proof.Audio.Drained
import Moonshine.Proof.Control.Remap
import Moonshine.Proof.Control.HoldTiming
import Moonshine.Proof.Control.Suppression
import Moonshine.Proof.Pairing.Persistence
import Moonshine.Impl.Pairing.Saves
import Moonshine.Proof.Pairing.Saves
import Moonshine.Proof.Session.Segmentation
import Moonshine.Proof.Video.InFlight
import Moonshine.Framework.Ledger
import Moonshine.Impl.Video.DmaBuf
import Moonshine.Proof.Video.Import
import Moonshine.Proof.Video.ImageCache
import Moonshine.Impl.Video.ImportLoop
import Moonshine.Proof.Video.Layouts
import Moonshine.Impl.Tls
import Moonshine.Proof.Tls.Recovery
import Moonshine.Framework.Enumeration
import Moonshine.Impl.Wsi.Enumerate
import Moonshine.Proof.Wsi.Layered
import Moonshine.Impl.Wsi.Swapchain
import Moonshine.Proof.Wsi.Routing
import Moonshine.Impl.Compositor.AppId
import Moonshine.Proof.Compositor.AppIdWalk
import Moonshine.Proof.Compositor.FrameColors
import Moonshine.Impl.Compositor.Pointer
import Moonshine.Proof.Compositor.PointerLock
import Moonshine.Impl.Compositor.Pen
import Moonshine.Proof.Compositor.PenStreams
import Moonshine.Framework.Shell
import Moonshine.Framework.ExecValue
import Moonshine.Impl.AppScanner.Desktop
import Moonshine.Proof.AppScanner.ExecRoundTrip
import Moonshine.Proof.Video.ObuWalk
import Moonshine.Proof.Session.Channels
import Moonshine.Impl.Webserver.Server
import Moonshine.Proof.Webserver.Authorisation
import Moonshine.Proof.Webserver.PairingRequests
import Moonshine.Proof.Webserver.PinPairing
import Moonshine.Framework.Xml
import Moonshine.Framework.Decimal
import Moonshine.Impl.AppScanner.Scan
import Moonshine.Impl.Webserver.Documents
import Moonshine.Proof.Webserver.Documents
import Moonshine.Proof.AppScanner.Scan
import Moonshine.Framework.Notify
import Moonshine.Impl.Session.StartGate
import Moonshine.Impl.Session.Application
import Moonshine.Proof.Session.Application
import Moonshine.Proof.Session.StartGate
import Moonshine.Impl.Control.GamepadTimer
import Moonshine.Proof.Control.GamepadTimer
import Moonshine.Impl.Video.PacketHandler
import Moonshine.Proof.Video.Delivery
