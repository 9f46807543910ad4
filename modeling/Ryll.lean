import Ryll.Compression.Lz4
import Ryll.Compression.LzWire
import Ryll.Compression.GlzWait
import Ryll.Compression.QuicCodes
import Ryll.Compression.QuicStream
import Ryll.Compression.Quic
import Ryll.Protocol.ReceiveBuffer
import Ryll.Channels.DisplayConfig
import Ryll.Channels.Clipboard
import Ryll.Display.SurfaceRun
import Ryll.Compression.GlzTombstones
import Ryll.Usb.Transfers
import Ryll.Protocol.DrawCopyLayout
import Ryll.Channels.UsbAttachment
import Ryll.Channels.WebdavIsolation
import Ryll.Channels.Acknowledgement
import Ryll.Channels.PixmapCache
import Ryll.Compression.GlzWindow
import Ryll.Channels.Playback
import Ryll.Rdp.MirrorUpdates
import Ryll.Rdp.HeldInput
import Ryll.Channels.PasteAnswers
import Ryll.Channels.Motion
import Ryll.Channels.MouseMode
import Ryll.Channels.RoundTrips
import Ryll.Connect.Tls
import Ryll.Connect.Proxy
import Ryll.Control.Pastes
import Ryll.Rdp.Clipboard
import Ryll.Encoder.Task
import Ryll.Gui.HostKeyboard
import Ryll.Display.Boxes
import Ryll.Display.Invert
import Ryll.Display.VideoFrame
import Ryll.Webrtc.StickySignal
import Ryll.Protocol.Link
import Ryll.Capture.Report
import Ryll.Rdp.Wheel
