import EbpfXdpProgram.Pipeline.SustainedSpike
import EbpfXdpProgram.Pipeline.StaleTick
import EbpfXdpProgram.Pipeline.Isolation
import EbpfXdpProgram.Pipeline.WallClock
import EbpfXdpProgram.Baseline.Convergence
import EbpfXdpProgram.Anomaly.Agreement
import EbpfXdpProgram.Rate.SynSelection
import EbpfXdpProgram.Anomaly.Thresholds
import EbpfXdpProgram.Anomaly.Distinct
import EbpfXdpProgram.Pipeline.Telescope
import EbpfXdpProgram.Rate.PortWindow
import EbpfXdpProgram.MainLoop.Views
import EbpfXdpProgram.System.Drain
import EbpfXdpProgram.System.Emergency
import EbpfXdpProgram.System.Flood
import EbpfXdpProgram.System.Scan
