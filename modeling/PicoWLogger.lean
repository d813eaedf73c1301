import PicoWLogger.Proofs.AdcColumns
import PicoWLogger.Proofs.AppendPlace
import PicoWLogger.Proofs.Bme280Overflow
import PicoWLogger.Proofs.ButtonPress
import PicoWLogger.Proofs.CommandLines
import PicoWLogger.Proofs.DamagedFrame
import PicoWLogger.Proofs.DecoderAgreement
import PicoWLogger.Proofs.DumpSafety
import PicoWLogger.Proofs.DumpToViewer
import PicoWLogger.Proofs.EraseIndex
import PicoWLogger.Proofs.FailedAppend
import PicoWLogger.Proofs.FlashListing
import PicoWLogger.Proofs.FrameDamage
import PicoWLogger.Proofs.HttpAnswers
import PicoWLogger.Proofs.LatestCount
import PicoWLogger.Proofs.LcdLines
import PicoWLogger.Proofs.Maintenance
import PicoWLogger.Proofs.MovingAverage
import PicoWLogger.Proofs.Persistence
import PicoWLogger.Proofs.ReadBounds
import PicoWLogger.Proofs.RecoveryScan
import PicoWLogger.Proofs.SensorsToPlot
import PicoWLogger.Proofs.SeqStats
import PicoWLogger.Proofs.SharedIo
import PicoWLogger.Proofs.SpiFlash
import PicoWLogger.Proofs.StatsSnapshot
import PicoWLogger.Proofs.TornFrames
import PicoWLogger.Proofs.TxRing
import PicoWLogger.Proofs.UartReception
import PicoWLogger.Proofs.Wear
import PicoWLogger.Proofs.WifiTask
