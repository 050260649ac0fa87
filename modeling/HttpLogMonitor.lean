import HttpLogMonitor.Library.Machine
import HttpLogMonitor.Library.Fifo
import HttpLogMonitor.RequestTargets
import HttpLogMonitor.MostHitsReport
import HttpLogMonitor.Eviction
import HttpLogMonitor.PeakRows
import HttpLogMonitor.Durations
import HttpLogMonitor.AlertWindow
import HttpLogMonitor.AlertVolume
import HttpLogMonitor.AlertLabels
import HttpLogMonitor.AlertRecovery
import HttpLogMonitor.AlertPeriod
import HttpLogMonitor.MostHitsTable
import HttpLogMonitor.SnifferHandling
import HttpLogMonitor.MonitorRuns
import HttpLogMonitor.CaptureAccounts
import HttpLogMonitor.LastPreference
import HttpLogMonitor.TimerReplacement
import HttpLogMonitor.ReportRefinement
import HttpLogMonitor.PublishedReports
import HttpLogMonitor.ProgramRefinement
import HttpLogMonitor.ClickedPreferences
import HttpLogMonitor.FrameThread
import HttpLogMonitor.FrameTables
import HttpLogMonitor.Quiescence
import HttpLogMonitor.ProgramQuiescence
import HttpLogMonitor.SessionVolume
import HttpLogMonitor.ReportRate
import HttpLogMonitor.EmptyReports
import HttpLogMonitor.AlertRefinement
import HttpLogMonitor.BurstShown
import HttpLogMonitor.BackedRows
