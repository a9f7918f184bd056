import Sandstar.AlertEpisodes
import Sandstar.BacnetAnswers
import Sandstar.BacnetIsolation
import Sandstar.BacnetMessages
import Sandstar.BacnetSafety
import Sandstar.BlockAgreement
import Sandstar.ComponentStore
import Sandstar.ControlDemand
import Sandstar.DaspAuthentication
import Sandstar.DaspDelivery
import Sandstar.DaspIsolation
import Sandstar.DaspRoundTrip
import Sandstar.DaspSessions
import Sandstar.DaspTransport
import Sandstar.DaspWire
import Sandstar.DeltaCompleteness
import Sandstar.DeltaPush
import Sandstar.DynSlots
import Sandstar.Effects
import Sandstar.FileConfinement
import Sandstar.FileIsolation
import Sandstar.FilePublishing
import Sandstar.FreshIds
import Sandstar.GossipConvergence
import Sandstar.I2cBackoff
import Sandstar.ModbusDriver
import Sandstar.ObserverReads
import Sandstar.PointFilter
import Sandstar.PointFilterAgreement
import Sandstar.PollSchedule
import Sandstar.PriorityArray
import Sandstar.ReloadErrors
import Sandstar.ReverseIndex
import Sandstar.RowsIds
import Sandstar.RowsPushes
import Sandstar.RowsReplica
import Sandstar.RowsSession
import Sandstar.Runs
import Sandstar.SessionSubscriptions
import Sandstar.SlotCodec
import Sandstar.SoxRejections
import Sandstar.SvmCalls
import Sandstar.SvmSafety
import Sandstar.SvmValidator
import Sandstar.TreeCycles
import Sandstar.TreeDeletions
import Sandstar.TreeEdits
import Sandstar.TreeLinks
import Sandstar.TreeLookup
import Sandstar.TreeNames
import Sandstar.TreeParents
import Sandstar.TreePersistence
import Sandstar.WatchIsolation
import Sandstar.WatchTables
import Sandstar.WsAuthentication
import Sandstar.WsChallenge
import Sandstar.WsCovFilter
import Sandstar.ComponentTick
import Sandstar.NamedSlots
import Sandstar.OutputBridges
import Sandstar.BridgeTicks
import Sandstar.WriteBack
import Sandstar.QuietEdits
import Sandstar.SavedEditRuns
import Sandstar.SavedEdits
import Sandstar.TagNames
import Sandstar.LinkOrder
import Sandstar.CycleBudget
import Sandstar.ConversionRoundTrip
import Sandstar.WriteLevels
import Sandstar.DaspNumbering
import Sandstar.Reading
import Sandstar.SoxReadBack
import Sandstar.Trio
import Sandstar.Splitting
import Sandstar.TextLines
import Sandstar.TrioRoundTrip
import Sandstar.TrioStrings
import Sandstar.ZincWriter
import Sandstar.ZincRoundTrip
import Sandstar.ZincReadBack
import Sandstar.Decimals
import Sandstar.TreeWalks
import Sandstar.ComponentWalks
import Sandstar.SvmMemory
import Sandstar.LatestWins
import Sandstar.RemoteMerge
import Sandstar.Rekeying
import Sandstar.StringTable
import Sandstar.Interpolation
import Sandstar.TableInterpolation
import Sandstar.RecentWindow
import Sandstar.SmoothingWindow
import Sandstar.VirtualReadBack
import Sandstar.SvmBrackets
import Sandstar.PidRuns
import Sandstar.TimingBlocks
import Sandstar.ControlSafety
import Sandstar.BigEndian
import Sandstar.BacnetLengths
import Sandstar.CovEvents
import Sandstar.TagRequests
import Sandstar.SlotJson
import Sandstar.TrioSlices
import Sandstar.Calendar
import Sandstar.Checked
import Sandstar.Epochs
import Sandstar.HistoryRanges
import Sandstar.HistoryDays
import Sandstar.I2cSensors
import Sandstar.IpcFrames
import Sandstar.NameIntern
import Sandstar.FilterText
import Sandstar.RateLimiter
