import Cbgp.Verified.RtAgreement
import Cbgp.Verified.SessionClose
import Cbgp.Verified.SkippedRuns
import Cbgp.Verified.SessionIdentity
import Cbgp.Verified.SessionSync
import Cbgp.Verified.SchedulerAgreement
import Cbgp.Verified.Export
import Cbgp.Verified.Forwarding
import Cbgp.Verified.ShortestPaths
import Cbgp.Verified.Recomputation
import Cbgp.Verified.PredicateSentences
import Cbgp.Verified.AsLevelLinks
import Cbgp.Verified.AsLevelCycles
import Cbgp.Verified.AsLevelConnected
import Cbgp.Verified.ArrivalOrder
import Cbgp.Verified.AsLevelCache
import Cbgp.Verified.AsLevelLoads
import Cbgp.Verified.AsLevelFormats
import Cbgp.Verified.ScanRib
import Cbgp.Verified.ValleyFree
import Cbgp.Verified.PathPrinters
import Cbgp.Verified.PathRoundTrip
import Cbgp.Verified.MrtRoundTrip
import Cbgp.Verified.AttrEquality
import Cbgp.Verified.PathPrepend
import Cbgp.Verified.MatcherBytes
import Cbgp.Verified.RouteMapCalls
import Cbgp.Verified.ReflectedRoutes
import Cbgp.Verified.Ping
import Cbgp.Verified.AttrBlocks
import Cbgp.Verified.CommText
import Cbgp.Verified.CommLists
import Cbgp.Verified.PrefixText
import Cbgp.Verified.CommParser
import Cbgp.Verified.PrefixSets
import Cbgp.Verified.RouteRemoval
import Cbgp.Verified.RtEntries
import Cbgp.Verified.BestRoutes
import Cbgp.Verified.SptMirror
import Cbgp.Verified.LinkEnds
import Cbgp.Verified.RecordRoute
import Cbgp.Verified.GenericRule
import Cbgp.Verified.LoopCheck
import Cbgp.Verified.TraceRoute
import Cbgp.Verified.TunnelChains
import Cbgp.Lib.Stack
import Cbgp.Verified.SessionAgreement
import Cbgp.Verified.FirstHops
import Cbgp.Verified.ShortestForwarding
import Cbgp.Verified.StableRoutes
import Cbgp.Verified.OpenedSessions
import Cbgp.Verified.ExportFilters
