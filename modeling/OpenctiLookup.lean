import OpenctiLookup.Python.Text
import OpenctiLookup.Python.TextLemmas
import OpenctiLookup.Python.FindLemmas
import OpenctiLookup.Python.LowerLaws
import OpenctiLookup.Python.Value
import OpenctiLookup.Python.Regex
import OpenctiLookup.Python.RegexLemmas
import OpenctiLookup.Python.Runtime
import OpenctiLookup.Python.Ipaddress
import OpenctiLookup.Python.IpaddressLemmas
import OpenctiLookup.Python.Urlsplit
import OpenctiLookup.Python.UrlsplitLemmas
import OpenctiLookup.Python.UrlQuery
import OpenctiLookup.Indicators
import OpenctiLookup.DomainPattern
import OpenctiLookup.Defang
import OpenctiLookup.Markers
import OpenctiLookup.AsciiMarkers
import OpenctiLookup.Bracketed
import OpenctiLookup.Classify
import OpenctiLookup.Quads
import OpenctiLookup.UrlParts
import OpenctiLookup.UrlText
import OpenctiLookup.Spelled
import OpenctiLookup.Theory.Runs
import OpenctiLookup.Theory.LastWrite
import OpenctiLookup.Theory.SortedSearch
import OpenctiLookup.Theory.Recency
import OpenctiLookup.Backends.Membership
import OpenctiLookup.Opencti.Breaker
import OpenctiLookup.Config
import OpenctiLookup.Opencti.Mapper
import OpenctiLookup.Opencti.Queries
import OpenctiLookup.Cache.Payload
import OpenctiLookup.Backends.Live
import OpenctiLookup.Opencti.Hits
import OpenctiLookup.Backends.Split
import OpenctiLookup.Backends.SharedState
import OpenctiLookup.Bootstrap
import OpenctiLookup.Corpus
import OpenctiLookup.MembershipLoader
import OpenctiLookup.Reconcile
import OpenctiLookup.Opencti.Stream
import OpenctiLookup.Memory
import OpenctiLookup.Main
import OpenctiLookup.Opencti.Events
import OpenctiLookup.Systems.LiveEntities
import OpenctiLookup.Systems.Rebuild
import OpenctiLookup.Systems.ServedSet
import OpenctiLookup.Systems.Recovery
import OpenctiLookup.Systems.Workers
import OpenctiLookup.Systems.HandOff
import OpenctiLookup.Systems.CacheFreshness
import OpenctiLookup.Systems.Prefilter
import OpenctiLookup.Systems.FirstMatch
import OpenctiLookup.Systems.UrlHosts
import OpenctiLookup.Systems.FileDigests
import OpenctiLookup.Opencti.Legible
import OpenctiLookup.Systems.Deliveries
import OpenctiLookup.Systems.Truncation
import OpenctiLookup.Cache.Bytes
import OpenctiLookup.Cache.History
import OpenctiLookup.Opencti.TypedPayload
import OpenctiLookup.Opencti.PayloadRoom
import OpenctiLookup.Systems.CacheBudget
import OpenctiLookup.Opencti.Client
import OpenctiLookup.Opencti.LegibleReply
import OpenctiLookup.Systems.Answers
import OpenctiLookup.Systems.StreamHealth
import OpenctiLookup.Systems.StableKeys
import OpenctiLookup.Systems.Requests
import OpenctiLookup.Cache.SingleFlight
import OpenctiLookup.Systems.Callers
import OpenctiLookup.Systems.Published
import OpenctiLookup.Systems.SegmentBudget
import OpenctiLookup.Systems.ValidityWindows
import OpenctiLookup.Systems.Failover
import OpenctiLookup.Systems.BuilderLock
import OpenctiLookup.Systems.Outage
import OpenctiLookup.Systems.Lifespan
import OpenctiLookup.Systems.MarkerLoop
import OpenctiLookup.Systems.CacheRecency
import OpenctiLookup.Systems.DegradedTtl
import OpenctiLookup.Systems.BestIndicator
import OpenctiLookup.Systems.CanonicalDomains
import OpenctiLookup.Systems.UrlRoundTrip
import OpenctiLookup.Systems.InternalHosts
import OpenctiLookup.Systems.SchemelessUrls
import OpenctiLookup.Systems.ByteExact
import OpenctiLookup.Systems.Respellings
import OpenctiLookup.Opencti.Reconnect
import OpenctiLookup.Systems.Backoff
import OpenctiLookup.Systems.PackedCorpus
import OpenctiLookup.Theory.FirstSeen
import OpenctiLookup.Systems.LabelField
import OpenctiLookup.Theory.CorrectedCount
import OpenctiLookup.Systems.MembershipCount
import OpenctiLookup.Systems.Budgets
import OpenctiLookup.Api
import OpenctiLookup.Wazuh
import OpenctiLookup.Systems.FixedStates
import OpenctiLookup.Systems.AlertLookups
import OpenctiLookup.Systems.HostNames
import OpenctiLookup.Python.JsonText
import OpenctiLookup.Theory.AtomicReplace
import OpenctiLookup.Backends.StateFile
import OpenctiLookup.Systems.StateFile
import OpenctiLookup.Wazuh.Extraction
import OpenctiLookup.Systems.HashField
import OpenctiLookup.Systems.PrivateIndicators
import OpenctiLookup.Wazuh.Events
import OpenctiLookup.Systems.EventFrames
import OpenctiLookup.Systems.AlertEvents
import OpenctiLookup.Systems.Startup
import OpenctiLookup.Systems.KeyShapes
import OpenctiLookup.Systems.Provenance
import OpenctiLookup.Theory.Tally
import OpenctiLookup.Obs.Metrics
import OpenctiLookup.Systems.Telemetry
import OpenctiLookup.Cache.Stats
import OpenctiLookup.Systems.CacheCounters
import OpenctiLookup.Theory.Permits
import OpenctiLookup.Systems.Slots
import OpenctiLookup.Systems.ReconcileLoop
import OpenctiLookup.Systems.FlatPayloads
import OpenctiLookup.Python.AddressSpellings
import OpenctiLookup.Systems.AddressKeys
import OpenctiLookup.Systems.StreamCounters
import OpenctiLookup.Systems.Adoptions
