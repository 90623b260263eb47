import ServiceConsumers.RunInvariants
import ServiceConsumers.SessionLifetime
import ServiceConsumers.UpdatableAttributes
import ServiceConsumers.WellFormedRequests
import ServiceConsumers.SessionCallbacks
import ServiceConsumers.SubscriptionContainers
import ServiceConsumers.NotificationDispatch
import ServiceConsumers.Quiescence
import ServiceConsumers.SubscriptionNotifications
import ServiceConsumers.AllocationMatching
import ServiceConsumers.TmgiRegistry
import ServiceConsumers.ApplicationTmgis
import ServiceConsumers.TmgiCallbacks
import ServiceConsumers.SbiObjectCounts
import ServiceConsumers.UnorderedArrays
import ServiceConsumers.OverlookedChanges
import ServiceConsumers.PlmnRoundTrips
import ServiceConsumers.Snapshots
import ServiceConsumers.ForeignPatches
import ServiceConsumers.SubscriptionUpdates
import ServiceConsumers.PcfBindingsCache
import ServiceConsumers.BsfSessions
import ServiceConsumers.LinkedLists
import ServiceConsumers.PcfEvents
import ServiceConsumers.PcfSessions
import ServiceConsumers.PcfDeletions
import ServiceConsumers.PcfHandlers
import ServiceConsumers.PcfCreations
import ServiceConsumers.PcfEventSubscriptions
import ServiceConsumers.NumberTexts
import ServiceConsumers.PcfNotifications
import ServiceConsumers.FirstFits
import ServiceConsumers.GrantedTmgis
import ServiceConsumers.SessionResources
import ServiceConsumers.SubscriptionAnswers
import ServiceConsumers.SubscriptionRequests
import ServiceConsumers.HoldingPeriods
import ServiceConsumers.CallbackData
import ServiceConsumers.SharedLists
import ServiceConsumers.SessionTeardown
import ServiceConsumers.EventReports
import ServiceConsumers.SubscriptionEncoders
import ServiceConsumers.TmgiScheduling
import ServiceConsumers.TmgiDeallocations
import ServiceConsumers.MemberPatches
import ServiceConsumers.CarriedPatches
import ServiceConsumers.MediaComponentPatches
import ServiceConsumers.MediaComponentTables
import ServiceConsumers.Rollbacks
import ServiceConsumers.CreateResponses
import ServiceConsumers.LostUpdates
import ServiceConsumers.AreaComparisons
import ServiceConsumers.MediaInfos
import ServiceConsumers.FlowComparisons
import ServiceConsumers.HexTexts
import ServiceConsumers.BitrateTexts
import ServiceConsumers.NotificationConfig
import ServiceConsumers.CacheAges
import ServiceConsumers.ResponseRouting
import ServiceConsumers.SessionPatches
import ServiceConsumers.ListDiffers
import ServiceConsumers.PrefixedPatches
import ServiceConsumers.EventMasks
import ServiceConsumers.PcfRegistrations
import ServiceConsumers.EventMerges
import ServiceConsumers.FailedCreates
import ServiceConsumers.UeIdentities
import ServiceConsumers.EndpointTexts
import ServiceConsumers.OwnedBlocks
import ServiceConsumers.AreaCopies
import ServiceConsumers.EventLoops
import ServiceConsumers.CommandLines
import ServiceConsumers.TmgiTool
import ServiceConsumers.TmgiToolRuns
import ServiceConsumers.PolicyAuthTool
import ServiceConsumers.PolicyAuthRuns
import ServiceConsumers.ResourceLedgers
import ServiceConsumers.NotificationServers
import ServiceConsumers.PcfLifecycles
import ServiceConsumers.FirstAnswers
import ServiceConsumers.MbsServiceTool
import ServiceConsumers.MbsServiceAnswers
import ServiceConsumers.MbsServiceRuns
import ServiceConsumers.MbsServiceEnds
