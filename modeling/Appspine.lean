import Appspine.JsText
import Appspine.JsNumerals
import Appspine.Utf16
import Appspine.StableSort
import Appspine.Results
import Appspine.InsertionMap
import Appspine.FrontierOrder
import Appspine.JsonText
import Appspine.JsonParse
import Appspine.JsonCanonical
import Appspine.PluginManifest
import Appspine.Resolver
import Appspine.ResolverScan
import Appspine.ResolverLinks
import Appspine.ResolverOrdering
import Appspine.JsonNumbers
import Appspine.ResolverPermutation
import Appspine.ResolverOwnership
import Appspine.ResolverReplacement
import Appspine.ResolverRemoval
import Appspine.Composition
import Appspine.CompositionBoot
import Appspine.CompositionDigest
import Appspine.ResolverDigest
import Appspine.Transitions
import Appspine.Lifecycle
import Appspine.LifecycleShutdown
import Appspine.LifecycleBoot
import Appspine.IntegrationEnvelope
import Appspine.Receipt
import Appspine.Webhook
import Appspine.WebhookAuthenticity
import Appspine.Rfc3339
import Appspine.RoleFlattening
import Appspine.JsonSchema
import Appspine.SchemaValidate
import Appspine.SchemaConforms
import Appspine.SchemaSemantics
import Appspine.ConfigBoundary
import Appspine.InventoryFile
import Appspine.Presets
import Appspine.PresetDiagnostics
import Appspine.Commands
import Appspine.Generate
import Appspine.LoadedManifests
import Appspine.Permissions
import Appspine.ConfigRefEcho
import Appspine.Lockfile
import Appspine.BracedLines
import Appspine.PrismaComposer
import Appspine.PrismaText
import Appspine.PrismaSchema
import Appspine.PrismaClash
import Appspine.QueueOrder
import Appspine.FrontendGenerator
import Appspine.Generators
import Appspine.LoadState
import Appspine.InventoryPlan
import Appspine.Build
import Appspine.FrontendEntries
import Appspine.DeliveryTable
import Appspine.Dispatcher
import Appspine.DispatcherLease
import Appspine.DispatcherSafety
import Appspine.DispatcherBudget
import Appspine.QueueDrain
import Appspine.DispatcherTick
import Appspine.DispatcherDrain
import Appspine.FrontendInstances
import Appspine.LastWriter
import Appspine.MirrorSync
import Appspine.MirrorRaces
import Appspine.OidcIdentity
import Appspine.OidcRaces
import Appspine.OidcMappings
import Appspine.OidcProvenance
import Appspine.McpRequestState
import Appspine.PagedListing
import Appspine.Notification
import Appspine.NotificationRuns
import Appspine.NotificationInbox
import Appspine.Listings
import Appspine.ContractCli
import Appspine.SchemaCompatibility
import Appspine.ContractDiff
import Appspine.RemoveCommand
import Appspine.LifecycleOutcome
import Appspine.LifecycleReversal
import Appspine.PresetLayers
import Appspine.PresetProvenance
import Appspine.JsonIndented
import Appspine.AddCommand
import Appspine.InventoryText
import Appspine.PermissionPlans
import Appspine.PrismaReport
import Appspine.ReferenceForms
import Appspine.AddedInventory
import Appspine.SourceDigest
import Appspine.KeyOrder
import Appspine.CanonicalSerializers
import Appspine.GreedyOrder
import Appspine.NavigationOrder
import Appspine.LongestCommon
import Appspine.PlanDiff
import Appspine.Redaction
import Appspine.HostWiring
import Appspine.SchemaModes
import Appspine.FiniteReach
import Appspine.JsonParts
import Appspine.SchemaReferences
import Appspine.ScopeGrants
import Appspine.SeenWalk
import Appspine.ClassifiedPaths
import Appspine.SchemaTermination
import Appspine.Utf8Decoding
import Appspine.IntegrationDelivery
import Appspine.DeliveredEvents
import Appspine.ComparedPairs
import Appspine.ComparisonAnswers
import Appspine.CompatibleSchemas
import Appspine.SlidingWindow
import Appspine.RateLimits
import Appspine.SecurityLogs
import Appspine.DelegationGate
import Appspine.DelegationRuns
import Appspine.ReconcilePass
import Appspine.NotificationBatch
import Appspine.AdminActions
import Appspine.DelegatedTokens
import Appspine.AddressBlocks
import Appspine.IpText
import Appspine.DestinationPolicy
import Appspine.DestinationAddresses
import Appspine.DestinationSpellings
import Appspine.HandlerRegistry
import Appspine.McpCatalog
import Appspine.NotificationPolling
import Appspine.BlockInsertion
import Appspine.PrismaInjection
import Appspine.UserCreation
import Appspine.UserCreationRuns
import Appspine.SqlScript
import Appspine.MigrationScan
import Appspine.MigrationReplay
import Appspine.ContractTypes
import Appspine.AccessKeys
import Appspine.ApiKeyAuth
import Appspine.DeliveryEndToEnd
import Appspine.AuthStrategies
import Appspine.Frontmatter
import Appspine.ContractRegistry
import Appspine.ContractPins
import Appspine.ContractIndex
