import ShoppingProject.Accounts
import ShoppingProject.AdminCookies
import ShoppingProject.AdminSession
import ShoppingProject.AuditChain
import ShoppingProject.AuditEvidence
import ShoppingProject.AuditIdentity
import ShoppingProject.AuditInterceptor
import ShoppingProject.AuditReadback
import ShoppingProject.AuditTrail
import ShoppingProject.BusIdentity
import ShoppingProject.CacheServices
import ShoppingProject.Caches
import ShoppingProject.CartDelivery
import ShoppingProject.CartOwnership
import ShoppingProject.CartSync
import ShoppingProject.CartUpdates
import ShoppingProject.Carts
import ShoppingProject.Chains
import ShoppingProject.ClientQueries
import ShoppingProject.Conditions
import ShoppingProject.Cookies
import ShoppingProject.DeletedProducts
import ShoppingProject.DispatchOrder
import ShoppingProject.DomainEvents
import ShoppingProject.Doubles
import ShoppingProject.DynamicQueries
import ShoppingProject.EffectOnce
import ShoppingProject.ExceptionPipeline
import ShoppingProject.ExpressionTrees
import ShoppingProject.FeatureFlags
import ShoppingProject.FilterMeaning
import ShoppingProject.GatewayConfig
import ShoppingProject.GlobalExceptionHandler
import ShoppingProject.GroupRouting
import ShoppingProject.Groups
import ShoppingProject.Guids
import ShoppingProject.HttpClients
import ShoppingProject.Identity
import ShoppingProject.Joins
import ShoppingProject.Json
import ShoppingProject.JsonStrings
import ShoppingProject.KeyedLists
import ShoppingProject.Layers
import ShoppingProject.Lexing
import ShoppingProject.LocalAtomicity
import ShoppingProject.LocalDatabase
import ShoppingProject.LocalProducts
import ShoppingProject.LocalStorage
import ShoppingProject.Mirrors
import ShoppingProject.MobileCart
import ShoppingProject.MobileRestart
import ShoppingProject.MobileSession
import ShoppingProject.NetworkStatus
import ShoppingProject.Numerals
import ShoppingProject.OfflineMiddleware
import ShoppingProject.OfflineQueue
import ShoppingProject.OfflineReplay
import ShoppingProject.OrderedQueries
import ShoppingProject.Outbox
import ShoppingProject.OutboxBacklog
import ShoppingProject.OutboxEncoding
import ShoppingProject.OutboxInstances
import ShoppingProject.OutboxLifecycle
import ShoppingProject.OutboxProcessor
import ShoppingProject.OutboxTable
import ShoppingProject.PageOffsets
import ShoppingProject.PageWalk
import ShoppingProject.Paginators
import ShoppingProject.Paging
import ShoppingProject.PersistedCart
import ShoppingProject.Preferences
import ShoppingProject.PrimaryKeys
import ShoppingProject.Privileges
import ShoppingProject.ProductCache
import ShoppingProject.ProductEvents
import ShoppingProject.ProductLists
import ShoppingProject.ProductPages
import ShoppingProject.PushTokens
import ShoppingProject.Queries
import ShoppingProject.QueryCaches
import ShoppingProject.QueueDelivery
import ShoppingProject.QueueOrder
import ShoppingProject.QueueRefinement
import ShoppingProject.RecencyLists
import ShoppingProject.RefreshQueue
import ShoppingProject.Registration
import ShoppingProject.RegistrationEnvelope
import ShoppingProject.ReplayPass
import ShoppingProject.RequestTracing
import ShoppingProject.Requests
import ShoppingProject.Restarts
import ShoppingProject.RetryAccounting
import ShoppingProject.RetryBound
import ShoppingProject.RetryQueues
import ShoppingProject.Runs
import ShoppingProject.SaveChanges
import ShoppingProject.Seeding
import ShoppingProject.ShopCart
import ShoppingProject.SigningKeys
import ShoppingProject.Slots
import ShoppingProject.SpecificationRows
import ShoppingProject.SpecificationSearch
import ShoppingProject.Specifications
import ShoppingProject.Splits
import ShoppingProject.StoredCarts
import ShoppingProject.SyncCalls
import ShoppingProject.SyncLock
import ShoppingProject.SyncManager
import ShoppingProject.SyncResults
import ShoppingProject.SyncTally
import ShoppingProject.TableUrlState
import ShoppingProject.Tables
import ShoppingProject.TextEncodings
import ShoppingProject.Timestamps
import ShoppingProject.TokenRevocation
import ShoppingProject.TokenRotation
import ShoppingProject.TokenValidity
import ShoppingProject.UserInterface
import ShoppingProject.Validation
import ShoppingProject.WebCart
import ShoppingProject.WebCartStorage
import ShoppingProject.WebSearch
import ShoppingProject.WebSession
