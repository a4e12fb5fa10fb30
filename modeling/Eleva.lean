import Eleva.Foundation.ExpiringStore
import Eleva.Foundation.Fallible
import Eleva.Foundation.FixedDecimal
import Eleva.Foundation.Interleaving
import Eleva.Foundation.Keys
import Eleva.Foundation.LikePatterns
import Eleva.Foundation.ListRelations
import Eleva.Foundation.Machine
import Eleva.Foundation.OnceGuard
import Eleva.Foundation.Resumption
import Eleva.Foundation.Text
import Eleva.Database.Client
import Eleva.Database.Schema
import Eleva.Database.TenantScope
import Eleva.Database.References
import Eleva.Database.Footprint
import Eleva.Database.Isolation
import Eleva.Database.Repository
import Eleva.Database.Noninterference
import Eleva.Service
import Eleva.Cache.CacheService
import Eleva.Cache.CacheAside
import Eleva.Auth.Tokens
import Eleva.Auth.JwtStrategy
import Eleva.Auth.AuthController
import Eleva.Auth.SingleUse
import Eleva.Auth.TenantContext
import Eleva.Auth.Login
import Eleva.Auth.RefreshChain
import Eleva.Auth.PasswordReset
import Eleva.Auth.RbacGuard
import Eleva.User.UserService
import Eleva.User.UserCalls
import Eleva.User.OwnerGuard
import Eleva.Order.Discount
import Eleva.Order.Checkout
import Eleva.Order.CheckoutSpec
import Eleva.Order.Totals
import Eleva.Order.Acceptance
import Eleva.Order.Modifiers
import Eleva.Order.DiscountUsage
import Eleva.Order.Status
import Eleva.Order.Lifecycle
import Eleva.Order.Runs
import Eleva.Order.Stock
import Eleva.Order.Invoicing
import Eleva.Payment.WalletService
import Eleva.Payment.Reconciliation
import Eleva.Payment.ProviderIds
import Eleva.Billing.BillingService
import Eleva.Billing.StatusChanges
import Eleva.Billing.Deliveries
import Eleva.Branch.FloorPlan
import Eleva.Branch.PlanLimit
import Eleva.Subscription.SubscriptionService
import Eleva.Menu.Catalogue
import Eleva.Menu.PublicMenu
import Eleva.Order.GuestCheckout
import Eleva.Order.OrderSteps
import Eleva.Branch.OpenOrders
import Eleva.Notification.DispatchService
import Eleva.Auth.SecondFactor
import Eleva.Auth.SessionFrames
import Eleva.Auth.SessionCsrf
import Eleva.Kds.Rooms
import Eleva.Auth.CashierRule
import Eleva.Media.ReplaceRemove
import Eleva.Media.Files
import Eleva.Tenant.TenantService
import Eleva.Tenant.HostResolution
import Eleva.Notification.Consumers
import Eleva.Cashier.OfflineSync
import Eleva.Kds.KdsService
import Eleva.Kds.CookingCalls
import Eleva.Kds.TicketBoard
import Eleva.Kds.TicketIdentity
import Eleva.User.BranchScope
import Eleva.Database.SoftDeleteLaws
import Eleva.Menu.Restorations
import Eleva.Customer.CustomerService
import Eleva.Customer.EmailUniqueness
import Eleva.Audit.AuditService
import Eleva.Audit.AuditInterceptor
import Eleva.Agent.ElevaAgentService
import Eleva.Agent.OperationalPlan
import Eleva.Auth.Permissions
import Eleva.Order.AllOrNothing
import Eleva.User.SetReplacement
import Eleva.Foundation.Errors
import Eleva.User.EmailRule
import Eleva.User.Delegation
import Eleva.QrMenu.MenuBrowser
import Eleva.QrMenu.CartCounts
import Eleva.QrMenu.CheckoutAgreement
import Eleva.User.LoginAccounts
import Eleva.User.Revocation
import Eleva.Media.FailedUploads
import Eleva.Media.CleanupQueue
import Eleva.Media.PublicUrl
import Eleva.Kds.CookingTimes
import Eleva.Kds.Escalation
import Eleva.Foundation.FixedWindows
import Eleva.Foundation.Hex
import Eleva.RateLimit.RateLimitService
import Eleva.RateLimit.RedisWindows
import Eleva.Auth.CsrfService
import Eleva.Foundation.JsonTrees
import Eleva.Foundation.JsonTokens
import Eleva.Common.SanitizationService
import Eleva.Common.SensitiveData
import Eleva.Audit.Redaction
import Eleva.Agent.Intelligence
import Eleva.Foundation.TextHash
import Eleva.Agent.Correlation
import Eleva.Foundation.Retries
import Eleva.Webhook.WebhookService
import Eleva.Agent.BusinessIntelligence
import Eleva.Foundation.Base32
import Eleva.Auth.MfaSecret
import Eleva.Foundation.Tallies
import Eleva.Agent.RevenueSegments
import Eleva.Agent.ReportingWindows
import Eleva.Foundation.Loops
import Eleva.Database.CascadeLoops
import Eleva.Menu.DeletionLoops
import Eleva.Foundation.Pages
import Eleva.User.UserListing
import Eleva.Foundation.Upserts
import Eleva.Agent.ElevaAdvisory
import Eleva.Agent.ElevaMemory
import Eleva.Agent.Conversations
import Eleva.Agent.ConversationEchoes
import Eleva.Agent.ConversationIsolation
import Eleva.Notification.DeviceTokens
import Eleva.Notification.DeviceOwners
