import BotsterHub.Attach.ChannelBudget
import BotsterHub.Attach.Departure
import BotsterHub.Attach.Isolation
import BotsterHub.Capability.Isolation
import BotsterHub.Capability.Reports
import BotsterHub.Capability.Timers
import BotsterHub.Causal.OwnerQueue
import BotsterHub.Causal.Scopes
import BotsterHub.Client.Correlation
import BotsterHub.Client.FrameStream
import BotsterHub.Document.Stranding
import BotsterHub.Entity.Family
import BotsterHub.Host.ExecutorWake
import BotsterHub.Lua.Collections
import BotsterHub.Lua.LogMirror
import BotsterHub.Maintenance.Chunks
import BotsterHub.Maintenance.EventOrder
import BotsterHub.Maintenance.JournalOrder
import BotsterHub.Owner.BudgetOvershoot
import BotsterHub.Owner.CompletionReach
import BotsterHub.Owner.DeadlineOrder
import BotsterHub.Owner.ReadyOrder
import BotsterHub.Owner.SignalingMutex
import BotsterHub.Owner.UnlockNotices
import BotsterHub.Package.EntrypointStates
import BotsterHub.Package.EventSchema
import BotsterHub.Package.Restore
import BotsterHub.Session.Patch
import BotsterHub.Session.Reservations
import BotsterHub.SessionType.Containment
import BotsterHub.SessionType.Credential
import BotsterHub.Store.CompareAndSet
import BotsterHub.Store.Separation
import BotsterHub.Subscription.EventGaps
import BotsterHub.Subscription.EventResidency
