import BotsterHub.Json
import BotsterHub.Lib.Counter

/-!
The data of the package event router (`package_event_router.rs`).

The fields of `RouterInner` are grouped by what they account for; the source keeps them behind one
mutex. Instants are nanoseconds. `u64` counters carry their bound where the source saturates or
checks; the others are bounded by the policy.
-/

namespace BotsterHub.Router

abbrev Instant := ℕ
abbrev Duration := ℕ

def u64Max : ℕ := 2 ^ 64 - 1

def saturatingAdd (a b : ℕ) : ℕ := min (a + b) u64Max

def checkedSub (a b : ℕ) : Option ℕ := if b ≤ a then some (a - b) else none

def hubEventOwner : String := "hub"

def worktreeEventNames : List String :=
  ["worktree_created", "worktree_create_failed", "worktree_deleted", "worktree_delete_failed"]

/-- Typed ingress, subscribe and shed results shared with Lua. -/
inductive EventPlaneStatus where
  | accepted
  | rejectedUndeclared
  | rejectedForeign
  | rejectedInvalid
  | rejectedOversize
  | rejectedOverRate
  | rejectedOverFanout
  | rejectedWildcard
  | rejectedCausalScope
  | rejectedAudience
  | shedFull
  | shedBusy
deriving DecidableEq, Inhabited

inductive EventAudience where
  | plugins
  | clients
deriving DecidableEq, Inhabited

/-- `PackageEventPlanePolicy` of `config.rs`. -/
structure Policy where
  payloadMaxBytes : ℕ
  subscriptionsPerPluginMax : ℕ
  subscribersPerEventMax : ℕ
  fanoutPerEmitMax : ℕ
  producerQueueMaxEvents : ℕ
  producerQueueMaxBytes : ℕ
  consumerQueueMaxEvents : ℕ
  consumerQueueMaxBytes : ℕ
  globalInFlightBytes : ℕ
  packageRatePerSec : ℕ
  packageBurst : ℕ
  queueAge : Duration
deriving DecidableEq

/-- The default options. -/
instance : Inhabited Policy where
  default :=
    { payloadMaxBytes := 64 * 1024
      subscriptionsPerPluginMax := 64
      subscribersPerEventMax := 64
      fanoutPerEmitMax := 64
      producerQueueMaxEvents := 256
      producerQueueMaxBytes := 512 * 1024
      consumerQueueMaxEvents := 128
      consumerQueueMaxBytes := 2 * 1024 * 1024
      globalInFlightBytes := 16 * 1024 * 1024
      packageRatePerSec := 100
      packageBurst := 200
      queueAge := 1000000000 }

/-- A declared event. The compiled schema is used through `validate` only. -/
structure EmittedContract where
  owner : String
  name : String
  audience : Finset EventAudience
  validate : Json → Bool
  packageGeneration : ℕ

/-- The `event_generation` of a registration whose producer has no live
contract. -/
def waitingEventGeneration : ℕ := u64Max

structure EventSubscription where
  pluginKey : String
  owner : String
  name : String
  handlerId : String
  generation : ℕ
  eventGeneration : ℕ
  pluginGeneration : ℕ
deriving DecidableEq, Inhabited

def EventSubscription.isWaiting (s : EventSubscription) : Bool :=
  s.eventGeneration == waitingEventGeneration

/-- Key of the registration among the holders of one envelope. -/
def EventSubscription.holderKey (s : EventSubscription) : String × ℕ := (s.pluginKey, s.generation)

/-- Connection-scoped client holder; `mailbox` is the identity of its mailbox. -/
structure ClientEventHolder where
  connectionId : String
  subscriptionId : String
  owner : String
  name : String
  subjects : Finset String
  mailbox : ℕ

structure RegisteredClientEventHolder where
  holder : ClientEventHolder
  eventGeneration : ℕ

/-- The last holder was dropped by an unload; the payload is being destroyed outside the lock. -/
structure EnvelopeRetirement where
  cleanup : String × ℕ
  destroyed : Bool
deriving DecidableEq

structure Envelope where
  id : ℕ
  owner : String
  name : String
  payload : List UInt8
  payloadJson : Json
  size : ℕ
  enqueuedAt : Instant
  remainingHolders : ℕ
  retirement : Option EnvelopeRetirement

structure QueuedCopy where
  envelopeId : ℕ
  holder : EventSubscription
deriving DecidableEq, Inhabited

structure AdmittedHolder where
  retired : Bool
deriving DecidableEq

structure ProducerOccupancy where
  events : ℕ
  bytes : ℕ
deriving DecidableEq

instance : Inhabited ProducerOccupancy := ⟨⟨0, 0⟩⟩

structure ConsumerQueue where
  events : ℕ
  bytes : ℕ
  copies : List QueuedCopy
deriving DecidableEq

instance : Inhabited ConsumerQueue := ⟨⟨0, 0, []⟩⟩

/-- One pulled copy, owned by the caller of `pull_ready_batch`. -/
structure ReadyDelivery where
  envelopeId : ℕ
  owner : String
  name : String
  payload : List UInt8
  payloadJson : Json
  size : ℕ
  holder : EventSubscription
  pullId : ℕ

def ReadyDelivery.copy (d : ReadyDelivery) : QueuedCopy := ⟨d.envelopeId, d.holder⟩

def isWildcard (value : String) : Bool := value.toList.contains '*' || value.toList.contains '?'

/-- The characters `str::trim` removes (Unicode `White_Space`). -/
def isWhitespace (c : Char) : Bool :=
  let n := c.toNat
  (9 ≤ n && n ≤ 13) || n == 0x20 || n == 0x85 || n == 0xA0 || n == 0x1680 ||
    (0x2000 ≤ n && n ≤ 0x200A) || n == 0x2028 || n == 0x2029 || n == 0x202F || n == 0x205F ||
    n == 0x3000

/-- `value.trim().is_empty()`. -/
def isBlank (value : String) : Bool := value.toList.all isWhitespace

end BotsterHub.Router
