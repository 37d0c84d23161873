import BotsterHub.Maintenance.Family

/-!
The chunks of a session-family snapshot.

A chunk is measured in a frame with sequence 0 and sent with the sequence of its consumer, which may
have more digits.
-/

namespace BotsterHub.Maintenance

open Session AList FamilyFrame List

variable {items packed : List DaemonSessionEntity} {sequence : ℕ}

abbrev Fits (items : List DaemonSessionEntity) : Prop :=
  (snapshotChunk 0 items).encodedLen ≤ sessionChunkMaxBytes

variable (parseTraits : String → Option (List String)) (projection : SessionProjection)

end BotsterHub.Maintenance
