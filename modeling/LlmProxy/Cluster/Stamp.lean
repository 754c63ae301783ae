/-! # Stamps and payload fields

What every section of the cluster sync shares: the two kinds of stamp a row carries, and
the membership test through which a peer row's fields reach the local row.
-/

namespace LlmProxy.Cluster

/-- A UTC instant in microseconds, as a `DateTime` column holds it. -/
abbrev Stamp := Int

/-- `last_user_edit_at`, a Unix time. It is only ever compared with its own kind. -/
abbrev EditStamp := Int

/-- `CURRENT_TIMESTAMP`: the clock cut to whole seconds. -/
def serverNow (now : Stamp) : Stamp := now - now % 1000000

/-- `if "field" in data: row.field = data["field"]`: a key the peer left out keeps the
local value. -/
def fieldOr {α : Type} (sent : Option α) (existing : α) : α := sent.getD existing

/-- `data.get("field")` on a nullable column: a missing key reads as `None`. -/
def fieldGet {α : Type} (sent : Option (Option α)) : Option α := sent.getD none

end LlmProxy.Cluster
