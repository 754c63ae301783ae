import LlmProxy.Cluster.Stamp

/-! # The provider row

`app/models/db_provider.py`, the columns the routing, the sync and the admin code read, and
what the ORM adds to every `UPDATE` of a row: the column's `onupdate` on `updated_at`, and
the `before_update` listener of `app/models/_user_edit_stamp.py`, which stamps
`last_user_edit_at` when a column that is not background machinery changed and the writer
did not stamp the row itself. The values of the `extra_config` column are JSON texts.
-/

namespace LlmProxy.Providers

open LlmProxy.Cluster (Stamp EditStamp serverNow)

structure Provider where
  id : String
  name : String
  providerType : String
  apiKey : Option String := none
  baseUrl : Option String := none
  defaultModel : Option String := none
  priority : Int := 10
  enabled : Bool := true
  timeoutSec : Option Int := some 30
  excludeFromToolRequests : Bool := false
  holdDownSec : Option Int := none
  failureThreshold : Option Int := none
  dailyBudgetUsd : Option Rat := none
  extraConfig : List (String × String) := []
  oauthRefreshToken : Option String := none
  oauthExpiresAt : Option Int := none
  oauthAccountStrategy : Option String := none
  createdAt : Stamp := 0
  updatedAt : Option Stamp := none
  lastUserEditAt : Option EditStamp := none
  deletedAt : Option Stamp := none
  ownedByKeyId : Option String := none
  anthropicOrgUuid : Option String := none
  anthropicSessionCapturedAt : Option Int := none
  codexUsageEndpointUrl : Option String := none
  codexSessionCapturedAt : Option Int := none
  manualOverrideUntil : Option Stamp := none
  manualOverrideSetBy : Option String := none
  manualOverrideSetAt : Option Stamp := none
  manualOverrideReason : Option String := none
  autoSkipUntil : Option Stamp := none
  autoSkipReason : Option String := none
  ownerCompany : Option String := none
  deriving DecidableEq

def jsonTruthy (text : String) : Bool :=
  !(["false", "null", "0", "0.0", "\"\"", "[]", "\x7b\x7d"].contains text)

def Provider.deleted (p : Provider) : Bool := p.deletedAt.isSome

/-- The row with the listener's background columns (`_BACKGROUND_COLUMNS`) blanked: two
versions that agree here differ in nothing an operator edits. -/
def Provider.userColumns (p : Provider) : Provider :=
  { p with
    updatedAt := none
    createdAt := 0
    lastUserEditAt := none
    apiKey := none
    oauthRefreshToken := none
    oauthExpiresAt := none
    deletedAt := none }

/-- The clock of one flush: the database's and `time.time()`. -/
structure FlushClock where
  db : Stamp
  unix : EditStamp
  deriving DecidableEq, Repr

/-- What an `UPDATE` of `old` to `new` leaves in the database. -/
def flush (clk : FlushClock) (old new : Provider) : Provider :=
  if new = old then old
  else
    { new with
      updatedAt :=
        if new.updatedAt = old.updatedAt then some (serverNow clk.db) else new.updatedAt
      lastUserEditAt :=
        if new.lastUserEditAt ≠ old.lastUserEditAt then new.lastUserEditAt
        else if new.userColumns ≠ old.userColumns then some clk.unix
        else new.lastUserEditAt }

theorem flush_cases (clk : FlushClock) (old new : Provider) :
    ∃ u e, flush clk old new = { new with updatedAt := u, lastUserEditAt := e } := by
  unfold flush
  split
  · next h => exact ⟨new.updatedAt, new.lastUserEditAt, by rw [← h]⟩
  · exact ⟨_, _, rfl⟩

@[simp] theorem flush_id (clk : FlushClock) (old new : Provider) :
    (flush clk old new).id = new.id := by
  obtain ⟨u, e, h⟩ := flush_cases clk old new
  rw [h]

@[simp] theorem flush_enabled (clk : FlushClock) (old new : Provider) :
    (flush clk old new).enabled = new.enabled := by
  obtain ⟨u, e, h⟩ := flush_cases clk old new
  rw [h]

@[simp] theorem flush_deletedAt (clk : FlushClock) (old new : Provider) :
    (flush clk old new).deletedAt = new.deletedAt := by
  obtain ⟨u, e, h⟩ := flush_cases clk old new
  rw [h]

@[simp] theorem flush_oauthRefreshToken (clk : FlushClock) (old new : Provider) :
    (flush clk old new).oauthRefreshToken = new.oauthRefreshToken := by
  obtain ⟨u, e, h⟩ := flush_cases clk old new
  rw [h]

end LlmProxy.Providers
