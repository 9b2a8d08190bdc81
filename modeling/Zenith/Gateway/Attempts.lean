import Mathlib
import Zenith.Lib.Json
import Zenith.Lib.Text
import Zenith.Protocol.Contracts
import Zenith.Quota.Windows

/-!
# Attempts and repairs

What the retry loop of the gateway asks about a failed attempt, from `gateway/errors/failure.rs`, and the
ways in which it changes a request before it tries again: the three item-id repairs of
`protocol/adapter/contracts.rs` and the removal of encrypted reasoning of
`gateway/request/normalization.rs`.

A repair gives no request when it found nothing to repair.
-/

namespace Zenith.Gateway

open Zenith.Protocol Zenith.Quota Zenith.Text

/-! ## Failures -/

/-- A failed attempt: the status that the client would see, and the category of the error. -/
structure AttemptFailure where
  status : Nat
  category : String
deriving DecidableEq, Repr

def AttemptFailure.body : AttemptFailure := ⟨502, "upstream_error"⟩

def AttemptFailure.noCandidate : AttemptFailure := ⟨503, "no_eligible_source"⟩

def maxResponseOwnerCandidates : Nat := 8

def retryableStatus (status : Nat) (hasPreviousResponseId : Bool) : Bool :=
  status ∈ [401, 402, 403, 408, 409, 429] || (500 ≤ status && status < 600) ||
    (status = 404 && !hasPreviousResponseId)

def failureCategoryRequiresCooldown (category : String) : Bool :=
  category ∉ ["client_cancelled", "response_affinity_miss", "response_incomplete", "upstream_cancelled",
    "upstream_previous_response_not_found", "upstream_tool_call_mismatch", "upstream_context_too_large",
    "upstream_encrypted_content_invalid", "upstream_instructions_required", "upstream_content_policy",
    "upstream_payload_too_large", "upstream_unsupported_request", "upstream_websocket_unsupported",
    "upstream_invalid_request"]

def failureCategoryIsRequestTerminal (category : String) : Bool :=
  category ∈ ["upstream_tool_call_mismatch", "upstream_context_too_large",
    "upstream_encrypted_content_invalid", "upstream_instructions_required", "upstream_content_policy",
    "upstream_payload_too_large", "upstream_unsupported_request", "upstream_websocket_unsupported",
    "upstream_invalid_request"]

def retryableFailure (status : Nat) (category : String) (hasPreviousResponseId : Bool) : Bool :=
  if !failureCategoryRequiresCooldown category then false
  else if category = "upstream_candidate_rejected" then !hasPreviousResponseId
  else
    retryableStatus status hasPreviousResponseId ||
      category ∈ ["upstream_unauthorized", "upstream_account_disabled", "upstream_usage_not_included",
        "upstream_quota_exhausted", "upstream_region_unsupported", "upstream_model_not_found",
        "upstream_model_unsupported", "upstream_model_capacity", "upstream_candidate_rejected",
        "upstream_websocket_connection_limit", "upstream_rate_limited", "upstream_refresh_token_reused",
        "upstream_request_timeout", "upstream_overloaded", "upstream_edge_challenge",
        "upstream_server_error", "upstream_bad_gateway", "upstream_unavailable",
        "upstream_gateway_timeout"]

def recoverableResponseAffinityMiss (status : Nat) (hasPreviousResponseId previousResponseNotFound : Bool) :
    Bool :=
  hasPreviousResponseId && previousResponseNotFound && status ∈ [400, 404, 409]

def retryCandidateLimit (maxRetryCandidates : Nat) (ownerRecoveryConfirmed : Bool) : Nat :=
  if ownerRecoveryConfirmed then maxResponseOwnerCandidates else maxRetryCandidates

theorem retryCandidateLimit_le (maxRetryCandidates : Nat) (ownerRecoveryConfirmed : Bool) :
    retryCandidateLimit maxRetryCandidates ownerRecoveryConfirmed ≤ max maxRetryCandidates 8 := by
  unfold retryCandidateLimit
  split
  · exact Nat.le_max_right _ _
  · exact Nat.le_max_left _ _

/-! ## Repairs of a request -/

/-- The request with its input items changed, if any of them was. `repair` gives the fields of a changed
item. -/
def repairItems (repair : Json.Fields → Option Json.Fields) (request : Json) : Option Json := do
  let fields ← request.asObject
  let items ← (fields.get "input").bind Json.asArray
  if items.any fun item => (item.asObject.bind repair).isSome then
    let items := items.map fun item => ((item.asObject.bind repair).map Json.object).getD item
    return .object (fields.insert "input" (.array items))
  else none

def repairCallPrefixedFunctionItemIds : Json → Option Json :=
  repairItems fun item => do
    let id ← (item.get "id").bind Json.asStr
    if (item.get "type").bind Json.asStr ≠ some "function_call" ∨ startsWith id "fc_" ∨ id = "" then none
    else return item.insert "id" (.string ("fc_" ++ id))

def repairCustomToolItemIds : Json → Option Json :=
  repairItems fun item => do
    let id ← (item.get "id").bind Json.asStr
    if (item.get "type").bind Json.asStr ≠ some "custom_tool_call" ∨ customToolItemId id = id then none
    else return item.insert "id" (.string (customToolItemId id))

def removeItemPrefixedMessageIds : Json → Option Json :=
  repairItems fun item => do
    let id ← (item.get "id").bind Json.asStr
    let isMessage := (item.get "type").bind Json.asStr = some "message" ∨
      ((item.get "role").bind Json.asStr).any fun role =>
        role ∈ ["user", "assistant", "developer", "system"]
    if isMessage ∧ startsWith id "item_" then return item.remove "id" else none

def hasEncryptedContent (object : Json.Fields) : Bool :=
  ((object.get "encrypted_content").bind Json.asStr).any fun content => trim content ≠ ""

def isEncryptedCompaction (value : Json) : Bool :=
  value.asObject.any fun object =>
    ((object.get "type").bind Json.asStr).any (fun kind => kind ∈ ["compaction", "compaction_summary"]) &&
      hasEncryptedContent object

def isEncryptedReasoning (object : Json.Fields) : Bool :=
  (object.get "type").bind Json.asStr = some "reasoning" && hasEncryptedContent object

/-- The fields of an object without the content that cannot be decrypted. -/
def withoutEncryptedContent (object : Json.Fields) : Json.Fields :=
  if isEncryptedReasoning object then (object.remove "encrypted_content").remove "id" else object

mutual

/-- `strip_encrypted_reasoning`: the value, and whether it changed. -/
def stripEncryptedReasoning : Json → Json × Bool
  | .array values =>
    let (values, changed) := stripItems values
    (.array values, changed)
  | .object fields =>
    let (stripped, changed) := stripFields fields
    (.object (withoutEncryptedContent stripped), isEncryptedReasoning fields || changed)
  | value => (value, false)

def stripItems : List Json → List Json × Bool
  | [] => ([], false)
  | value :: values =>
    let (rest, changed) := stripItems values
    if isEncryptedCompaction value then (rest, true)
    else
      let (value, here) := stripEncryptedReasoning value
      (value :: rest, here || changed)

def stripFields : List (String × Json) → List (String × Json) × Bool
  | [] => ([], false)
  | (key, value) :: fields =>
    let (rest, changed) := stripFields fields
    let (value, here) := stripEncryptedReasoning value
    ((key, value) :: rest, here || changed)

end

mutual

def containsToolCallOutput : Json → Bool
  | .array items => anyToolCallOutput items
  | .object fields =>
    ((Json.Fields.get fields "type").bind Json.asStr).any (fun kind =>
      kind = "tool_search_output" || endsWith kind "_call_output") || fieldsToolCallOutput fields
  | _ => false

def anyToolCallOutput : List Json → Bool
  | [] => false
  | item :: items => containsToolCallOutput item || anyToolCallOutput items

def fieldsToolCallOutput : List (String × Json) → Bool
  | [] => false
  | (_, value) :: fields => containsToolCallOutput value || fieldsToolCallOutput fields

end

/-- `try_recover_encrypted_content`: once for a request. -/
def tryRecoverEncryptedContent (request : Json) (attempted : Bool) : Option Json :=
  if attempted then none
  else
    let (recovered, changed) := stripEncryptedReasoning request
    if changed then some recovered else none

/-! ## The service tier -/

inductive ServiceTierOwner
  | client
  | pool
deriving DecidableEq, Repr

/-- `apply_default_service_tier_if_missing`. -/
def applyDefaultServiceTierIfMissing (request : Json.Fields) (default : DefaultServiceTier) : Json.Fields :=
  if default ≠ .fast ∨ (request.get "service_tier").isSome then request
  else request.insert "service_tier" (.string "priority")

/-- `ServiceTierPolicy::prepare_for_candidate`. -/
def prepareForCandidate (owner : ServiceTierOwner) (request : Json) (default : DefaultServiceTier)
    (messages : Bool) : Json :=
  match request, owner with
  | .object fields, .pool =>
    let fields := Json.Fields.remove fields "service_tier"
    .object (if messages then fields else applyDefaultServiceTierIfMissing fields default)
  | request, _ => request

end Zenith.Gateway
