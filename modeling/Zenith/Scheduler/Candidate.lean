import Zenith.Lib.Tables
import Zenith.Lib.Text
import Zenith.Quota.Windows

/-!
# Runtime candidates

A candidate is one API source binding or one OAuth account that requests can be routed to. This
module models `scheduler/candidate.rs`, `scheduler/capacity.rs`, `scheduler/cooldown.rs` and
`catalog/rules.rs`: who is configured for a model, who is visible, who is cooling down, and which
scope a probe after an expired cooldown would have (`halfOpenScope`).

`CandidateTable` is the scheduler's `candidates` map. It carries the fact that a candidate is filed
under its own id, which every writer of the map keeps.
-/

namespace Zenith.Scheduler

open Std Zenith.Text Zenith.Tables Zenith.Quota

/-! ## Model rules -/

/-- The wire protocol a candidate speaks. -/
inductive WireApi
  | responses
  | chatCompletions
  | messages
  | gemini
deriving DecidableEq, Repr

/-- Allow and exclude patterns for model ids. An empty allow set allows every model. -/
structure ModelRules where
  allowed : Finset String := ∅
  excluded : Finset String := ∅
deriving DecidableEq

/-- One rule against one model: `*` is any model, a trailing `*` makes the rule a leading part. -/
def ruleMatches (rule model : String) : Bool :=
  let rule := trim rule
  if rule = "*" then true
  else
    match stripSuffixChar rule '*' with
    | none => eqIgnoreAsciiCase rule model
    | some lead =>
      (bytePrefix? model.toList lead.utf8ByteSize).any fun value =>
        eqIgnoreAsciiCase (String.ofList value) lead

def ModelRules.allows (rules : ModelRules) (model : String) : Bool :=
  !decide (∃ rule ∈ rules.excluded, ruleMatches rule model = true) &&
    (decide (rules.allowed = ∅) || decide (∃ rule ∈ rules.allowed, ruleMatches rule model = true))

/-! ## Kinds, health and quota -/

inductive CandidateKind
  | apiSource
  | oauthAccount
deriving DecidableEq, Repr

inductive CandidateHealth
  | unknown
  | healthy
  | degraded
  | unhealthy
  | reauthRequired
  | checkpoint
  | captcha
  | blocked
  | expired
deriving DecidableEq, Repr

def CandidateHealth.isEligible : CandidateHealth → Bool
  | .unknown | .healthy | .degraded => true
  | _ => false

/-- The routing view of a quota; `available` carries the remaining basis points. -/
inductive CandidateQuota
  | unknown
  | available (remaining : Nat)
  | exhausted
  | stale
deriving DecidableEq, Repr

def CandidateQuota.isEligible : CandidateQuota → Bool
  | .unknown => true
  | .available remaining => decide (1 ≤ remaining)
  | .exhausted | .stale => false

/-- Any available quota is preferred to any other state; the other states are not ordered. -/
def CandidateQuota.comparePreference : CandidateQuota → CandidateQuota → Ordering
  | .available left, .available right => compare left right
  | .available _, _ => .gt
  | _, .available _ => .lt
  | _, _ => .eq

/-- `CandidateQuota::from_snapshot`. An explicit provider limit wins over staleness. -/
def CandidateQuota.fromSnapshot (quota : QuotaSnapshot) (nowMs staleAfterMs : Nat) :
    CandidateQuota :=
  if quota.limitReached then .exhausted
  else if quota.updatedAtMs.any fun updatedAt => decide (staleAfterMs < nowMs - updatedAt) then
    .stale
  else
    match (quota.windows.filterMap (·.availableBasisPoints)).min? with
    | some 0 => .exhausted
    | some remaining => .available remaining
    | none => .unknown

/-! ## Cooldowns -/

/-- Why a cooldown was set. -/
inductive CooldownReason
  | transient
  | rateLimit
  | mandatory
deriving DecidableEq, Repr

/-- A cooldown filed under `scope` concerns requests for `model`. -/
def appliesTo (scope model : String) : Bool :=
  decide (scope = "*") || eqIgnoreAsciiCase scope model

/-- The latest end of the cooldowns that are active for `model`. -/
def activeRetryAt (cooldowns : Table String Nat) (model : String) (nowMs : Nat) : Option Nat :=
  ((cooldowns.toList.filter fun e => decide (nowMs < e.2) && appliesTo e.1 model).map Prod.snd).max?

def hasExpiredCooldown (cooldowns : Table String Nat) (model : String) (nowMs : Nat) : Bool :=
  cooldowns.toList.any fun e => decide (e.2 ≤ nowMs) && appliesTo e.1 model

variable {cooldowns : Table String Nat} {model : String}

theorem activeRetryAt_eq_none {nowMs : Nat} :
    activeRetryAt cooldowns model nowMs = none ↔
      ∀ (scope : String) (retryAt : Nat), cooldowns[scope]? = some retryAt →
        appliesTo scope model = true → retryAt ≤ nowMs := by
  simp only [activeRetryAt, List.max?_eq_none_iff, List.map_eq_nil_iff, List.filter_eq_nil_iff,
    Bool.and_eq_true, decide_eq_true_eq, not_and, Prod.forall,
    ExtTreeMap.mem_toList_iff_getElem?_eq_some]
  constructor
  · intro h scope retryAt hget happ
    exact Nat.not_lt.mp fun hlt => h scope retryAt hget hlt happ
  · intro h scope retryAt hget hlt happ
    exact absurd (h scope retryAt hget happ) (Nat.not_le.mpr hlt)

/-- The reported retry time is the end of a cooldown that is active now. -/
theorem activeRetryAt_mem {nowMs retryAt : Nat}
    (h : activeRetryAt cooldowns model nowMs = some retryAt) :
    ∃ scope : String, cooldowns[scope]? = some retryAt ∧ appliesTo scope model = true ∧
      nowMs < retryAt := by
  have hmem := List.max?_mem h
  simp only [List.mem_map, List.mem_filter, Bool.and_eq_true, decide_eq_true_eq, Prod.exists,
    exists_eq_right, ExtTreeMap.mem_toList_iff_getElem?_eq_some] at hmem
  obtain ⟨scope, hget, hlt, happ⟩ := hmem
  exact ⟨scope, hget, happ, hlt⟩

/-- An active cooldown stays active until the reported retry time. -/
theorem activeRetryAt_isSome_of_lt
    {nowMs later retryAt : Nat} (h : activeRetryAt cooldowns model nowMs = some retryAt)
    (hlt : later < retryAt) : activeRetryAt cooldowns model later ≠ none := by
  obtain ⟨scope, hget, happ, _⟩ := activeRetryAt_mem h
  intro hnone
  have := activeRetryAt_eq_none.mp hnone scope retryAt hget happ
  omega

/-! ## Candidates -/

/-- One routable source binding or account. -/
structure RuntimeCandidate where
  id : String
  kind : CandidateKind
  sourceId : String
  accountId : Option String := none
  protocol : WireApi := .responses
  enabled : Bool := true
  draining : Bool := false
  priority : Int := 0
  weight : Nat := 1
  models : Finset String := ∅
  modelRules : ModelRules := {}
  health : CandidateHealth := .unknown
  quota : CandidateQuota := .unknown
  quotaUpdatedAtMs : Option Nat := none
  quotaResetAtMs : Option Nat := none
  cooldowns : Table String Nat := ∅
  lastUsedAt : Option Nat := none
  consecutiveFailures : Nat := 0
  secretAvailable : Bool := true

/-- Which sources and accounts a gateway key may use. -/
structure CandidateScope where
  sourceIds : Option (Finset String) := none
  accountIds : Option (Finset String) := none
  modelRules : ModelRules := {}
deriving DecidableEq

def CandidateScope.includes (scope : CandidateScope) (candidate : RuntimeCandidate) : Bool :=
  if scope.sourceIds = none ∧ scope.accountIds = none then true
  else
    (scope.sourceIds.any fun ids => decide (candidate.sourceId ∈ ids)) ||
      candidate.accountId.any fun id => scope.accountIds.any fun ids => decide (id ∈ ids)

namespace RuntimeCandidate

def supportsModel (candidate : RuntimeCandidate) (model : String) : Bool :=
  decide (∃ candidateModel ∈ candidate.models, eqIgnoreAsciiCase candidateModel model = true)

def isConfigured (candidate : RuntimeCandidate) (model : String) (allowedProtocols : List WireApi)
    (scope : CandidateScope) : Bool :=
  candidate.enabled && !candidate.draining && candidate.secretAvailable &&
    allowedProtocols.contains candidate.protocol && candidate.supportsModel model &&
    candidate.modelRules.allows model && scope.includes candidate && scope.modelRules.allows model

def isCatalogVisible (candidate : RuntimeCandidate) (model : String)
    (allowedProtocols : List WireApi) (scope : CandidateScope) : Bool :=
  candidate.isConfigured model allowedProtocols scope && candidate.health.isEligible

/-- A stale quota hides an API source but leaves an account probeable. -/
def isVisible (candidate : RuntimeCandidate) (model : String) (allowedProtocols : List WireApi)
    (scope : CandidateScope) : Bool :=
  candidate.isCatalogVisible model allowedProtocols scope &&
    (candidate.quota.isEligible ||
      (decide (candidate.kind = .oauthAccount) && decide (candidate.quota = .stale)))

def isEligible (candidate : RuntimeCandidate) (model : String) (allowedProtocols : List WireApi)
    (scope : CandidateScope) (nowMs : Nat) : Bool :=
  candidate.isVisible model allowedProtocols scope &&
    (activeRetryAt candidate.cooldowns model nowMs).isNone

def retryAtIfConfigured (candidate : RuntimeCandidate) (model : String)
    (allowedProtocols : List WireApi) (scope : CandidateScope) (nowMs : Nat) : Option Nat :=
  if candidate.isCatalogVisible model allowedProtocols scope then
    activeRetryAt candidate.cooldowns model nowMs
  else none

end RuntimeCandidate

/-- The scope under which a request for `model` would probe a candidate whose cooldown has
expired: `"*"` when the global cooldown has, else the lower-cased model. -/
def halfOpenScope (candidate : RuntimeCandidate) (model : String) (nowMs : Nat) : Option String :=
  ((candidate.cooldowns["*"]?.filter fun retryAtMs => decide (retryAtMs ≤ nowMs)).map
      fun _ => "*").or
    (if hasExpiredCooldown candidate.cooldowns model nowMs then some (asciiLower model) else none)

/-- A probe's scope is the wildcard or the lower-cased model, which is what a release of the same
lease erases. -/
theorem halfOpenScope_eq {candidate : RuntimeCandidate} {model scope : String} {nowMs : Nat}
    (h : halfOpenScope candidate model nowMs = some scope) :
    scope = "*" ∨ scope = asciiLower model := by
  simp only [halfOpenScope, Option.or_eq_some_iff, Option.map_eq_some_iff] at h
  rcases h with ⟨_, _, rfl⟩ | ⟨_, h⟩
  · exact .inl rfl
  · split at h
    · exact .inr (Option.some.inj h).symm
    · cases h

/-! ## The candidate table -/

/-- The scheduler's `candidates` map: each candidate is filed under its own id. -/
structure CandidateTable where
  entries : Table String RuntimeCandidate
  keyed : ∀ (id : String) (candidate : RuntimeCandidate),
    entries[id]? = some candidate → candidate.id = id

namespace CandidateTable

def empty : CandidateTable := ⟨∅, by simp⟩

def get? (t : CandidateTable) (id : String) : Option RuntimeCandidate := t.entries[id]?

def contains (t : CandidateTable) (id : String) : Bool := (t.get? id).isSome

/-- The candidates in id order. -/
def values (t : CandidateTable) : List RuntimeCandidate := valuesOf t.entries

def insert (t : CandidateTable) (candidate : RuntimeCandidate) : CandidateTable where
  entries := t.entries.insert candidate.id candidate
  keyed := by
    intro id c h
    simp only [ExtTreeMap.getElem?_insert, Std.compare_eq_iff_eq] at h
    split at h
    · next he => rw [← Option.some.inj h, he]
    · exact t.keyed id c h

/-- `get_mut` followed by an update that leaves the id alone. -/
def modify (t : CandidateTable) (id : String) (f : RuntimeCandidate → RuntimeCandidate)
    (hf : ∀ c, (f c).id = c.id := by intros; rfl) : CandidateTable where
  entries := t.entries.modify id f
  keyed := by
    intro i c h
    simp only [ExtTreeMap.getElem?_modify, Std.compare_eq_iff_eq] at h
    split at h
    · next he =>
      obtain ⟨c', hc', rfl⟩ := Option.map_eq_some_iff.mp h
      rw [hf, t.keyed id c' hc', he]
    · exact t.keyed i c h

def erase (t : CandidateTable) (id : String) : CandidateTable where
  entries := t.entries.erase id
  keyed := by
    intro i c h
    simp only [ExtTreeMap.getElem?_erase, Std.compare_eq_iff_eq] at h
    split at h
    · cases h
    · exact t.keyed i c h

variable {t : CandidateTable}

theorem get?_id {id : String} {candidate : RuntimeCandidate}
    (h : t.get? id = some candidate) : candidate.id = id :=
  t.keyed id candidate h

@[simp] theorem get?_empty (id : String) : empty.get? id = none := by simp [get?, empty]

@[simp] theorem get?_insert (t : CandidateTable) (candidate : RuntimeCandidate) (id : String) :
    (t.insert candidate).get? id = if candidate.id = id then some candidate else t.get? id := by
  simp [get?, insert, ExtTreeMap.getElem?_insert]

@[simp] theorem get?_modify (t : CandidateTable) (id i : String)
    (f : RuntimeCandidate → RuntimeCandidate) (hf : ∀ c, (f c).id = c.id) :
    (t.modify id f hf).get? i = if id = i then (t.get? id).map f else t.get? i := by
  simp [get?, modify, ExtTreeMap.getElem?_modify]

/-- What an update leaves of the updated candidate, it leaves of every candidate. -/
theorem map_get?_modify {β : Type} (t : CandidateTable) (id i : String)
    {f : RuntimeCandidate → RuntimeCandidate} {hf : ∀ c, (f c).id = c.id}
    (view : RuntimeCandidate → β) (hview : ∀ c, view (f c) = view c) :
    ((t.modify id f hf).get? i).map view = (t.get? i).map view := by
  rw [get?_modify]
  split
  · next h =>
    subst h
    rw [Option.map_map]
    exact congrArg (Option.map · _) (funext hview)
  · rfl

@[simp] theorem get?_erase (t : CandidateTable) (id i : String) :
    (t.erase id).get? i = if id = i then none else t.get? i := by
  simp [get?, erase, ExtTreeMap.getElem?_erase]

@[simp] theorem contains_iff {id : String} :
    t.contains id = true ↔ ∃ candidate, t.get? id = some candidate := by
  rw [contains, Option.isSome_iff_exists]

theorem mem_values {candidate : RuntimeCandidate} :
    candidate ∈ t.values ↔ t.get? candidate.id = some candidate := by
  rw [values, mem_valuesOf]
  constructor
  · rintro ⟨id, h⟩
    rw [t.keyed id candidate h]
    exact h
  · intro h
    exact ⟨_, h⟩

/-- Distinct stored candidates have distinct ids. -/
theorem nodup_values (t : CandidateTable) : (t.values.map RuntimeCandidate.id).Nodup := by
  have hkeys : t.values.map RuntimeCandidate.id = t.entries.toList.map Prod.fst := by
    rw [values, valuesOf, List.map_map]
    refine List.map_congr_left fun e he => ?_
    exact t.keyed e.1 e.2 (ExtTreeMap.mem_toList_iff_getElem?_eq_some.mp he)
  rw [hkeys]
  exact nodup_keys_toList t.entries

end CandidateTable

end Zenith.Scheduler
