import Mathlib
import Zenith.Protocol.Messages

/-!
# Token accounting

How a usage event gets its token counters, from `gateway/response.rs`: where a response keeps its
usage (`findUsage`), and how the counters of the different dialects are read (`applyUsage`).

A message of Anthropic is accounted in two ways. A native response is read as it is; a response of
the Messages bridge is first rewritten by `responsesUsage`. `sameTokens_iff` says when the two
agree: Anthropic does not count cached tokens as input tokens, and only the first way adds them.
-/

namespace Zenith.Gateway

open Zenith.Protocol Zenith.Tables Zenith.Text

inductive WireApi
  | responses
  | chatCompletions
  | messages
  | gemini
deriving DecidableEq, Repr

inductive CacheWriteTtl
  | provider
  | fiveMinutes
  | oneHour
deriving DecidableEq, Repr

def CacheWriteTtl.fromAnthropicTtl (value : String) : Option CacheWriteTtl :=
  match trim value with
  | "5m" => some .fiveMinutes
  | "1h" => some .oneHour
  | _ => none

/-- The record of one attempt. -/
structure UsageEvent where
  requestId : String
  accountId : Option String := none
  requestedModel : Option String := none
  wireApi : WireApi
  appliedServiceTier : Option String := none
  success : Bool
  httpStatus : Nat
  errorCategory : Option String := none
  latencyMs : Nat := 0
  ttftMs : Option Nat := none
  generationMs : Option Nat := none
  inputTokens : Option Nat := none
  cachedInputTokens : Option Nat := none
  cacheWriteInputTokens : Option Nat := none
  cacheWriteTtl : Option CacheWriteTtl := none
  reasoningTokens : Option Nat := none
  outputTokens : Option Nat := none
  totalTokens : Option Nat := none
deriving DecidableEq, Repr

/-! ## Where the usage is -/

/-- The field of a field. -/
def getIn (value : Json) (key inner : String) : Option Json :=
  (value.get key).bind fun details => details.get inner

def findUsage (value : Json) : Option Json :=
  ((value.get "usage").or (value.get "usageMetadata")).or <|
    (value.get "response").bind fun response =>
      (response.get "usage").or (getIn response "response" "usage")

def normalizeObservedServiceTier (value : String) : Option String :=
  let value := trim value
  if value = "" ∨ 48 < value.utf8ByteSize ∨
      !value.toList.all fun c => c.isAlphanum || c = '_' || c = '-' then none
  else some (asciiLower value)

/-- The innermost service tier of a response, which may be nested twice. -/
def responseServiceTier (value : Json) : Option String :=
  let inner := value.get "response"
  let innermost := inner.bind fun value => value.get "response"
  ([innermost, inner, some value].findSome? fun level =>
    (level.bind fun value => value.get "service_tier").bind Json.asStr).bind
      normalizeObservedServiceTier

/-! ## How it is read -/

def cacheWriteTtl (usage : Json) : Option CacheWriteTtl :=
  ((((getIn usage "input_tokens_details" "cache_write_ttl").or
    (usage.get "cache_write_ttl")).bind Json.asStr).bind CacheWriteTtl.fromAnthropicTtl).or <|
  (usage.get "cache_creation").bind fun creation =>
    if (usageCounter (some creation) "ephemeral_1h_input_tokens").any (0 < ·) then some .oneHour
    else if (usageCounter (some creation) "ephemeral_5m_input_tokens").any (0 < ·) then
      some .fiveMinutes
    else none

/-- The input tokens: a usage with cache counters of Anthropic does not count them yet. -/
def inputTokensOf (reported cacheRead cacheWrite : Option Nat) : Option Nat :=
  if cacheRead.isSome || cacheWrite.isSome then
    some (satAdd 64 (satAdd 64 (reported.getD 0) (cacheRead.getD 0)) (cacheWrite.getD 0))
  else reported

/-- The total, which is at least the sum of its parts. -/
def totalTokensOf (input output reported : Option Nat) : Option Nat :=
  match input, output with
  | some input, some output =>
    some (max (reported.getD (satAdd 64 input output)) (satAdd 64 input output))
  | _, _ => reported

def applyUsage (event : UsageEvent) (usage : Json) : UsageEvent :=
  let gemini := (usage.get "usageMetadata").getD usage
  let inputTokens := inputTokensOf
    ((((usage.get "input_tokens").or (usage.get "prompt_tokens")).or
      (gemini.get "promptTokenCount")).bind Json.asU64)
    ((usage.get "cache_read_input_tokens").bind Json.asU64)
    ((usage.get "cache_creation_input_tokens").bind Json.asU64)
  let outputTokens := (((usage.get "output_tokens").or (usage.get "completion_tokens")).or
    (gemini.get "candidatesTokenCount")).bind Json.asU64
  let cachedInputTokens := ((((((getIn usage "input_tokens_details" "cached_tokens").or
    (getIn usage "prompt_tokens_details" "cached_tokens")).or
    (usage.get "cached_tokens")).or
    (usage.get "cache_read_input_tokens")).or
    (gemini.get "cachedContentTokenCount")).bind Json.asU64).map fun cached =>
      min cached (inputTokens.getD cached)
  let cacheWriteInputTokens := (((((getIn usage "input_tokens_details" "cache_write_tokens").or
    (getIn usage "prompt_tokens_details" "cache_write_tokens")).or
    (usage.get "cache_write_tokens")).or
    (usage.get "cache_creation_input_tokens")).bind Json.asU64).map fun written =>
      min written (inputTokens.getD written - cachedInputTokens.getD 0)
  { event with
    inputTokens
    cachedInputTokens
    cacheWriteInputTokens
    cacheWriteTtl := (cacheWriteInputTokens.filter fun written => 0 < written).bind fun _ =>
      (cacheWriteTtl usage).or event.cacheWriteTtl
    reasoningTokens := (((((usage.get "reasoning_tokens").or
      (getIn usage "output_tokens_details" "reasoning_tokens")).or
      (getIn usage "completion_tokens_details" "reasoning_tokens")).or
      (gemini.get "thoughtsTokenCount")).bind Json.asU64).map fun reasoning =>
        min reasoning (outputTokens.getD reasoning)
    outputTokens
    totalTokens := totalTokensOf inputTokens outputTokens
      (((usage.get "total_tokens").or (gemini.get "totalTokenCount")).bind Json.asU64) }

def populateTokens (serde : Json.Serde) (event : UsageEvent) (body : List UInt8) : UsageEvent :=
  match serde.fromSlice body with
  | none => event
  | some body =>
    let event := { event with appliedServiceTier := responseServiceTier body }
    match findUsage body with
    | none => event
    | some usage => applyUsage event usage

/-! ## The dialect of Anthropic -/

/-- The keys that `applyUsage` reads in the other dialects. -/
def foreignKeys : List String :=
  ["prompt_tokens", "usageMetadata", "promptTokenCount", "completion_tokens",
    "candidatesTokenCount", "input_tokens_details", "prompt_tokens_details", "cached_tokens",
    "cachedContentTokenCount", "cache_write_tokens", "total_tokens", "totalTokenCount"]

/-- A usage object of Anthropic: it has none of the keys of the other dialects. -/
def AnthropicUsage (usage : Json) : Prop := ∀ key ∈ foreignKeys, usage.get key = none

instance (usage : Json) : Decidable (AnthropicUsage usage) :=
  inferInstanceAs (Decidable (∀ key ∈ foreignKeys, usage.get key = none))

/-- The token counters that two events must agree on. -/
def tokens (event : UsageEvent) : List (Option Nat) :=
  [event.inputTokens, event.cachedInputTokens, event.cacheWriteInputTokens, event.outputTokens,
    event.totalTokens]

/-- The counters of an event, from the counters that the upstream reports. -/
def tokensOf (input cacheRead cacheWrite output reported : Option Nat) : List (Option Nat) :=
  let cached := cacheRead.map fun cached => min cached (input.getD cached)
  [input, cached, cacheWrite.map fun written => min written (input.getD written - cached.getD 0),
    output, totalTokensOf input output reported]

theorem usageCounter_some (usage : Json) (key : String) :
    usageCounter (some usage) key = (usage.get key).bind Json.asU64 := rfl

/-- A native response: the cached tokens are added to the input. -/
theorem tokens_applyUsage {usage : Json} (h : AnthropicUsage usage) (event : UsageEvent) :
    tokens (applyUsage event usage) =
      tokensOf
        (inputTokensOf (usageCounter usage "input_tokens")
          (usageCounter usage "cache_read_input_tokens")
          (usageCounter usage "cache_creation_input_tokens"))
        (usageCounter usage "cache_read_input_tokens")
        (usageCounter usage "cache_creation_input_tokens")
        (usageCounter usage "output_tokens") none := by
  have hnone : ∀ key ∈ foreignKeys, usage.get key = none := h
  simp [foreignKeys] at hnone
  simp [tokens, tokensOf, applyUsage, getIn, usageCounter_some, hnone]

theorem usageCounter_lt {usage : Option Json} {key : String} {n : Nat}
    (h : usageCounter usage key = some n) : n < 2 ^ 64 := by
  obtain ⟨value, -, hvalue⟩ := Option.bind_eq_some_iff.mp h
  exact Json.asU64_lt hvalue

theorem getD_usageCounter_lt (usage : Option Json) (key : String) :
    (usageCounter usage key).getD 0 < 2 ^ 64 := by
  cases h : usageCounter usage key with
  | none => decide
  | some n => exact usageCounter_lt h

/-- The details of `responsesUsage`. -/
def usageDetails (usage : Option Json) : Json.Fields :=
  (usageCounter usage "cache_read_input_tokens").toList.map (fun n =>
    ("cached_tokens", Json.ofNat n)) ++
  (usageCounter usage "cache_creation_input_tokens").toList.map (fun n =>
    ("cache_write_tokens", Json.ofNat n)) ++
  (usage.bind cacheWriteTtlFromUsage).toList.map fun ttl => ("cache_write_ttl", Json.string ttl)

theorem get_responsesUsage (usage : Option Json) (key : String) :
    (responsesUsage usage).get key =
      if key = "input_tokens_details" ∧ usageDetails usage ≠ [] then
        some (.ofFields (usageDetails usage))
      else if key = "total_tokens" then
        some (.ofNat (satAdd 64 ((usageCounter usage "input_tokens").getD 0)
          ((usageCounter usage "output_tokens").getD 0)))
      else if key = "output_tokens" then some (.ofNat ((usageCounter usage "output_tokens").getD 0))
      else if key = "input_tokens" then some (.ofNat ((usageCounter usage "input_tokens").getD 0))
      else none := by
  show (Json.ofFields (_ ++ if usageDetails usage = [] then [] else
    [("input_tokens_details", .ofFields (usageDetails usage))])).get key = _
  rw [Json.get_ofFields]
  by_cases hdetails : usageDetails usage = []
  · simp [hdetails, Json.Fields.get_cons]
  · simp [hdetails, Json.Fields.get_cons]

theorem getIn_responsesUsage (usage : Option Json) (key : String) :
    getIn (responsesUsage usage) "input_tokens_details" key =
      Json.Fields.get (usageDetails usage).reverse key := by
  rw [getIn, get_responsesUsage]
  by_cases hdetails : usageDetails usage = []
  · simp [hdetails]
  · simp [hdetails]

theorem getIn_cachedTokens (usage : Option Json) :
    (getIn (responsesUsage usage) "input_tokens_details" "cached_tokens").bind Json.asU64 =
      usageCounter usage "cache_read_input_tokens" := by
  rw [getIn_responsesUsage, usageDetails]
  cases hread : usageCounter usage "cache_read_input_tokens" with
  | none =>
    cases usageCounter usage "cache_creation_input_tokens" <;>
      cases usage.bind cacheWriteTtlFromUsage <;> simp [Json.Fields.get_cons]
  | some n =>
    have hn := Json.asU64_ofNat (usageCounter_lt hread)
    cases usageCounter usage "cache_creation_input_tokens" <;>
      cases usage.bind cacheWriteTtlFromUsage <;> simp [Json.Fields.get_cons, hn]

theorem getIn_cacheWriteTokens (usage : Option Json) :
    (getIn (responsesUsage usage) "input_tokens_details" "cache_write_tokens").bind Json.asU64 =
      usageCounter usage "cache_creation_input_tokens" := by
  rw [getIn_responsesUsage, usageDetails]
  cases hwrite : usageCounter usage "cache_creation_input_tokens" with
  | none =>
    cases usageCounter usage "cache_read_input_tokens" <;>
      cases usage.bind cacheWriteTtlFromUsage <;> simp [Json.Fields.get_cons]
  | some n =>
    have hn := Json.asU64_ofNat (usageCounter_lt hwrite)
    cases usageCounter usage "cache_read_input_tokens" <;>
      cases usage.bind cacheWriteTtlFromUsage <;> simp [Json.Fields.get_cons, hn]

theorem getIn_cacheWriteTtl (usage : Option Json) :
    (getIn (responsesUsage usage) "input_tokens_details" "cache_write_ttl").bind Json.asStr =
      usage.bind cacheWriteTtlFromUsage := by
  rw [getIn_responsesUsage, usageDetails]
  cases usageCounter usage "cache_read_input_tokens" <;>
    cases usageCounter usage "cache_creation_input_tokens" <;>
    cases usage.bind cacheWriteTtlFromUsage <;> simp [Json.Fields.get_cons]

/-- What can be read off the usage of a response. -/
theorem responsesUsage_eq_iff (usage usage' : Json) :
    responsesUsage usage = responsesUsage usage' ↔
      (usageCounter usage "input_tokens").getD 0 = (usageCounter usage' "input_tokens").getD 0 ∧
      (usageCounter usage "output_tokens").getD 0 = (usageCounter usage' "output_tokens").getD 0 ∧
      usageCounter usage "cache_read_input_tokens" = usageCounter usage' "cache_read_input_tokens" ∧
      usageCounter usage "cache_creation_input_tokens" =
        usageCounter usage' "cache_creation_input_tokens" ∧
      cacheWriteTtlFromUsage usage = cacheWriteTtlFromUsage usage' := by
  constructor
  · intro h
    have hinput : ∀ usage : Json, ((responsesUsage usage).get "input_tokens").bind Json.asU64 =
        some ((usageCounter usage "input_tokens").getD 0) := by
      intro usage
      rw [get_responsesUsage]
      simp [Json.asU64_ofNat (getD_usageCounter_lt usage "input_tokens")]
    have houtput : ∀ usage : Json, ((responsesUsage usage).get "output_tokens").bind Json.asU64 =
        some ((usageCounter usage "output_tokens").getD 0) := by
      intro usage
      rw [get_responsesUsage]
      simp [Json.asU64_ofNat (getD_usageCounter_lt usage "output_tokens")]
    refine ⟨?_, ?_, ?_, ?_, ?_⟩
    · exact Option.some.inj (by rw [← hinput usage, ← hinput usage', h])
    · exact Option.some.inj (by rw [← houtput usage, ← houtput usage', h])
    · rw [← getIn_cachedTokens usage, ← getIn_cachedTokens usage', h]
    · rw [← getIn_cacheWriteTokens usage, ← getIn_cacheWriteTokens usage', h]
    · have hsame := getIn_cacheWriteTtl (some usage)
      rw [h, getIn_cacheWriteTtl] at hsame
      exact hsame.symm
  · rintro ⟨hinput, houtput, hread, hwrite, httl⟩
    simp only [responsesUsage, hinput, houtput, hread, hwrite, Option.bind_some, httl]

/-- A response of the bridge: the counters are those of Responses, and the cached tokens are taken
for a part of the input. -/
theorem tokens_applyUsage_responsesUsage (usage : Option Json) (event : UsageEvent) :
    tokens (applyUsage event (responsesUsage usage)) =
      tokensOf (some ((usageCounter usage "input_tokens").getD 0))
        (usageCounter usage "cache_read_input_tokens")
        (usageCounter usage "cache_creation_input_tokens")
        (some ((usageCounter usage "output_tokens").getD 0))
        (some (satAdd 64 ((usageCounter usage "input_tokens").getD 0)
          ((usageCounter usage "output_tokens").getD 0))) := by
  have hinput := Json.asU64_ofNat (getD_usageCounter_lt usage "input_tokens")
  have houtput := Json.asU64_ofNat (getD_usageCounter_lt usage "output_tokens")
  have htotal := Json.asU64_ofNat (satAdd_lt 64 ((usageCounter usage "input_tokens").getD 0)
    ((usageCounter usage "output_tokens").getD 0))
  have hcached := getIn_cachedTokens usage
  have hwritten := getIn_cacheWriteTokens usage
  have hprompt : ∀ key, getIn (responsesUsage usage) "prompt_tokens_details" key = none := by
    intro key
    simp [getIn, get_responsesUsage]
  simp only [tokens, tokensOf, applyUsage, get_responsesUsage, hprompt]
  simp [get_responsesUsage, hinput, houtput, htotal, hcached, hwritten, inputTokensOf,
    -Option.map_bind]

/-- Cached tokens add nothing to the input: there are none, or the input counter is full. -/
def NothingCached (usage : Json) : Prop :=
  ((usageCounter usage "cache_read_input_tokens").getD 0 = 0 ∧
    (usageCounter usage "cache_creation_input_tokens").getD 0 = 0) ∨
  (usageCounter usage "input_tokens").getD 0 = 2 ^ 64 - 1

/-- Some counter of the input is there. -/
def InputCounted (usage : Json) : Prop :=
  (usageCounter usage "input_tokens").isSome ∨
    (usageCounter usage "cache_read_input_tokens").isSome ∨
    (usageCounter usage "cache_creation_input_tokens").isSome

theorem satAdd_satAdd_eq_iff {a b c : Nat} (ha : a < 2 ^ 64) :
    satAdd 64 (satAdd 64 a b) c = a ↔ (b = 0 ∧ c = 0) ∨ a = 2 ^ 64 - 1 := by
  simp only [satAdd]
  omega

/-- The native input is the one of the bridge. -/
theorem inputTokensOf_eq_iff (usage : Json) :
    inputTokensOf (usageCounter usage "input_tokens")
        (usageCounter usage "cache_read_input_tokens")
        (usageCounter usage "cache_creation_input_tokens") =
      some ((usageCounter usage "input_tokens").getD 0) ↔
    InputCounted usage ∧ NothingCached usage := by
  have hlt := getD_usageCounter_lt usage "input_tokens"
  unfold inputTokensOf InputCounted NothingCached
  split
  next hcache =>
    rw [Option.some.injEq, satAdd_satAdd_eq_iff hlt]
    rw [Bool.or_eq_true] at hcache
    exact ⟨fun h => ⟨.inr hcache, h⟩, fun h => h.2⟩
  next hcache =>
    simp only [Bool.or_eq_true, not_or, Option.not_isSome_iff_eq_none] at hcache
    obtain ⟨hread, hwrite⟩ := hcache
    rw [hread, hwrite]
    cases usageCounter usage "input_tokens" <;> simp

theorem totalTokensOf_sum (input output : Nat) :
    totalTokensOf (some input) (some output) (some (satAdd 64 input output)) =
      totalTokensOf (some input) (some output) none := by
  simp [totalTokensOf]

/-- A native response is accounted like the response of the bridge exactly when the output and the
input are counted and cached tokens add nothing. -/
theorem sameTokens_iff {usage : Json} (h : AnthropicUsage usage) (event : UsageEvent) :
    tokens (applyUsage event usage) = tokens (applyUsage event (responsesUsage usage)) ↔
      (usageCounter usage "output_tokens").isSome ∧ InputCounted usage ∧ NothingCached usage := by
  rw [tokens_applyUsage h, tokens_applyUsage_responsesUsage, ← inputTokensOf_eq_iff]
  generalize inputTokensOf _ _ _ = native
  constructor
  · intro hsame
    simp only [tokensOf, List.cons.injEq] at hsame
    obtain ⟨hinput, -, -, houtput, -⟩ := hsame
    refine ⟨?_, hinput⟩
    rw [houtput]
    rfl
  · rintro ⟨houtput, hinput⟩
    obtain ⟨output, houtput⟩ := Option.isSome_iff_exists.mp houtput
    rw [houtput, hinput]
    simp [tokensOf, totalTokensOf_sum]

/-- A usage with cached tokens, as in the tests of the repository. -/
def cachedUsage : Json :=
  .ofFields [("input_tokens", .ofNat 100), ("cache_read_input_tokens", .ofNat 40),
    ("cache_creation_input_tokens", .ofNat 20), ("output_tokens", .ofNat 10)]

def freshEvent : UsageEvent :=
  { requestId := "request", wireApi := .messages, success := true, httpStatus := 200 }

/-- The input of the bridge lacks the 60 cached tokens. -/
theorem cached_tokens_dropped :
    AnthropicUsage cachedUsage ∧
    tokens (applyUsage freshEvent cachedUsage) ≠
      tokens (applyUsage freshEvent (responsesUsage cachedUsage)) ∧
    tokens (applyUsage freshEvent cachedUsage) = [some 160, some 40, some 20, some 10, some 170] ∧
    tokens (applyUsage freshEvent (responsesUsage cachedUsage)) =
      [some 100, some 40, some 20, some 10, some 110] := by
  decide +kernel

theorem sameTokens_iff_plain :
    tokens (applyUsage freshEvent (.ofFields [("input_tokens", .ofNat 3), ("output_tokens", .ofNat 4)])) =
      tokens (applyUsage freshEvent
        (responsesUsage (Json.ofFields [("input_tokens", .ofNat 3), ("output_tokens", .ofNat 4)]))) :=
  (sameTokens_iff (by decide +kernel) freshEvent).mpr
    ⟨by decide +kernel, .inl (by decide +kernel), .inl (by decide +kernel)⟩

end Zenith.Gateway
