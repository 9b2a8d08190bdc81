import Zenith.Lib.Json
import Zenith.Lib.Tables
import Zenith.Pricing.Decimal
import Zenith.Usage.Pricing

/-!
# The price catalog

`pricing/litellm_parser.rs`, `pricing/mod.rs` and `pricing/resolver.rs`: the records of a LiteLLM
document become the entries of a catalog, and an account asks it for the token price of a model.

Ids differ in case, in white space around them and in the namespace in front of the last slash. Two
records whose normalized ids are the same and whose prices differ make that id a conflict. An account
is priced by the entries of its provider family whose ids agree up to all of this, as long as their
ids are no conflict and their prices agree.

The schedule and the download of the document, the cache file, and the prices of API sources are not
modelled.
-/

namespace Zenith.Pricing

open Std Zenith.Text Zenith.Tables Zenith.Usage

def maxModelPriceMicroUsdPerMillion : Nat := 1000000000000

def maxCacheRecords : Nat := 100000

def maxCacheStringLength : Nat := 1024

/-! ## Records -/

structure ImageModelPrice where
  inputMicroUsdPerImage : Option Nat
  outputMicroUsdPerImage : Option Nat
  inputMicroUsdPerImageToken : Option Nat
deriving DecidableEq, Repr

structure CatalogEntry where
  modelId : String
  provider : Option String
  token : Option TokenPrice
  image : Option ImageModelPrice
  requestMicroUsd : Option Nat
deriving DecidableEq, Repr

/-- What two aliases of a model have to agree on. -/
def CatalogEntry.equivalentPricing (entry other : CatalogEntry) : Bool :=
  entry.provider = other.provider && entry.token = other.token && entry.image = other.image &&
    entry.requestMicroUsd = other.requestMicroUsd

/-- Prices are strings or numbers, read from their text. -/
def parseDecimalValue (value : Json) (scale : Nat) : Except PricingError Nat :=
  match value with
  | .string text => parseDecimalToScaled text scale
  | .number n => parseDecimalToScaled n.print scale
  | _ => .error .invalidAmount

def usdPerTokenToMicroUsdPerMillion (value : Json) : Except PricingError Nat :=
  parseDecimalValue value 1000000000000

def usdPerRequestToMicroUsd (value : Json) : Except PricingError Nat :=
  parseDecimalValue value 1000000

/-- A price that may be absent or `null`, and is limited. -/
def optionalPrice (read : Json → Except PricingError Nat) (value : Option Json) :
    Except PricingError (Option Nat) :=
  match value with
  | none => .ok none
  | some value =>
    if value.isNull then .ok none
    else
      match read value with
      | .error error => .error error
      | .ok price => if price ≤ maxModelPriceMicroUsdPerMillion then .ok (some price) else .error .overflow

def optionalToken (object : Json.Fields) (key : String) : Except PricingError (Option Nat) :=
  optionalPrice usdPerTokenToMicroUsdPerMillion (Json.Fields.get object key)

def optionalRequest (object : Json.Fields) (key : String) : Except PricingError (Option Nat) :=
  optionalPrice usdPerRequestToMicroUsd (Json.Fields.get object key)

/-- The first of four keys that is there. -/
def optionalMicroRequest (object : Json.Fields) : Except PricingError (Option Nat) :=
  optionalPrice usdPerRequestToMicroUsd
    (["input_cost_per_request", "output_cost_per_request", "cost_per_request",
      "request_cost_per_request"].findSome? (Json.Fields.get object))

def parseTokenPrice (object : Json.Fields) : Except PricingError (Option TokenPrice) := do
  let input ← optionalToken object "input_cost_per_token"
  let output ← optionalToken object "output_cost_per_token"
  match input, output with
  | some input, some output =>
    let cacheRead ← optionalToken object "cache_read_input_token_cost"
    let cacheWrite5m ← optionalToken object "cache_creation_input_token_cost"
    let cacheWrite1h ← optionalToken object "cache_creation_input_token_cost_above_1hr"
    pure (some { input, cacheRead, cacheWrite5m, cacheWrite1h, output })
  | _, _ => pure none

def parseImagePrice (object : Json.Fields) : Except PricingError (Option ImageModelPrice) := do
  let outputPerImage ← optionalRequest object "output_cost_per_image"
  let inputPerImage ← optionalRequest object "input_cost_per_image"
  let inputPerImageToken ← optionalToken object "input_cost_per_image_token"
  if outputPerImage.isNone && inputPerImage.isNone && inputPerImageToken.isNone then pure none
  else
    pure (some
      { inputMicroUsdPerImage := inputPerImage
        outputMicroUsdPerImage := outputPerImage
        inputMicroUsdPerImageToken := inputPerImageToken })

def recordProvider (object : Json.Fields) : Option String :=
  (((Json.Fields.get object "litellm_provider").bind Json.asStr).map trim).bind fun value =>
    if value = "" then none else some (asciiLower value)

/-- A record of the document. The source builds the entry of a record that has a price for requests
only through a constructor of its own, with the same fields. -/
def parseEntry (modelId : String) (value : Json) : Except PricingError (Option CatalogEntry) :=
  match value.asObject with
  | none => .error .invalidRecord
  | some object => do
    let token ← parseTokenPrice object
    let image ← parseImagePrice object
    let requestMicroUsd ← optionalMicroRequest object
    if token.isNone && image.isNone && requestMicroUsd.isNone then pure none
    else pure (some { modelId, provider := recordProvider object, token, image, requestMicroUsd })

/-! ## Loading -/

def normalize (value : String) : String := asciiLower (trim value)

/-- The part of an id behind its last slash, normalized. -/
def unqualified (value : String) : String :=
  normalize (String.ofList (value.toList.reverse.takeWhile (· ≠ '/')).reverse)

structure PricingCatalog where
  revision : Option String
  fetchedAtMs : Option Nat
  stale : Bool
  entries : Table String CatalogEntry := ∅
  conflicts : Finset String := ∅
  unique : Table String CatalogEntry := ∅

/-- The first entry of an id stands for it until one with another price comes. -/
def PricingCatalog.noteUnique (catalog : PricingCatalog) (key : String) (entry : CatalogEntry) :
    PricingCatalog :=
  match catalog.unique[key]? with
  | some existing =>
    if existing.equivalentPricing entry then catalog
    else
      { catalog with
        conflicts := insert key catalog.conflicts
        unique := catalog.unique.erase key }
  | none =>
    if key ∈ catalog.conflicts then catalog
    else { catalog with unique := catalog.unique.insert key entry }

/-- One record of the document. A record that cannot be read is passed over. -/
def PricingCatalog.addRecord (catalog : PricingCatalog) (record : String × Json) : PricingCatalog :=
  if maxCacheStringLength < record.1.utf8ByteSize then catalog
  else
    match parseEntry record.1 record.2 with
    | .error _ => catalog
    | .ok none => catalog
    | .ok (some entry) =>
      { catalog.noteUnique (normalize record.1) entry with
        entries := catalog.entries.insert record.1 entry }

def validateLitellmPayload (payload : Json) : Except PricingError Json.Fields :=
  match payload.asObject with
  | none => .error .invalidCatalog
  | some object =>
    if maxCacheRecords < object.length then .error .cacheTooLarge
    else if object.any fun record => record.1 = "" ||
        decide (maxCacheStringLength < record.1.utf8ByteSize) then .error .invalidCatalog
    else .ok object

def fromLitellmPayload (payload : Json) (revision : Option String) (fetchedAtMs : Option Nat)
    (stale : Bool) : Except PricingError PricingCatalog :=
  match validateLitellmPayload payload with
  | .error error => .error error
  | .ok object => .ok (object.foldl PricingCatalog.addRecord { revision, fetchedAtMs, stale })

/-! ## Resolving -/

inductive PriceSource
  | provider
  | liteLlmExact
  | liteLlmCanonical
  | manual
  | unpriced
deriving DecidableEq, Repr

structure ResolvedPrice where
  quote : Option TokenPrice
  source : PriceSource
  catalogRevision : Option String
  catalogFetchedAtMs : Option Nat
  stale : Bool
deriving DecidableEq, Repr

namespace PricingCatalog

variable (catalog : PricingCatalog)

/-- The entry is an alias of the model in the family, and its id is no conflict. -/
def isCandidate (model family : String) (entry : CatalogEntry) : Bool :=
  entry.provider = some (normalize family) && unqualified entry.modelId = unqualified model &&
    decide (normalize entry.modelId ∉ catalog.conflicts)

def canonicalEntry (model family : String) : Option CatalogEntry :=
  match (valuesOf catalog.entries).filter (catalog.isCandidate model family) with
  | [] => none
  | first :: rest =>
    if (first :: rest).all (·.equivalentPricing first) then some first else none

def unpriced : ResolvedPrice where
  quote := none
  source := .unpriced
  catalogRevision := catalog.revision
  catalogFetchedAtMs := catalog.fetchedAtMs
  stale := catalog.stale

def resolved (quote : TokenPrice) (source : PriceSource) : ResolvedPrice where
  quote := some quote
  source
  catalogRevision := catalog.revision
  catalogFetchedAtMs := catalog.fetchedAtMs
  stale := catalog.stale

def resolveAccount (model : String) (providerFamily : Option String) : ResolvedPrice :=
  match (providerFamily.bind (catalog.canonicalEntry model)).bind (·.token) with
  | none => catalog.unpriced
  | some price => catalog.resolved price .liteLlmCanonical

end PricingCatalog

end Zenith.Pricing
