import Mathlib
import Zenith.Lib.Json
import Zenith.Lib.Text

/-!
# The configuration document

`config.toml` as the profile code of `profiles/codex/config.rs` sees it: a table with the root keys it
reads and writes, and the providers below `model_providers`. A TOML document is the data of its tables;
how its text is laid out is the library's affair. The code tells tables from other values, and reads
strings and booleans; of any other value only the text counts.

The functions here edit a document (`attachConfig`, `restoreConfig`, `restoreRootString`) or read it.
-/

namespace Zenith.Profiles

open Zenith.Text

inductive TomlValue
  | string (s : String)
  | boolean (b : Bool)
  /-- Numbers, dates, arrays, inline tables and deeper tables. -/
  | other (text : String)
deriving DecidableEq

/-- A TOML table: its entries are not in any order. -/
abbrev TomlTable (α : Type) := Finmap fun _ : String => α

/-- An entry of a table below the root. -/
inductive SubItem
  | table (fields : TomlTable TomlValue)
  | value (value : TomlValue)
deriving DecidableEq

/-- An entry of the root table. -/
inductive Item
  | table (entries : TomlTable SubItem)
  | value (value : TomlValue)
deriving DecidableEq

abbrev Document := TomlTable Item

def TomlValue.asStr : TomlValue → Option String
  | .string s => some s
  | _ => none

def TomlValue.asBool : TomlValue → Option Bool
  | .boolean b => some b
  | _ => none

def SubItem.asTable : SubItem → Option (TomlTable TomlValue)
  | .table fields => some fields
  | .value _ => none

def Item.asStr : Item → Option String
  | .value v => v.asStr
  | .table _ => none

def Item.asTable : Item → Option (TomlTable SubItem)
  | .table entries => some entries
  | .value _ => none

/-- `value` of a string. -/
def Item.ofStr (s : String) : Item := .value (.string s)

/-- `PROVIDER_ID`. -/
def providerId : String := "zenith_relay_local"

inductive ErrorCode
  | io
  | conflict
  | invalidState
  | profileRestoreBlocked
  | recoveryRequired
  | secretStoreUnavailable
deriving DecidableEq, Repr

structure LocalPoolError where
  code : ErrorCode
  message : String
deriving DecidableEq, Repr

/-! ## Reading -/

/-- A string below a root key: `root_model_provider`, `root_model_catalog_json`,
`root_model_reasoning_effort` and `root_openai_base_url` are this at their keys. -/
def rootString (document : Document) (key : String) : Option String :=
  (document.lookup key).bind Item.asStr

def rootModelProvider (document : Document) : Option String := rootString document "model_provider"

def rootModelCatalogJson (document : Document) : Option String :=
  rootString document "model_catalog_json"

def rootModelReasoningEffort (document : Document) : Option String :=
  rootString document "model_reasoning_effort"

def rootOpenaiBaseUrl (document : Document) : Option String := rootString document "openai_base_url"

def modelProviders (document : Document) : Option (TomlTable SubItem) :=
  (document.lookup "model_providers").bind Item.asTable

def documentHasProvider (document : Document) : Bool :=
  (modelProviders document).any fun providers => (providers.lookup providerId).isSome

def validateConfigShape (document : Document) : Except LocalPoolError Unit :=
  if (document.lookup "model_provider").isSome ∧ rootModelProvider document = none then
    .error ⟨.invalidState, "ChatGPT model_provider must be a string"⟩
  else if (document.lookup "model_providers").isSome ∧ modelProviders document = none then
    .error ⟨.invalidState, "ChatGPT model_providers must be a table"⟩
  else if (document.lookup "model_reasoning_effort").isSome ∧ rootModelReasoningEffort document = none then
    .error ⟨.invalidState, "ChatGPT model_reasoning_effort must be a string"⟩
  else .ok ()

/-! ## Editing -/

def restoreRootString (document : Document) (key : String) (previous : Option String) : Document :=
  match previous with
  | some previous => document.insert key (.ofStr previous)
  | none => document.erase key

/-- The table of the managed provider. -/
def managedProvider (baseUrl localKey : String) (supportsWebsockets : Bool) : TomlTable TomlValue :=
  (((((Finmap.insert "name" (.string "Zenith Relay Local") ∅).insert "base_url" (.string baseUrl)).insert
    "wire_api" (.string "responses")).insert "requires_openai_auth" (.boolean true)).insert
    "experimental_bearer_token" (.string localKey)).insert "supports_websockets"
    (.boolean supportsWebsockets)

def attachConfig (document : Document) (baseUrl localKey : String)
    (modelCatalogPath previousModelCatalog modelReasoningEffort : Option String)
    (supportsWebsockets : Bool) : Document :=
  let document := restoreRootString document "model_reasoning_effort" modelReasoningEffort
  let document := document.insert "model_provider" (.ofStr providerId)
  let document :=
    restoreRootString document "model_catalog_json" (modelCatalogPath.or previousModelCatalog)
  let providers := (modelProviders document).getD ∅
  document.insert "model_providers"
    (.table (providers.insert providerId (.table (managedProvider baseUrl localKey supportsWebsockets))))

def removeManagedProvider (document : Document) : Document :=
  match modelProviders document with
  | none => document
  | some providers =>
    if providers.erase providerId = ∅ then document.erase "model_providers"
    else document.insert "model_providers" (.table (providers.erase providerId))

def restoreConfig (document : Document) (previousModelProvider previousModelCatalog : Option String) :
    Document :=
  let document := removeManagedProvider document
  let document := restoreRootString document "model_provider" previousModelProvider
  restoreRootString document "model_catalog_json" previousModelCatalog

/-- `reasoning_effort_for_attach`, on the catalog as `serde_json` reads it. -/
def reasoningEffortForAttach (fromStr : String → Option Json) (document : Document)
    (catalogJson : Option String) : Option String :=
  let current := rootModelReasoningEffort document
  match rootString document "model", catalogJson.bind fromStr with
  | some selectedModel, some catalog =>
    let models := ((catalog.get "models").bind Json.asArray).getD []
    let named := models.find? fun model =>
      ((model.get "slug").bind Json.asStr).any fun slug => eqIgnoreAsciiCase slug selectedModel
    match named with
    | none => current
    | some model =>
      match (model.get "supported_reasoning_levels").bind Json.asArray with
      | none => none
      | some levels =>
        let supports (effort : String) : Bool := levels.any fun level =>
          ((level.get "effort").bind Json.asStr).any fun candidate => eqIgnoreAsciiCase candidate effort
        (current.filter supports).or
          (((model.get "default_reasoning_level").bind Json.asStr).filter supports)
  | _, _ => current

/-! ## What an edit does to each key -/

section
variable (document : Document)

theorem lookup_restoreRootString (key : String) (previous : Option String) (k : String) :
    (restoreRootString document key previous).lookup k =
      if k = key then previous.map Item.ofStr else document.lookup k := by
  cases previous with
  | none =>
    split
    case isTrue h => exact h ▸ Finmap.lookup_erase key document
    case isFalse h => exact Finmap.lookup_erase_ne h
  | some previous =>
    split
    case isTrue h => exact h ▸ Finmap.lookup_insert document
    case isFalse h => exact Finmap.lookup_insert_of_ne document h

theorem lookup_insert (document : Document) (key : String) (item : Item) (k : String) :
    (document.insert key item).lookup k = if k = key then some item else document.lookup k := by
  split
  case isTrue h => exact h ▸ Finmap.lookup_insert document
  case isFalse h => exact Finmap.lookup_insert_of_ne document h

/-- The entry of `model_providers` without the managed provider. An empty table goes with it. -/
def withoutManaged (item : Item) : Option Item :=
  match item with
  | .table providers =>
    if providers.erase providerId = ∅ then none else some (.table (providers.erase providerId))
  | .value v => some (.value v)

theorem lookup_removeManagedProvider (k : String) :
    (removeManagedProvider document).lookup k =
      if k = "model_providers" then (document.lookup k).bind withoutManaged else document.lookup k := by
  rw [removeManagedProvider, modelProviders]
  rcases hitem : document.lookup "model_providers" with _ | providers | v
  case none =>
    show document.lookup k = _
    split
    case isTrue h => rw [h, hitem]; rfl
    case isFalse => rfl
  case some.value =>
    show document.lookup k = _
    split
    case isTrue h => rw [h, hitem]; rfl
    case isFalse => rfl
  case some.table =>
    show (if providers.erase providerId = ∅ then document.erase "model_providers"
      else document.insert "model_providers" (.table (providers.erase providerId))).lookup k = _
    by_cases hempty : providers.erase providerId = ∅
    · rw [if_pos hempty]
      split
      case isTrue h =>
        rw [h, Finmap.lookup_erase, hitem]
        exact (if_pos hempty).symm
      case isFalse h => exact Finmap.lookup_erase_ne h
    · rw [if_neg hempty, lookup_insert]
      split
      case isTrue h =>
        rw [h, hitem]
        exact (if_neg hempty).symm
      case isFalse => rfl

end

end Zenith.Profiles
