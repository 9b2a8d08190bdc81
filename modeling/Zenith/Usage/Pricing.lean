import Mathlib
import Zenith.Lib.Rows
import Zenith.Lib.Tables

/-!
# The value of measured tokens

`estimateApiEquivalentWithTokenPrice` of `usage/api_equivalent.rs` prices the tokens of a query row with one
quote, and `UsageValue.merge` adds the values up, both in saturating 64-bit arithmetic. The order in which
values are merged, and whether they are grouped first, does not change the sum (`mergeAll_entries`).
-/

namespace Zenith.Usage

open Zenith.Rows Zenith.Tables

/-- Prices in micro-USD for a million tokens. -/
structure TokenPrice where
  input : Nat
  cacheRead : Option Nat := none
  cacheWrite5m : Option Nat := none
  cacheWrite1h : Option Nat := none
  output : Nat
deriving DecidableEq, Repr

structure ApiEquivalentUsage where
  inputTokens : Option Nat := none
  cachedInputTokens : Option Nat := none
  cacheWrite5mTokens : Option Nat := none
  cacheWrite1hTokens : Option Nat := none
  unknownCacheWriteTokens : Option Nat := none
  outputTokens : Option Nat := none
  totalTokens : Option Nat := none
deriving DecidableEq, Repr

/-- `UsageValue`, which is `ApiEquivalentSummary` too. -/
structure UsageValue where
  microUsd : Nat := 0
  pricedTokens : Nat := 0
  unpricedTokens : Nat := 0
deriving DecidableEq, Repr

def UsageValue.merge (value other : UsageValue) : UsageValue where
  microUsd := satAdd 64 value.microUsd other.microUsd
  pricedTokens := satAdd 64 value.pricedTokens other.pricedTokens
  unpricedTokens := satAdd 64 value.unpricedTokens other.unpricedTokens

/-! ## Estimates -/

/-- `token_cost`. -/
def tokenCost (tokens microUsdPerMillion : Nat) : Nat :=
  min ((tokens * microUsdPerMillion + 500000) / 1000000) (2 ^ 64 - 1)

/-- The components of the input: `uncached` is `none` where the input was not measured. -/
structure InputSplit where
  uncached : Option Nat
  cached : Nat
  write5m : Nat
  write1h : Nat
  unknown : Nat

def ApiEquivalentUsage.split (usage : ApiEquivalentUsage) : InputSplit :=
  let cached := (usage.cachedInputTokens.map fun value => min value (usage.inputTokens.getD value)).getD 0
  let write5m := (usage.cacheWrite5mTokens.map fun value => min value (usage.inputTokens.getD value)).getD 0
  let write1h := (usage.cacheWrite1hTokens.map fun value => min value (usage.inputTokens.getD value)).getD 0
  let unknown := (usage.unknownCacheWriteTokens.map fun value => min value (usage.inputTokens.getD value)).getD 0
  match usage.inputTokens with
  | some remaining =>
    let cached := min cached remaining
    let remaining := remaining - cached
    let write5m := min write5m remaining
    let remaining := remaining - write5m
    let write1h := min write1h remaining
    let remaining := remaining - write1h
    let unknown := min unknown remaining
    ⟨some (remaining - unknown), cached, write5m, write1h, unknown⟩
  | none => ⟨none, cached, write5m, write1h, unknown⟩

def ApiEquivalentUsage.measuredTokens (usage : ApiEquivalentUsage) : Nat :=
  let split := usage.split
  let measuredInput := usage.inputTokens.getD
    (satAdd 64 (satAdd 64 (satAdd 64 split.cached split.write5m) split.write1h) split.unknown)
  satAdd 64 measuredInput (usage.outputTokens.getD 0)

/-- The tokens of each component with their price. -/
def ApiEquivalentUsage.components (usage : ApiEquivalentUsage) (quote : TokenPrice) :
    List (Option Nat × Option Nat) :=
  let split := usage.split
  [(split.uncached, some quote.input), (some split.cached, quote.cacheRead),
    (some split.write5m, quote.cacheWrite5m), (some split.write1h, quote.cacheWrite1h),
    (some split.unknown, none), (usage.outputTokens, some quote.output)]

/-- The priced tokens and their price, with one more component. -/
def addComponent (sums : Nat × Nat) : Option Nat × Option Nat → Nat × Nat
  | (some tokens, some price) => (satAdd 64 sums.1 tokens, satAdd 64 sums.2 (tokenCost tokens price))
  | _ => sums

def estimateApiEquivalentWithTokenPrice (usage : ApiEquivalentUsage) (quote : Option TokenPrice) : UsageValue :=
  let totalTokens := max (usage.totalTokens.getD usage.measuredTokens) usage.measuredTokens
  match quote with
  | none => { unpricedTokens := totalTokens }
  | some quote =>
    let sums := (usage.components quote).foldl addComponent (0, 0)
    { microUsd := sums.2, pricedTokens := sums.1, unpricedTokens := totalTokens - sums.1 }

variable {usage : ApiEquivalentUsage}

/-- Each component takes what it can of the input that the ones before it left. -/
theorem split_of_input {input rest : Nat} (h : usage.inputTokens = some input)
    (hrest : rest = input - min (usage.cachedInputTokens.getD 0) input) :
    usage.split =
      let write5m := min (usage.cacheWrite5mTokens.getD 0) rest
      let write1h := min (usage.cacheWrite1hTokens.getD 0) (rest - write5m)
      let unknown := min (usage.unknownCacheWriteTokens.getD 0) (rest - write5m - write1h)
      ⟨some (rest - write5m - write1h - unknown), min (usage.cachedInputTokens.getD 0) input, write5m, write1h,
        unknown⟩ := by
  have hcut (tokens : Option Nat) : (tokens.map fun value => min value ((some input).getD value)).getD 0 =
      min (tokens.getD 0) input := by
    cases tokens with
    | none => exact (Nat.zero_min input).symm
    | some value => rfl
  have hmin (tokens remaining : Nat) (hle : remaining ≤ input) :
      min (min tokens input) remaining = min tokens remaining := by
    omega
  rw [ApiEquivalentUsage.split, h]
  simp only [hcut]
  rw [hmin _ input (Nat.le_refl _), ← hrest, hmin _ rest (by omega), hmin _ _ (by omega), hmin _ _ (by omega)]

theorem tokenCost_zero (price : Nat) : tokenCost 0 price = 0 := by
  simp [tokenCost]

theorem addComponent_lt {sums : Nat × Nat} (h : sums.1 < 2 ^ 64 ∧ sums.2 < 2 ^ 64)
    (component : Option Nat × Option Nat) :
    (addComponent sums component).1 < 2 ^ 64 ∧ (addComponent sums component).2 < 2 ^ 64 := by
  rcases component with ⟨_ | tokens, _ | price⟩
  · exact h
  · exact h
  · exact h
  · exact ⟨satAdd_lt .., satAdd_lt ..⟩

theorem foldl_addComponent_lt (sums : Nat × Nat) (h : sums.1 < 2 ^ 64 ∧ sums.2 < 2 ^ 64)
    (components : List (Option Nat × Option Nat)) :
    (components.foldl addComponent sums).1 < 2 ^ 64 ∧ (components.foldl addComponent sums).2 < 2 ^ 64 := by
  induction components generalizing sums with
  | nil => exact h
  | cons component components ih => exact ih _ (addComponent_lt h component)

/-- A component without tokens is priced at nothing. -/
theorem addComponent_getD {sums : Nat × Nat} (h : sums.1 < 2 ^ 64 ∧ sums.2 < 2 ^ 64) (tokens price : Option Nat) :
    addComponent sums (tokens, price) = addComponent sums (some (tokens.getD 0), price) := by
  cases tokens with
  | some tokens => rfl
  | none =>
    cases price with
    | none => rfl
    | some price =>
      show sums = (satAdd 64 sums.1 0, satAdd 64 sums.2 (tokenCost 0 price))
      rw [tokenCost_zero, satAdd_of_lt h.1, satAdd_of_lt h.2]
      rfl

variable {usage usage' : ApiEquivalentUsage}

/-- What an estimate depends on: the measured total, and the sums of the priced components. -/
theorem estimate_congr_sums {quote : Option TokenPrice}
    (htotal : max (usage.totalTokens.getD 0) usage.measuredTokens =
      max (usage'.totalTokens.getD 0) usage'.measuredTokens)
    (hsums : ∀ price, quote = some price → (usage.components price).foldl addComponent (0, 0) =
      (usage'.components price).foldl addComponent (0, 0)) :
    estimateApiEquivalentWithTokenPrice usage quote = estimateApiEquivalentWithTokenPrice usage' quote := by
  have hmax (total : Option Nat) (measured : Nat) : max (total.getD measured) measured = max (total.getD 0) measured := by
    cases total <;> simp
  unfold estimateApiEquivalentWithTokenPrice
  dsimp only
  rw [hmax, hmax, htotal]
  cases quote with
  | none => rfl
  | some price =>
    dsimp only
    rw [hsums price rfl]

/-- An absent output counts as no output, an absent total as no total. -/
theorem estimate_congr (hsplit : usage.split = usage'.split)
    (hinput : usage.inputTokens = usage'.inputTokens)
    (houtput : usage.outputTokens.getD 0 = usage'.outputTokens.getD 0)
    (htotal : usage.totalTokens.getD 0 = usage'.totalTokens.getD 0) (quote : Option TokenPrice) :
    estimateApiEquivalentWithTokenPrice usage quote = estimateApiEquivalentWithTokenPrice usage' quote := by
  refine estimate_congr_sums ?_ fun price _ => ?_
  · rw [htotal, ApiEquivalentUsage.measuredTokens, ApiEquivalentUsage.measuredTokens, hsplit, hinput, houtput]
  · rw [ApiEquivalentUsage.components, ApiEquivalentUsage.components, hsplit]
    let inputs := [(usage'.split.uncached, some price.input), (some usage'.split.cached, price.cacheRead),
      (some usage'.split.write5m, price.cacheWrite5m), (some usage'.split.write1h, price.cacheWrite1h),
      (some usage'.split.unknown, none)]
    have hlt := foldl_addComponent_lt (0, 0) ⟨by decide, by decide⟩ inputs
    show addComponent (inputs.foldl addComponent (0, 0)) _ = addComponent (inputs.foldl addComponent (0, 0)) _
    rw [addComponent_getD hlt, addComponent_getD hlt usage'.outputTokens, houtput]

/-- Where the input has no priced tokens, the sums are those of the output. -/
theorem foldl_components_of_zero (huncached : usage.split.uncached.getD 0 = 0)
    (hcached : usage.split.cached = 0) (hwrite5m : usage.split.write5m = 0) (hwrite1h : usage.split.write1h = 0)
    (price : TokenPrice) : (usage.components price).foldl addComponent (0, 0) =
      addComponent (0, 0) (some (usage.outputTokens.getD 0), some price.output) := by
  have hstart : (0, 0).1 < 2 ^ 64 ∧ (0, 0).2 < 2 ^ 64 := ⟨by decide, by decide⟩
  have hzero (price : Option Nat) : addComponent (0, 0) (some 0, price) = (0, 0) :=
    (addComponent_getD hstart none price).symm
  have hnone (tokens : Option Nat) : addComponent (0, 0) (tokens, none) = (0, 0) := by
    cases tokens <;> rfl
  rw [ApiEquivalentUsage.components, hcached, hwrite5m, hwrite1h]
  simp only [List.foldl_cons, List.foldl_nil]
  rw [addComponent_getD hstart, huncached, hzero, hzero, hzero, hzero, hnone, addComponent_getD hstart]

/-! ## Sums -/

def mergeAll (values : List UsageValue) : UsageValue := values.foldl UsageValue.merge {}

/-- `entry(key).or_default().merge(value)`. -/
def mergeEntry {κ : Type} [DecidableEq κ] (entries : List (κ × UsageValue)) (entry : κ × UsageValue) :
    List (κ × UsageValue) :=
  upsert Prod.fst (fun old _ => (old.1, old.2.merge entry.2)) (entry.1, UsageValue.merge {} entry.2) entries

theorem satAdd_right_comm (a b c : Nat) : satAdd 64 (satAdd 64 a b) c = satAdd 64 (satAdd 64 a c) b := by
  unfold satAdd
  omega

theorem satAdd_assoc (a b c : Nat) : satAdd 64 (satAdd 64 a b) c = satAdd 64 a (satAdd 64 b c) := by
  unfold satAdd
  omega

namespace UsageValue

theorem merge_right_comm (a b c : UsageValue) : (a.merge b).merge c = (a.merge c).merge b := by
  simp only [merge, satAdd_right_comm a.microUsd b.microUsd, satAdd_right_comm a.pricedTokens b.pricedTokens,
    satAdd_right_comm a.unpricedTokens b.unpricedTokens]

theorem merge_assoc (a b c : UsageValue) : (a.merge b).merge c = a.merge (b.merge c) := by
  simp only [merge, satAdd_assoc]

theorem merge_zero_merge (a b : UsageValue) : a.merge (UsageValue.merge {} b) = a.merge b := by
  simp only [merge, satAdd, mk.injEq]
  omega

theorem foldl_merge_comm (value start : UsageValue) (values : List UsageValue) :
    values.foldl merge (start.merge value) = (values.foldl merge start).merge value := by
  induction values generalizing start with
  | nil => rfl
  | cons first values ih => rw [List.foldl_cons, List.foldl_cons, merge_right_comm, ih]

end UsageValue

section
variable {κ : Type} [DecidableEq κ]

theorem foldl_mergeEntry (start : UsageValue) (entries : List (κ × UsageValue)) (entry : κ × UsageValue) :
    ((mergeEntry entries entry).map Prod.snd).foldl UsageValue.merge start =
      ((entries.map Prod.snd).foldl UsageValue.merge start).merge entry.2 := by
  induction entries generalizing start with
  | nil => exact start.merge_zero_merge entry.2
  | cons first entries ih =>
    rw [mergeEntry] at ih ⊢
    rw [upsert]
    split
    · rw [List.map_cons, List.map_cons, List.foldl_cons, List.foldl_cons, ← UsageValue.merge_assoc,
        UsageValue.foldl_merge_comm]
    · rw [List.map_cons, List.map_cons, List.foldl_cons, List.foldl_cons]
      exact ih _

/-- Values that were grouped first add up to the same. -/
theorem mergeAll_entries (entries : List (κ × UsageValue)) :
    mergeAll ((entries.foldl mergeEntry []).map Prod.snd) = mergeAll (entries.map Prod.snd) := by
  have hfold (table : List (κ × UsageValue)) :
      mergeAll ((entries.foldl mergeEntry table).map Prod.snd) =
        (entries.map Prod.snd).foldl UsageValue.merge (mergeAll (table.map Prod.snd)) := by
    induction entries generalizing table with
    | nil => rfl
    | cons entry entries ih =>
      rw [List.foldl_cons, ih, mergeAll, foldl_mergeEntry]
      rfl
  exact hfold []

end

section
variable {κ : Type} [DecidableEq κ]

/-- The value of a key, which is zero where there is no entry. -/
def valueOf (entries : List (κ × UsageValue)) (key : κ) : UsageValue :=
  (lookupKey Prod.fst key entries).elim {} Prod.snd

theorem valueOf_mergeEntry (entries : List (κ × UsageValue)) (entry : κ × UsageValue) (key : κ) :
    valueOf (mergeEntry entries entry) key =
      if entry.1 = key then (valueOf entries key).merge entry.2 else valueOf entries key := by
  rw [valueOf, valueOf, mergeEntry, lookupKey_upsert fun _ hkey => hkey]
  by_cases hkey : entry.1 = key
  · subst hkey
    rw [if_pos rfl, if_pos rfl, merged]
    cases lookupKey Prod.fst entry.1 entries with
    | none => rfl
    | some old => rfl
  · rw [if_neg (Ne.symm hkey), if_neg hkey]

/-- The value of a key is the sum of its entries. -/
theorem valueOf_foldl (entries : List (κ × UsageValue)) (key : κ) :
    valueOf (entries.foldl mergeEntry []) key =
      mergeAll ((entries.filter fun entry => entry.1 = key).map Prod.snd) := by
  have hfold (table : List (κ × UsageValue)) : valueOf (entries.foldl mergeEntry table) key =
      ((entries.filter fun entry => entry.1 = key).map Prod.snd).foldl UsageValue.merge (valueOf table key) := by
    induction entries generalizing table with
    | nil => rfl
    | cons entry entries ih =>
      rw [List.foldl_cons, ih, valueOf_mergeEntry]
      by_cases hkey : entry.1 = key
      · rw [if_pos hkey, List.filter_cons_of_pos (by simpa using hkey), List.map_cons, List.foldl_cons]
      · rw [if_neg hkey, List.filter_cons_of_neg (by simpa using hkey)]
  exact hfold []

end

theorem pricedTokens_mergeAll (values : List UsageValue) :
    (mergeAll values).pricedTokens = min (values.map UsageValue.pricedTokens).sum (2 ^ 64 - 1) := by
  have hfold (start : UsageValue) : (values.foldl UsageValue.merge start).pricedTokens =
      (values.map UsageValue.pricedTokens).foldl (satAdd 64) start.pricedTokens := by
    induction values generalizing start with
    | nil => rfl
    | cons value values ih => exact ih (start.merge value)
  have hsum := foldl_satAdd 64 0 (values.map UsageValue.pricedTokens) (Nat.zero_le _)
  rw [Nat.zero_add] at hsum
  exact (hfold {}).trans hsum

theorem mergeAll_perm {values values' : List UsageValue} (h : values.Perm values') :
    mergeAll values = mergeAll values' :=
  h.foldl_eq' (fun a _ b _ start => UsageValue.merge_right_comm start a b) _

end Zenith.Usage
