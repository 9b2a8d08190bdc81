import Zenith.Usage.Pricing

/-!
# Where the tokens of an estimate go

A provider reports up to seven counters that need not agree with each other. The estimate cuts the
cache components down to the input, one after the other, so that no token is in two of them
(`split_sum`), prices those that have a tariff (`foldl_addComponent`), and counts the rest of the
larger total as unpriced. Each price is rounded once, by at most half a micro-dollar
(`abs_roundedCost_sub`).
-/

namespace Zenith.Usage

open Zenith.Tables

/-! ## Components -/

/-- The tokens that have a price, with it. -/
def tariffed (components : List (Option Nat × Option Nat)) : List (Nat × Nat) :=
  components.filterMap fun component =>
    match component with
    | (some tokens, some price) => some (tokens, price)
    | _ => none

/-- The tokens of the components that have no tariff. -/
def untariffed (components : List (Option Nat × Option Nat)) : List Nat :=
  components.filterMap fun component =>
    match component with
    | (some tokens, none) => some tokens
    | _ => none

/-- The two sums of an estimate are over the components with a tariff. -/
theorem foldl_addComponent (components : List (Option Nat × Option Nat)) (sums : Nat × Nat) :
    components.foldl addComponent sums =
      (((tariffed components).map Prod.fst).foldl (satAdd 64) sums.1,
        ((tariffed components).map fun component => tokenCost component.1 component.2).foldl
          (satAdd 64) sums.2) := by
  induction components generalizing sums with
  | nil => rfl
  | cons component components ih =>
    rw [List.foldl_cons, ih]
    rcases component with ⟨_ | tokens, _ | price⟩ <;> rfl

theorem sums_components (components : List (Option Nat × Option Nat)) :
    components.foldl addComponent (0, 0) =
      (min ((tariffed components).map Prod.fst).sum (2 ^ 64 - 1),
        min ((tariffed components).map fun component => tokenCost component.1 component.2).sum
          (2 ^ 64 - 1)) := by
  have hsum (values : List Nat) : values.foldl (satAdd 64) 0 = min values.sum (2 ^ 64 - 1) := by
    rw [foldl_satAdd 64 0 values (Nat.zero_le _), Nat.zero_add]
  rw [foldl_addComponent, hsum, hsum]

/-- The parts that the input is split into make up the input. -/
theorem split_sum {usage : ApiEquivalentUsage} {input : Nat} (h : usage.inputTokens = some input) :
    ∃ uncached, usage.split.uncached = some uncached ∧
      uncached + usage.split.cached + usage.split.write5m + usage.split.write1h +
        usage.split.unknown = input := by
  rw [split_of_input h rfl]
  refine ⟨_, rfl, ?_⟩
  dsimp only
  omega

/-- Without an input the cache components are the reported ones. -/
theorem split_of_no_input {usage : ApiEquivalentUsage} (h : usage.inputTokens = none) :
    usage.split = ⟨none, usage.cachedInputTokens.getD 0, usage.cacheWrite5mTokens.getD 0,
      usage.cacheWrite1hTokens.getD 0, usage.unknownCacheWriteTokens.getD 0⟩ := by
  have hreported (tokens : Option Nat) :
      (tokens.map fun value => min value ((none : Option Nat).getD value)).getD 0 = tokens.getD 0 := by
    cases tokens with
    | none => rfl
    | some value => exact Nat.min_self value
  rw [ApiEquivalentUsage.split, h]
  simp only [hreported]

/-- The reported tokens: the input, or the cache components where there is none, and the output. -/
def ApiEquivalentUsage.reportedTokens (usage : ApiEquivalentUsage) : Nat :=
  usage.inputTokens.getD (usage.cachedInputTokens.getD 0 + usage.cacheWrite5mTokens.getD 0 +
    usage.cacheWrite1hTokens.getD 0 + usage.unknownCacheWriteTokens.getD 0) +
    usage.outputTokens.getD 0

theorem measuredTokens_eq (usage : ApiEquivalentUsage) :
    usage.measuredTokens = min usage.reportedTokens (2 ^ 64 - 1) := by
  unfold ApiEquivalentUsage.measuredTokens ApiEquivalentUsage.reportedTokens
  cases h : usage.inputTokens with
  | some input => rfl
  | none =>
    rw [split_of_no_input h]
    simp only [Option.getD_none, satAdd]
    omega

/-- Every reported token is in one component. -/
theorem sum_components (usage : ApiEquivalentUsage) (quote : TokenPrice) :
    ((tariffed (usage.components quote)).map Prod.fst).sum +
      (untariffed (usage.components quote)).sum = usage.reportedTokens := by
  have hsplit (components : List (Option Nat × Option Nat)) :
      ((tariffed components).map Prod.fst).sum + (untariffed components).sum =
        (components.map fun component => component.1.getD 0).sum := by
    induction components with
    | nil => rfl
    | cons component components ih =>
      rw [List.map_cons, List.sum_cons, ← ih]
      rcases component with ⟨_ | tokens, _ | price⟩
      · exact (Nat.zero_add _).symm
      · exact (Nat.zero_add _).symm
      · exact Nat.add_left_comm ((tariffed components).map Prod.fst).sum tokens _
      · exact Nat.add_assoc tokens ((tariffed components).map Prod.fst).sum _
  rw [hsplit, ApiEquivalentUsage.reportedTokens]
  simp only [ApiEquivalentUsage.components, List.map_cons, List.map_nil, List.sum_cons, List.sum_nil,
    Option.getD_some]
  cases h : usage.inputTokens with
  | some input =>
    obtain ⟨uncached, huncached, hsum⟩ := split_sum h
    rw [huncached, Option.getD_some, Option.getD_some]
    omega
  | none =>
    rw [split_of_no_input h]
    simp only [Option.getD_none]
    omega

/-! ## Rounding -/

/-- The price of a component in micro-dollars. -/
def exactCost (component : Nat × Nat) : ℚ := component.1 * component.2 / 1000000

/-- The price of a component to the nearest micro-dollar, without the limit of 64 bits. -/
def roundedCost (component : Nat × Nat) : Nat := (component.1 * component.2 + 500000) / 1000000

theorem abs_roundedCost_sub (component : Nat × Nat) :
    |(roundedCost component : ℚ) - exactCost component| ≤ 1 / 2 := by
  have hdiv := Nat.div_add_mod (component.1 * component.2 + 500000) 1000000
  have hmod := Nat.mod_lt (component.1 * component.2 + 500000) (by decide : 0 < 1000000)
  rw [← roundedCost] at hdiv
  unfold exactCost
  generalize hproduct : component.1 * component.2 = product at hdiv hmod
  generalize (product + 500000) % 1000000 = remainder at hdiv hmod
  have hcast : (component.1 : ℚ) * component.2 = product := by exact_mod_cast hproduct
  have hdiv' : (1000000 : ℚ) * roundedCost component + remainder = product + 500000 := by
    exact_mod_cast hdiv
  have hmod' : (remainder : ℚ) ≤ 1000000 := by exact_mod_cast hmod.le
  have hnonneg : (0 : ℚ) ≤ remainder := Nat.cast_nonneg remainder
  rw [hcast, abs_le]
  constructor <;> linarith

/-- Rounding errors add up. -/
theorem abs_sum_roundedCost_sub (components : List (Nat × Nat)) :
    |((components.map roundedCost).sum : ℚ) - (components.map exactCost).sum| ≤
      components.length / 2 := by
  induction components with
  | nil => simp
  | cons component components ih =>
    have hone := abs_roundedCost_sub component
    simp only [List.map_cons, List.sum_cons, List.length_cons, Nat.cast_add, Nat.cast_one]
    calc |(roundedCost component : ℚ) + ((components.map roundedCost).sum : ℚ) -
          (exactCost component + (components.map exactCost).sum)|
        = |((roundedCost component : ℚ) - exactCost component) +
            (((components.map roundedCost).sum : ℚ) - (components.map exactCost).sum)| := by
          congr 1
          ring
      _ ≤ |(roundedCost component : ℚ) - exactCost component| +
            |((components.map roundedCost).sum : ℚ) - (components.map exactCost).sum| :=
          abs_add_le _ _
      _ ≤ 1 / 2 + components.length / 2 := add_le_add hone ih
      _ = (components.length + 1) / 2 := by ring

/-- As long as their sum fits, no cost is cut. -/
theorem sum_tokenCost {components : List (Nat × Nat)}
    (h : (components.map roundedCost).sum < 2 ^ 64) :
    (components.map fun component => tokenCost component.1 component.2).sum =
      (components.map roundedCost).sum := by
  refine congrArg List.sum (List.map_congr_left fun component hmem => ?_)
  have hle : roundedCost component ≤ (components.map roundedCost).sum :=
    List.single_le_sum (fun _ _ => Nat.zero_le _) _ (List.mem_map_of_mem hmem)
  rw [tokenCost, ← roundedCost]
  omega

/-! ## The estimate -/

/-- The total is split between priced and unpriced tokens, and the input between its components. Only
the components with a tariff are priced; the others are unpriced. As long as the price fits, it is off
by at most half a micro-dollar for each priced component. -/
theorem estimate_conserves (usage : ApiEquivalentUsage) (quote : Option TokenPrice) :
    let value := estimateApiEquivalentWithTokenPrice usage quote
    let measured := min usage.reportedTokens (2 ^ 64 - 1)
    let total := max (usage.totalTokens.getD measured) measured
    value.pricedTokens + value.unpricedTokens = total ∧
      (∀ input, usage.inputTokens = some input → ∃ uncached, usage.split.uncached = some uncached ∧
        uncached + usage.split.cached + usage.split.write5m + usage.split.write1h +
          usage.split.unknown = input) ∧
      (quote = none → value.microUsd = 0 ∧ value.pricedTokens = 0) ∧
      ∀ price, quote = some price →
        let priced := tariffed (usage.components price)
        let unpriced := untariffed (usage.components price)
        value.pricedTokens = min (priced.map Prod.fst).sum (2 ^ 64 - 1) ∧
          value.microUsd =
            min (priced.map fun component => tokenCost component.1 component.2).sum (2 ^ 64 - 1) ∧
          (usage.reportedTokens < 2 ^ 64 →
            value.unpricedTokens = (total - measured) + unpriced.sum) ∧
          ((priced.map roundedCost).sum < 2 ^ 64 →
            |(value.microUsd : ℚ) - (priced.map exactCost).sum| ≤ priced.length / 2) := by
  intro value measured total
  have htotal : max (usage.totalTokens.getD usage.measuredTokens) usage.measuredTokens = total := by
    rw [measuredTokens_eq]
  cases quote with
  | none =>
    have hvalue : value = { unpricedTokens := total } :=
      congrArg (fun total => ({ unpricedTokens := total } : UsageValue)) htotal
    rw [hvalue]
    exact ⟨Nat.zero_add total, fun input h => split_sum h, fun _ => ⟨rfl, rfl⟩, nofun⟩
  | some price =>
    have hsums := sums_components (usage.components price)
    have hparts := sum_components usage price
    set priced := tariffed (usage.components price) with hpriced
    set unpriced := untariffed (usage.components price) with hunpriced
    have hpricedTokens : value.pricedTokens = min (priced.map Prod.fst).sum (2 ^ 64 - 1) :=
      congrArg Prod.fst hsums
    have hmicroUsd : value.microUsd =
        min (priced.map fun component => tokenCost component.1 component.2).sum (2 ^ 64 - 1) :=
      congrArg Prod.snd hsums
    have hunpricedTokens : value.unpricedTokens = total - value.pricedTokens :=
      congrArg (· - value.pricedTokens) htotal
    have hmeasured : value.pricedTokens ≤ measured := by
      rw [hpricedTokens]
      omega
    have hle : value.pricedTokens ≤ total := hmeasured.trans (Nat.le_max_right _ _)
    refine ⟨by omega, fun input h => split_sum h, nofun, ?_⟩
    rintro price' ⟨⟩
    refine ⟨hpricedTokens, hmicroUsd, fun hfits => ?_, fun hfits => ?_⟩
    · have hmeasuredEq : measured = usage.reportedTokens := by omega
      have hmeasuredLe : measured ≤ total := Nat.le_max_right _ _
      have hpricedEq : value.pricedTokens = (priced.map Prod.fst).sum := by
        rw [hpricedTokens]
        omega
      show value.unpricedTokens = total - measured + unpriced.sum
      omega
    · show |(value.microUsd : ℚ) - (priced.map exactCost).sum| ≤ priced.length / 2
      have hfits' : (priced.map roundedCost).sum < 2 ^ 64 := hfits
      have hcosts := sum_tokenCost hfits'
      have hexact : value.microUsd = (priced.map roundedCost).sum := by
        rw [hmicroUsd, hcosts]
        exact Nat.min_eq_left (Nat.le_sub_one_of_lt hfits')
      rw [hexact]
      exact abs_sum_roundedCost_sub priced

/-- Cache counters that together exceed the input, and no tariff for the cache. -/
theorem estimate_conserves_sample :
    let usage : ApiEquivalentUsage :=
      { inputTokens := some 10, cachedInputTokens := some 8, cacheWrite5mTokens := some 8,
        outputTokens := some 5 }
    let value := estimateApiEquivalentWithTokenPrice usage (some { input := 2000000, output := 8000000 })
    value.pricedTokens + value.unpricedTokens = 15 ∧ value.unpricedTokens = 10 := by
  intro usage value
  have hconserves := estimate_conserves usage (some { input := 2000000, output := 8000000 })
  exact ⟨hconserves.1, (hconserves.2.2.2 _ rfl).2.2.1 (by decide)⟩

end Zenith.Usage
