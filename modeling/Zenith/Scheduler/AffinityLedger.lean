import Zenith.Lib.Expiry
import Zenith.Lib.Runs
import Zenith.Scheduler.Affinity

/-!
# Affinity ledger

What the affinity cache is for, said without its pruning: of every key the last call that bound,
restored or refreshed it, unless the key was invalidated or evicted since. A binding counts until it
expires, and a new key evicts the least recently touched live binding when the live ones take up the
capacity.

The cache forgets expired bindings on the way, on most calls all of them. `step_agree` shows that
this is not noticed: after every call made at a time no earlier than the calls before it, the cache
and the ledger agree on every binding that is still live.
-/

namespace Zenith.Scheduler

open Std Zenith.Tables Zenith.Comparators Zenith.Expiry

instance : Clocked Binding where
  expires := Binding.expiresAt
  touched := Binding.lastTouchedAt

/-- A call of the cache. -/
inductive AffinityOp where
  | bind (key candidateId : String)
  | bindFor (key candidateId : String) (ttlMs : Nat)
  | bindIfUnboundOrSame (key candidateId : String)
  | restore (key candidateId : String) (expiresAt : Nat)
  | refresh (key : String)
  | get (key : String)
  | contains (key : String)
  | invalidate (key : String)
  | invalidateCandidate (candidateId : String)
deriving DecidableEq

/-- A call and the time it is made at. -/
abbrev AffinityCall := AffinityOp × Nat

def AffinityCache.step (cache : AffinityCache) : AffinityCall → AffinityCache
  | (.bind key candidateId, nowMs) => cache.bind key candidateId nowMs
  | (.bindFor key candidateId ttlMs, nowMs) => cache.bindFor key candidateId nowMs ttlMs
  | (.bindIfUnboundOrSame key candidateId, nowMs) =>
    (cache.bindIfUnboundOrSame key candidateId nowMs).1
  | (.restore key candidateId expiresAt, nowMs) => cache.restore key candidateId expiresAt nowMs
  | (.refresh key, nowMs) => (cache.refresh key nowMs).1
  | (.get key, nowMs) => (cache.get key nowMs).1
  | (.contains key, nowMs) => (cache.contains key nowMs).1
  | (.invalidate key, _) => (cache.invalidate key).1
  | (.invalidateCandidate candidateId, _) => (cache.invalidateCandidate candidateId).1

/-! ## The ledger -/

abbrev AffinityLedger := Ledger String Binding

namespace AffinityLedger

/-- The key has a live binding to the candidate. -/
def OwnedBy (ledger : AffinityLedger) (nowMs : Nat) (key candidateId : String) : Prop :=
  ∃ binding, ledger key = some binding ∧ nowMs < binding.expiresAt ∧
    binding.candidateId = candidateId

noncomputable def bindFor (maxEntries : Nat) (ledger : AffinityLedger) (key candidateId : String)
    (nowMs ttlMs : Nat) : AffinityLedger :=
  if maxEntries = 0 ∨ ttlMs = 0 then ledger
  else ledger.file maxEntries nowMs key ⟨candidateId, ttlMs, satAdd 64 nowMs ttlMs, nowMs⟩

open Classical in
/-- Only a live binding is refreshed. -/
noncomputable def refresh (ledger : AffinityLedger) (key : String) (nowMs : Nat) : AffinityLedger :=
  if ledger.Live nowMs key then
    Function.update ledger key ((ledger key).map fun binding =>
      { binding with expiresAt := satAdd 64 nowMs binding.ttlMs, lastTouchedAt := nowMs })
  else ledger

noncomputable def restore (maxEntries ttlMs : Nat) (ledger : AffinityLedger)
    (key candidateId : String) (expiresAt nowMs : Nat) : AffinityLedger :=
  if maxEntries = 0 ∨ expiresAt ≤ nowMs then ledger
  else ledger.file maxEntries nowMs key ⟨candidateId, ttlMs, expiresAt, nowMs⟩

open Classical in
/-- The owner of a live binding has it refreshed; another candidate leaves it as it is. -/
noncomputable def bindIfUnboundOrSame (maxEntries ttlMs : Nat) (ledger : AffinityLedger)
    (key candidateId : String) (nowMs : Nat) : AffinityLedger :=
  if ledger.OwnedBy nowMs key candidateId then ledger.refresh key nowMs
  else if ledger.Live nowMs key then ledger
  else ledger.bindFor maxEntries key candidateId nowMs ttlMs

noncomputable def step (maxEntries ttlMs : Nat) (ledger : AffinityLedger) :
    AffinityCall → AffinityLedger
  | (.bind key candidateId, nowMs) => ledger.bindFor maxEntries key candidateId nowMs ttlMs
  | (.bindFor key candidateId ttlMs, nowMs) => ledger.bindFor maxEntries key candidateId nowMs ttlMs
  | (.bindIfUnboundOrSame key candidateId, nowMs) =>
    ledger.bindIfUnboundOrSame maxEntries ttlMs key candidateId nowMs
  | (.restore key candidateId expiresAt, nowMs) =>
    ledger.restore maxEntries ttlMs key candidateId expiresAt nowMs
  | (.refresh key, nowMs) => ledger.refresh key nowMs
  | (.get _, _) => ledger
  | (.contains _, _) => ledger
  | (.invalidate key, _) => Function.update ledger key none
  | (.invalidateCandidate candidateId, _) =>
    ledger.keep fun _ binding => decide (binding.candidateId ≠ candidateId)

end AffinityLedger

/-! ## The cache follows the ledger -/

namespace AffinityCache

/-- What the cache says of every key, expired bindings included. -/
def ledger (cache : AffinityCache) : AffinityLedger := ledgerOf cache.bindings

theorem fresh_prune (cache : AffinityCache) (nowMs : Nat) :
    Fresh (cache.prune nowMs).bindings nowMs := by
  intro key binding hget
  simp only [prune, ExtTreeMap.getElem?_filter', Option.filter_eq_some_iff, decide_eq_true_eq] at hget
  exact hget.2

variable {cache : AffinityCache} {ledger : AffinityLedger} {nowMs : Nat}

theorem prune_agree (h : Ledger.Agree nowMs cache.ledger ledger) :
    Ledger.Agree nowMs (cache.prune nowMs).ledger ledger := by
  have hkeep : (cache.prune nowMs).ledger =
      cache.ledger.keep fun _ binding => decide (nowMs < binding.expiresAt) := by
    funext key
    simp only [AffinityCache.ledger, ledgerOf, prune, Ledger.keep, ExtTreeMap.getElem?_filter']
  rw [hkeep]
  exact (Ledger.agree_keep fun _ _ hlive => decide_eq_true hlive).trans h

theorem file_eq (cache : AffinityCache) (key : String) (binding : Binding) :
    cache.file key binding =
      { cache with bindings := fileInto cache.maxEntries cache.bindings key binding } := by
  have holdest : cache.evictOldest =
      { cache with bindings := Expiry.evictOldest cache.bindings } := by
    have hcompare : compareTouched = compareOldest := rfl
    unfold AffinityCache.evictOldest Expiry.evictOldest
    rw [hcompare]
    cases minBy? compareOldest cache.bindings.toList with
    | none => rfl
    | some oldest => rfl
  unfold file fileInto
  rw [holdest]
  split <;> rfl

theorem file_prune_agree (h : Ledger.Agree nowMs cache.ledger ledger) (key : String) (binding : Binding) :
    Ledger.Agree nowMs ((cache.prune nowMs).file key binding).ledger
      (ledger.file cache.maxEntries nowMs key binding) := by
  have hfile : ((cache.prune nowMs).file key binding).ledger =
      (cache.prune nowMs).ledger.file cache.maxEntries nowMs key binding := by
    unfold AffinityCache.ledger
    rw [file_eq, ledger_fileInto (cache.fresh_prune nowMs)]
    rfl
  rw [hfile]
  exact Ledger.file_agree (prune_agree h) cache.maxEntries key binding

theorem bindFor_agree (h : Ledger.Agree nowMs cache.ledger ledger) (key candidateId : String) (ttlMs : Nat) :
    Ledger.Agree nowMs (cache.bindFor key candidateId nowMs ttlMs).ledger
      (ledger.bindFor cache.maxEntries key candidateId nowMs ttlMs) := by
  unfold bindFor AffinityLedger.bindFor
  split
  · exact h
  · exact file_prune_agree h key _

theorem restore_agree (h : Ledger.Agree nowMs cache.ledger ledger) (key candidateId : String) (expiresAt : Nat) :
    Ledger.Agree nowMs (cache.restore key candidateId expiresAt nowMs).ledger
      (ledger.restore cache.maxEntries cache.ttlMs key candidateId expiresAt nowMs) := by
  unfold restore AffinityLedger.restore
  split
  · exact h
  · exact file_prune_agree h key _

variable {key : String} {binding : Binding}

/-- After pruning a key is bound exactly when its binding is live. -/
theorem getElem?_prune (h : Ledger.Agree nowMs cache.ledger ledger) :
    (cache.prune nowMs).bindings[key]? = some binding ↔
      ledger key = some binding ∧ nowMs < binding.expiresAt := by
  constructor
  · intro hget
    have hlive := cache.fresh_prune nowMs key binding hget
    exact ⟨(prune_agree h key binding hlive).mp hget, hlive⟩
  · rintro ⟨hget, hlive⟩
    exact (prune_agree h key binding hlive).mpr hget

theorem getElem?_prune_eq_none (h : Ledger.Agree nowMs cache.ledger ledger) :
    (cache.prune nowMs).bindings[key]? = none ↔ ¬ ledger.Live nowMs key := by
  rw [← not_iff_not, not_not, ← ne_eq, Option.ne_none_iff_exists']
  exact exists_congr fun binding => getElem?_prune h

theorem refresh_agree (h : Ledger.Agree nowMs cache.ledger ledger) (key : String) :
    Ledger.Agree nowMs (cache.refresh key nowMs).1.ledger (ledger.refresh key nowMs) := by
  unfold refresh AffinityLedger.refresh
  dsimp only
  cases hget : (cache.prune nowMs).bindings[key]? with
  | none =>
    rw [if_neg ((getElem?_prune_eq_none h).mp hget)]
    exact prune_agree h
  | some binding =>
    obtain ⟨hledger, hlive⟩ := (getElem?_prune h).mp hget
    rw [if_pos ⟨binding, hledger, hlive⟩, hledger, Option.map_some]
    have hinsert : ∀ renewed, AffinityCache.ledger
        { cache.prune nowMs with bindings := (cache.prune nowMs).bindings.insert key renewed } =
        Function.update (cache.prune nowMs).ledger key (some renewed) := by
      intro renewed
      funext k
      simp only [AffinityCache.ledger, ledgerOf, getElem?_insert_ite, Function.update_apply,
        eq_comm (a := key)]
    rw [hinsert]
    exact Ledger.update_agree (prune_agree h) key _

theorem bindIfUnboundOrSame_agree (h : Ledger.Agree nowMs cache.ledger ledger) (key candidateId : String) :
    Ledger.Agree nowMs (cache.bindIfUnboundOrSame key candidateId nowMs).1.ledger
      (ledger.bindIfUnboundOrSame cache.maxEntries cache.ttlMs key candidateId nowMs) := by
  unfold bindIfUnboundOrSame get AffinityLedger.bindIfUnboundOrSame
  dsimp only
  cases hget : (cache.prune nowMs).bindings[key]? with
  | none =>
    have hlive := (getElem?_prune_eq_none h).mp hget
    rw [if_neg fun ⟨binding, hledger, hlive', _⟩ => hlive ⟨binding, hledger, hlive'⟩, if_neg hlive]
    exact bindFor_agree (prune_agree h) key candidateId cache.ttlMs
  | some binding =>
    obtain ⟨hledger, hlive⟩ := (getElem?_prune h).mp hget
    dsimp only [Option.map_some]
    by_cases hsame : binding.candidateId = candidateId
    · rw [if_pos hsame, if_pos ⟨binding, hledger, hlive, hsame⟩]
      exact refresh_agree (prune_agree h) key
    · have hother : ¬ ledger.OwnedBy nowMs key candidateId := by
        rintro ⟨found, hfound, _, howner⟩
        obtain rfl := Option.some.inj (hledger.symm.trans hfound)
        exact hsame howner
      rw [if_neg hsame, if_neg hother, if_pos ⟨binding, hledger, hlive⟩]
      exact prune_agree h

/-- One call keeps the agreement. -/
theorem step_agree {call : AffinityCall}
    (h : Ledger.Agree call.2 cache.ledger ledger) :
    Ledger.Agree call.2 (cache.step call).ledger
      (ledger.step cache.maxEntries cache.ttlMs call) := by
  obtain ⟨op, nowMs⟩ := call
  cases op with
  | bind key candidateId => exact bindFor_agree h key candidateId cache.ttlMs
  | bindFor key candidateId ttlMs => exact bindFor_agree h key candidateId ttlMs
  | bindIfUnboundOrSame key candidateId => exact bindIfUnboundOrSame_agree h key candidateId
  | restore key candidateId expiresAt => exact restore_agree h key candidateId expiresAt
  | refresh key => exact refresh_agree h key
  | get key => exact prune_agree h
  | contains key => exact prune_agree h
  | invalidate key =>
    have herase : (cache.step (.invalidate key, nowMs)).ledger =
        Function.update cache.ledger key none := by
      funext k
      simp only [step, invalidate, AffinityCache.ledger, ledgerOf, getElem?_erase_ite,
        Function.update_apply, eq_comm (a := key)]
    rw [herase]
    exact Ledger.update_agree h key none
  | invalidateCandidate candidateId =>
    have hkeep : (cache.step (.invalidateCandidate candidateId, nowMs)).ledger =
        cache.ledger.keep fun _ binding => decide (binding.candidateId ≠ candidateId) := by
      funext k
      simp only [step, invalidateCandidate, AffinityCache.ledger, ledgerOf, Ledger.keep,
        ExtTreeMap.getElem?_filter']
    rw [hkeep]
    exact Ledger.keep_agree h _

/-! ## Capacity -/

/-- The call changes bindings only, and keeps them within the capacity. -/
structure WithinCapacity (cache cache' : AffinityCache) : Prop where
  maxEntries : cache'.maxEntries = cache.maxEntries
  ttlMs : cache'.ttlMs = cache.ttlMs
  size : cache.bindings.size ≤ cache.maxEntries → cache'.bindings.size ≤ cache.maxEntries

theorem WithinCapacity.refl (cache : AffinityCache) : WithinCapacity cache cache :=
  ⟨rfl, rfl, id⟩

theorem WithinCapacity.trans {cache cache' cache'' : AffinityCache}
    (h : WithinCapacity cache cache') (h' : WithinCapacity cache' cache'') :
    WithinCapacity cache cache'' where
  maxEntries := h'.maxEntries.trans h.maxEntries
  ttlMs := h'.ttlMs.trans h.ttlMs
  size hsize := by
    have hsize' := h'.size
    rw [h.maxEntries] at hsize'
    exact hsize' (h.size hsize)

theorem withinCapacity_filter (cache : AffinityCache) (p : String → Binding → Bool) :
    WithinCapacity cache { cache with bindings := cache.bindings.filter p } :=
  ⟨rfl, rfl, fun hsize => ExtTreeMap.size_filter_le_size.trans hsize⟩

theorem withinCapacity_prune (cache : AffinityCache) (nowMs : Nat) :
    WithinCapacity cache (cache.prune nowMs) :=
  withinCapacity_filter cache _

theorem withinCapacity_file (cache : AffinityCache) (hpos : 0 < cache.maxEntries) (key : String)
    (binding : Binding) : WithinCapacity cache (cache.file key binding) := by
  rw [file_eq]
  exact ⟨rfl, rfl, fun hsize => size_fileInto_le hpos hsize key binding⟩

theorem withinCapacity_bindFor (cache : AffinityCache) (key candidateId : String)
    (nowMs ttlMs : Nat) : WithinCapacity cache (cache.bindFor key candidateId nowMs ttlMs) := by
  unfold bindFor
  split
  case isTrue => exact .refl cache
  case isFalse h =>
    have hpos : 0 < cache.maxEntries := Nat.pos_of_ne_zero fun hzero => h (.inl hzero)
    exact (withinCapacity_prune cache nowMs).trans
      (withinCapacity_file (cache.prune nowMs) hpos key _)

theorem withinCapacity_restore (cache : AffinityCache) (key candidateId : String)
    (expiresAt nowMs : Nat) :
    WithinCapacity cache (cache.restore key candidateId expiresAt nowMs) := by
  unfold restore
  split
  case isTrue => exact .refl cache
  case isFalse h =>
    have hpos : 0 < cache.maxEntries := Nat.pos_of_ne_zero fun hzero => h (.inl hzero)
    exact (withinCapacity_prune cache nowMs).trans
      (withinCapacity_file (cache.prune nowMs) hpos key _)

theorem withinCapacity_refresh (cache : AffinityCache) (key : String) (nowMs : Nat) :
    WithinCapacity cache (cache.refresh key nowMs).1 := by
  unfold refresh
  dsimp only
  refine (withinCapacity_prune cache nowMs).trans ?_
  split
  · exact .refl _
  · next binding hget =>
    refine ⟨rfl, rfl, fun hsize => ?_⟩
    rw [size_insert_of_getElem? hget]
    exact hsize

theorem withinCapacity_step (cache : AffinityCache) (call : AffinityCall) :
    WithinCapacity cache (cache.step call) := by
  obtain ⟨op, nowMs⟩ := call
  cases op with
  | bind key candidateId => exact withinCapacity_bindFor cache key candidateId nowMs cache.ttlMs
  | bindFor key candidateId ttlMs => exact withinCapacity_bindFor cache key candidateId nowMs ttlMs
  | restore key candidateId expiresAt =>
    exact withinCapacity_restore cache key candidateId expiresAt nowMs
  | refresh key => exact withinCapacity_refresh cache key nowMs
  | get key => exact withinCapacity_prune cache nowMs
  | contains key => exact withinCapacity_prune cache nowMs
  | invalidateCandidate candidateId => exact withinCapacity_filter cache _
  | invalidate key =>
    exact ⟨rfl, rfl, fun hsize => ExtTreeMap.size_erase_le.trans hsize⟩
  | bindIfUnboundOrSame key candidateId =>
    simp only [step, bindIfUnboundOrSame, get]
    refine (withinCapacity_prune cache nowMs).trans ?_
    split
    · split
      · exact withinCapacity_refresh _ key nowMs
      · exact .refl _
    · exact withinCapacity_bindFor _ key candidateId nowMs _

/-! ## Evictions -/

/-- The call bound a new key while live bindings took up the capacity, and the key that made room was
the oldest live one. -/
def MadeRoom (cache : AffinityCache) (ledger : AffinityLedger) (nowMs : Nat) (key newKey : String)
    (after : AffinityCache) : Prop :=
  after.bindings[newKey]? ≠ none ∧ ¬ ledger.Live nowMs newKey ∧
    cache.maxEntries ≤ {k | ledger.Live nowMs k}.ncard ∧ ledger.Oldest nowMs key

/-- A binding that filing another one drops was the oldest live one, and the live ones took up the
capacity. -/
theorem evicted_by_file (h : Ledger.Agree nowMs cache.ledger ledger) {key newKey : String}
    {binding newBinding : Binding} (hget : cache.bindings[key]? = some binding)
    (hlive : nowMs < binding.expiresAt)
    (hgone : ((cache.prune nowMs).file newKey newBinding).bindings[key]? = none) :
    MadeRoom cache ledger nowMs key newKey ((cache.prune nowMs).file newKey newBinding) := by
  have hfiledNew : ((cache.prune nowMs).file newKey newBinding).bindings[newKey]? ≠ none := by
    rw [file_eq]
    simp [fileInto]
  refine ⟨hfiledNew, ?_⟩
  have hledger : ledger key = some binding := (h key binding hlive).mp hget
  by_contra hkept
  have hfiled := file_prune_agree h newKey newBinding
  by_cases hkey : key = newKey
  · rw [file_eq] at hgone
    simp only [fileInto, getElem?_insert_ite, hkey, if_true] at hgone
    cases hgone
  · have hfile : ledger.file cache.maxEntries nowMs newKey newBinding key = some binding := by
      unfold Ledger.file
      rw [if_neg hkey, if_neg hkept, hledger]
    have hstill := (hfiled key binding hlive).mpr hfile
    exact Option.some_ne_none _ (hstill.symm.trans hgone)

theorem getElem?_prune_of_live (hget : cache.bindings[key]? = some binding)
    (hlive : nowMs < binding.expiresAt) :
    (cache.prune nowMs).bindings[key]? = some binding :=
  (getElem?_prune (Ledger.Agree.refl nowMs cache.ledger)).mpr ⟨hget, hlive⟩

theorem evicted_by_bindFor
    (h : Ledger.Agree nowMs cache.ledger ledger) {key newKey candidateId : String} {ttlMs : Nat}
    (hget : cache.bindings[key]? = some binding)
    (hlive : nowMs < binding.expiresAt)
    (hgone : (cache.bindFor newKey candidateId nowMs ttlMs).bindings[key]? = none) :
    MadeRoom cache ledger nowMs key newKey (cache.bindFor newKey candidateId nowMs ttlMs) := by
  unfold bindFor at hgone ⊢
  split at hgone
  · exact absurd (hget.symm.trans hgone) (Option.some_ne_none _)
  · next heffective =>
    rw [if_neg heffective]
    exact evicted_by_file h hget hlive hgone

/-- Refreshing a key forgets no live binding. -/
theorem getElem?_refresh_ne_none {key refreshed : String}
    (hget : cache.bindings[key]? = some binding)
    (hlive : nowMs < binding.expiresAt) :
    (cache.refresh refreshed nowMs).1.bindings[key]? ≠ none := by
  have hpruned := getElem?_prune_of_live hget hlive
  unfold refresh
  dsimp only
  split
  · rw [hpruned]
    exact Option.some_ne_none _
  · rw [getElem?_insert_ite, hpruned]
    split <;> exact Option.some_ne_none _

end AffinityCache

/-- The key a call files a binding under when it takes effect. -/
def AffinityOp.files : AffinityOp → Option String
  | .bind key _ => some key
  | .bindFor key _ _ => some key
  | .bindIfUnboundOrSame key _ => some key
  | .restore key _ _ => some key
  | _ => none

namespace AffinityCache

variable {cache : AffinityCache} {nowMs : Nat} {key : String} {binding : Binding}

/-- A call forgets a live binding by invalidating it, or to make room for a new key. -/
theorem forgotten_by_step {ledger : AffinityLedger} {op : AffinityOp}
    (h : Ledger.Agree nowMs cache.ledger ledger)
    (hget : cache.bindings[key]? = some binding) (hlive : nowMs < binding.expiresAt)
    (hgone : (cache.step (op, nowMs)).bindings[key]? = none) :
    op = .invalidate key ∨ op = .invalidateCandidate binding.candidateId ∨
      ∃ newKey, op.files = some newKey ∧
        MadeRoom cache ledger nowMs key newKey (cache.step (op, nowMs)) := by
  have hpruned := getElem?_prune_of_live hget hlive
  cases op with
  | bind newKey candidateId =>
    exact .inr (.inr ⟨newKey, rfl, evicted_by_bindFor h hget hlive hgone⟩)
  | bindFor newKey candidateId ttlMs =>
    exact .inr (.inr ⟨newKey, rfl, evicted_by_bindFor h hget hlive hgone⟩)
  | restore newKey candidateId expiresAt =>
    simp only [step, restore] at hgone
    split at hgone
    · exact absurd (hget.symm.trans hgone) (Option.some_ne_none _)
    · next heffective =>
      refine .inr (.inr ⟨newKey, rfl, ?_⟩)
      simp only [step, restore, if_neg heffective]
      exact evicted_by_file h hget hlive hgone
  | bindIfUnboundOrSame newKey candidateId =>
    simp only [step, bindIfUnboundOrSame, get] at hgone
    split at hgone
    · split at hgone
      · exact absurd hgone (getElem?_refresh_ne_none hpruned hlive)
      · exact absurd (hpruned.symm.trans hgone) (Option.some_ne_none _)
    · next hunbound =>
      refine .inr (.inr ⟨newKey, rfl, ?_⟩)
      simp only [step, bindIfUnboundOrSame, get, hunbound]
      exact evicted_by_bindFor (prune_agree h) hpruned hlive hgone
  | refresh refreshed => exact absurd hgone (getElem?_refresh_ne_none hget hlive)
  | get _ => exact absurd (hpruned.symm.trans hgone) (Option.some_ne_none _)
  | contains _ => exact absurd (hpruned.symm.trans hgone) (Option.some_ne_none _)
  | invalidate invalidated =>
    refine .inl ?_
    simp only [step, invalidate, getElem?_erase_ite] at hgone
    split at hgone
    case isTrue heq => rw [heq]
    case isFalse => exact absurd (hget.symm.trans hgone) (Option.some_ne_none _)
  | invalidateCandidate candidateId =>
    refine .inr (.inl ?_)
    simp only [step, invalidateCandidate, ExtTreeMap.getElem?_filter', hget,
      Option.filter_eq_none_iff, Option.some.injEq, forall_eq', decide_eq_true_eq, not_not] at hgone
    rw [hgone]

/-! ## Sticky owners -/

theorem get_eq_some {key candidateId : String} :
    (cache.get key nowMs).2 = some candidateId ↔ cache.ledger.OwnedBy nowMs key candidateId := by
  unfold get AffinityLedger.OwnedBy
  dsimp only
  rw [Option.map_eq_some_iff]
  refine exists_congr fun binding => ?_
  rw [getElem?_prune (Ledger.Agree.refl nowMs cache.ledger), and_assoc]

theorem ownedBy_of_prune (hget : (cache.prune nowMs).bindings[key]? = some binding) :
    cache.ledger.OwnedBy nowMs key binding.candidateId := by
  obtain ⟨hbound, hlive⟩ := (getElem?_prune (Ledger.Agree.refl nowMs cache.ledger)).mp hget
  exact ⟨binding, hbound, hlive, rfl⟩

theorem prune_prune (cache : AffinityCache) (nowMs : Nat) :
    (cache.prune nowMs).prune nowMs = cache.prune nowMs := by
  have hbindings : ((cache.prune nowMs).prune nowMs).bindings = (cache.prune nowMs).bindings := by
    refine ExtTreeMap.ext_getElem? fun key => ?_
    simp only [prune, ExtTreeMap.getElem?_filter', Option.filter_filter, Bool.and_self]
  exact congrArg (fun bindings => ({ cache with bindings := bindings } : AffinityCache)) hbindings

theorem refresh_owner {key refreshed : String}
    (hget : (cache.refresh refreshed nowMs).1.bindings[key]? = some binding) :
    cache.ledger.OwnedBy nowMs key binding.candidateId := by
  unfold refresh at hget
  dsimp only at hget
  split at hget
  · exact ownedBy_of_prune hget
  · next found hfound =>
    rw [getElem?_insert_ite] at hget
    split at hget
    case isTrue heq =>
      obtain rfl := Option.some.inj hget
      have howned := ownedBy_of_prune hfound
      exact heq ▸ howned
    case isFalse => exact ownedBy_of_prune hget

/-- Where the bindings come from that are there after the call: they had the same owner before, or
the key had no live binding. -/
theorem bindIfUnboundOrSame_owner {key newKey candidateId : String}
    (hget : (cache.bindIfUnboundOrSame newKey candidateId nowMs).1.bindings[key]? = some binding) :
    cache.ledger.OwnedBy nowMs key binding.candidateId ∨ ¬ cache.ledger.Live nowMs key := by
  simp only [bindIfUnboundOrSame, get] at hget
  split at hget
  · split at hget
    · have howned := refresh_owner hget
      obtain ⟨found, hfound, hlive, hsame⟩ := howned
      have hbound := (prune_agree (Ledger.Agree.refl nowMs cache.ledger) key found hlive).mp hfound
      exact .inl ⟨found, hbound, hlive, hsame⟩
    · exact .inl (ownedBy_of_prune hget)
  · next hunbound =>
    rw [Option.map_eq_none_iff, getElem?_prune_eq_none (Ledger.Agree.refl nowMs cache.ledger)]
      at hunbound
    simp only [bind, bindFor, prune_prune] at hget
    split at hget
    · exact .inl (ownedBy_of_prune hget)
    · rw [file_eq] at hget
      rcases of_fileInto hget with rfl | hget
      · exact .inr hunbound
      · exact .inl (ownedBy_of_prune hget)

/-- The owner of a live key is still the owner after the call, as long as the key is bound. -/
theorem bindIfUnboundOrSame_sticky {key newKey candidateId owner owner' : String}
    {nowMs later : Nat} (howner : (cache.get key nowMs).2 = some owner)
    (hafter : ((cache.bindIfUnboundOrSame newKey candidateId nowMs).1.get key later).2 = some owner') :
    owner' = owner := by
  obtain ⟨binding, hget, hlive, rfl⟩ := get_eq_some.mp howner
  obtain ⟨binding', hget', _, rfl⟩ := get_eq_some.mp hafter
  rcases bindIfUnboundOrSame_owner hget' with ⟨found, hfound, _, hsame⟩ | hdead
  · rw [← hsame, Option.some.inj (hfound.symm.trans hget)]
  · exact absurd ⟨binding, hget, hlive⟩ hdead

/-! ## Runs -/

theorem get_eq_none_later {nowMs later : Nat}
    (h : (cache.get key nowMs).2 = none) (hle : nowMs ≤ later) : (cache.get key later).2 = none := by
  cases hlater : (cache.get key later).2 with
  | none => rfl
  | some candidateId =>
    obtain ⟨binding, hget, hlive, howner⟩ := get_eq_some.mp hlater
    have hnow := get_eq_some.mpr ⟨binding, hget, Nat.lt_of_le_of_lt hle hlive, howner⟩
    exact absurd (hnow.symm.trans h) (Option.some_ne_none _)

/-- Through sticky binds alone an owner changes only after a call that finds the key unbound. -/
theorem run_sticky {key owner owner' : String} {start later : Nat}
    {binds : List AffinityCall}
    (hsticky : ∀ call ∈ binds, ∃ newKey candidateId, call.1 = .bindIfUnboundOrSame newKey candidateId)
    (hordered : (start :: (binds.map Prod.snd ++ [later])).Pairwise (· ≤ ·))
    (howner : (cache.get key start).2 = some owner)
    (hafter : ((Runs.run step cache binds).get key later).2 = some owner') (hne : owner' ≠ owner) :
    ∃ before call after, binds = before ++ call :: after ∧
      ((Runs.run step cache before).get key call.2).2 = none := by
  induction binds generalizing cache start with
  | nil =>
    obtain ⟨binding, hget, _, rfl⟩ := get_eq_some.mp howner
    obtain ⟨binding', hget', _, rfl⟩ := get_eq_some.mp hafter
    rw [Option.some.inj (hget'.symm.trans hget)] at hne
    exact absurd rfl hne
  | cons call binds ih =>
    obtain ⟨newKey, candidateId, hcall⟩ := hsticky call List.mem_cons_self
    cases hnow : (cache.get key call.2).2 with
    | none => exact ⟨[], call, binds, rfl, hnow⟩
    | some current =>
      -- The binding is the one that was live at the start, so the owner is too.
      have hcurrent : current = owner := by
        obtain ⟨binding, hget, _, rfl⟩ := get_eq_some.mp howner
        obtain ⟨binding', hget', _, rfl⟩ := get_eq_some.mp hnow
        rw [Option.some.inj (hget'.symm.trans hget)]
      subst hcurrent
      have hstep : cache.step call = (cache.bindIfUnboundOrSame newKey candidateId call.2).1 := by
        rw [show call = (.bindIfUnboundOrSame newKey candidateId, call.2) from Prod.ext hcall rfl]
        rfl
      cases hkept : ((cache.step call).get key call.2).2 with
      | some kept =>
        obtain rfl : kept = current := by
          rw [hstep] at hkept
          exact bindIfUnboundOrSame_sticky hnow hkept
        obtain ⟨before, call', after, hbinds, hunbound⟩ :=
          ih (List.forall_mem_cons.mp hsticky).2 hordered.of_cons hkept hafter
        exact ⟨call :: before, call', after, congrArg (call :: ·) hbinds, hunbound⟩
      | none =>
        cases binds with
        | nil =>
          have hle : call.2 ≤ later := List.rel_of_pairwise_cons hordered.of_cons (by simp)
          exact absurd (hafter.symm.trans (get_eq_none_later hkept hle)) (Option.some_ne_none _)
        | cons call' binds =>
          have hle : call.2 ≤ call'.2 := List.rel_of_pairwise_cons hordered.of_cons (by simp)
          exact ⟨[call], call', binds, rfl, get_eq_none_later hkept hle⟩

theorem run_withinCapacity (cache : AffinityCache) (calls : List AffinityCall) :
    WithinCapacity cache (Runs.run step cache calls) := by
  induction calls generalizing cache with
  | nil => exact .refl cache
  | cons call calls ih => exact (withinCapacity_step cache call).trans (ih (cache.step call))

/-- A cache and a ledger that agree still agree after calls in the order of their times. -/
theorem run_agree {ledger : AffinityLedger} {start nowMs : Nat}
    {calls : List AffinityCall} (h : Ledger.Agree start cache.ledger ledger)
    (hordered : (start :: (calls.map Prod.snd ++ [nowMs])).Pairwise (· ≤ ·)) :
    Ledger.Agree nowMs (Runs.run step cache calls).ledger
      (Runs.run (AffinityLedger.step cache.maxEntries cache.ttlMs) ledger calls) := by
  induction calls generalizing cache ledger start with
  | nil => exact h.later (List.rel_of_pairwise_cons hordered (by simp))
  | cons call calls ih =>
    have hstart : start ≤ call.2 := List.rel_of_pairwise_cons hordered (by simp)
    have hstep := step_agree (h.later hstart)
    have hrun := ih hstep hordered.of_cons
    rw [(withinCapacity_step cache call).maxEntries, (withinCapacity_step cache call).ttlMs] at hrun
    exact hrun

end AffinityCache

/-! ## The specification -/

/-- A cache after calls in the order of their times holds at most `maxEntries` bindings and answers
as the ledger of the calls does. It forgets a live binding only when told to, or to make room for a
new key while `maxEntries` other keys are live, and then the oldest one. Through sticky binds alone
an owner changes only after a call that finds the key unbound. -/
theorem affinityCache_spec (maxEntries ttlMs : Nat) (calls : List AffinityCall) (nowMs : Nat)
    (hordered : (calls.map Prod.snd ++ [nowMs]).Pairwise (· ≤ ·)) :
    let cache := Runs.run AffinityCache.step ⟨∅, maxEntries, ttlMs⟩ calls
    let ledger := Runs.run (AffinityLedger.step maxEntries ttlMs) (fun _ => none) calls
    cache.bindings.size ≤ maxEntries ∧
      (∀ key candidateId, (cache.get key nowMs).2 = some candidateId ↔
        ∃ binding, ledger key = some binding ∧ nowMs < binding.expiresAt ∧
          binding.candidateId = candidateId) ∧
      (∀ op key binding, cache.bindings[key]? = some binding → nowMs < binding.expiresAt →
        (cache.step (op, nowMs)).bindings[key]? = none →
        op = .invalidate key ∨ op = .invalidateCandidate binding.candidateId ∨
          ∃ newKey, op.files = some newKey ∧ (cache.step (op, nowMs)).bindings[newKey]? ≠ none ∧
            ¬ ledger.Live nowMs newKey ∧ {k | ledger.Live nowMs k}.ncard = maxEntries ∧
            ledger.Oldest nowMs key) ∧
      ∀ (binds : List AffinityCall) (later : Nat),
        (∀ call ∈ binds, ∃ newKey candidateId, call.1 = .bindIfUnboundOrSame newKey candidateId) →
        (nowMs :: (binds.map Prod.snd ++ [later])).Pairwise (· ≤ ·) →
        ∀ key owner owner', (cache.get key nowMs).2 = some owner →
          ((Runs.run AffinityCache.step cache binds).get key later).2 = some owner' →
          owner' ≠ owner →
          ∃ before call after, binds = before ++ call :: after ∧
            ((Runs.run AffinityCache.step cache before).get key call.2).2 = none := by
  intro cache ledger
  have hempty : Ledger.Agree 0 (⟨∅, maxEntries, ttlMs⟩ : AffinityCache).ledger fun _ => none := by
    intro key binding _
    simp [AffinityCache.ledger, ledgerOf]
  have hshape := AffinityCache.run_withinCapacity ⟨∅, maxEntries, ttlMs⟩ calls
  have hcapacity : cache.maxEntries = maxEntries := hshape.maxEntries
  have hsize : cache.bindings.size ≤ maxEntries := hshape.size (by simp)
  have hagree : Ledger.Agree nowMs cache.ledger ledger :=
    AffinityCache.run_agree hempty (List.pairwise_cons.mpr ⟨fun _ _ => Nat.zero_le _, hordered⟩)
  refine ⟨hsize, fun key candidateId => ?_, fun op key binding hget hlive hgone => ?_, ?_⟩
  · rw [AffinityCache.get_eq_some]
    exact exists_congr fun binding => by
      constructor
      · rintro ⟨hget, hlive, howner⟩
        exact ⟨(hagree key binding hlive).mp hget, hlive, howner⟩
      · rintro ⟨hget, hlive, howner⟩
        exact ⟨(hagree key binding hlive).mpr hget, hlive, howner⟩
  · rcases AffinityCache.forgotten_by_step hagree hget hlive hgone with hop | hop | hop
    · exact .inl hop
    · exact .inr (.inl hop)
    · obtain ⟨newKey, hfiles, hbound, hnew, hfull, holdest⟩ := hop
      have hfull' : maxEntries ≤ {k | ledger.Live nowMs k}.ncard := hcapacity ▸ hfull
      refine .inr (.inr ⟨newKey, hfiles, hbound, hnew, Nat.le_antisymm ?_ hfull', holdest⟩)
      -- The live keys are among the bound ones.
      have hpruned := ncard_live (cache.fresh_prune nowMs)
      have hkeys : {k | ledger.Live nowMs k} = {k | (cache.prune nowMs).ledger.Live nowMs k} :=
        Set.ext fun k => ((AffinityCache.prune_agree hagree).live k).symm
      rw [hkeys]
      calc {k | (cache.prune nowMs).ledger.Live nowMs k}.ncard
          = (cache.prune nowMs).bindings.size := hpruned
        _ ≤ cache.bindings.size := ExtTreeMap.size_filter_le_size
        _ ≤ maxEntries := hsize
  · intro binds later hsticky hlater key owner owner' howner hafter hne
    exact AffinityCache.run_sticky hsticky hlater howner hafter hne

theorem affinityCache_spec_sample :
    ∃ binding, Runs.run (AffinityLedger.step 2 10) (fun _ => none)
      [(.bind "old" "a", 0), (.bind "kept" "b", 1), (.refresh "kept", 2), (.bind "new" "c", 3)]
      "kept" = some binding ∧ 3 < binding.expiresAt ∧ binding.candidateId = "b" :=
  ((affinityCache_spec 2 10
    [(.bind "old" "a", 0), (.bind "kept" "b", 1), (.refresh "kept", 2), (.bind "new" "c", 3)] 3
    (by decide)).2.1 "kept" "b").mp (by decide +kernel)

end Zenith.Scheduler
