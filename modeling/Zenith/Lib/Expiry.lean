import Zenith.Lib.Comparators
import Zenith.Lib.Tables

/-!
# Bounded tables of expiring entries

A `Ledger` says of every key what was last filed under it, expired or not. An entry is live until it
expires. Filing a new key into a ledger whose capacity is taken up by live entries drops the `Oldest`
of them: the least recently touched one, the smaller key among those touched at the same time.

A table that forgets expired entries whenever it likes agrees with the ledger from then on (`Agree`):
the two say the same of every entry that is still live. Filing, dropping and changing live entries
keep the agreement, so a pruning table can be read as the ledger (`file_agree`, `update_agree`,
`drop_agree`). `ledger_prune` and `ledger_fileInto` are the two facts about the table itself.
-/

namespace Zenith.Expiry

open Std Zenith.Tables Zenith.Comparators

/-- Entries with the time they expire at and the time they were last touched at. -/
class Clocked (β : Type) where
  expires : β → Nat
  touched : β → Nat

open Clocked

/-- What was last filed under each key. -/
abbrev Ledger (κ β : Type) := κ → Option β

variable {κ β : Type}

/-! ## Ledgers -/

namespace Ledger

section
variable [Clocked β]

def Live (ledger : Ledger κ β) (now : Nat) (key : κ) : Prop :=
  ∃ entry, ledger key = some entry ∧ now < expires entry

/-- The entry goes before the other one when room is made. -/
def Before [Ord κ] (key : κ) (entry : β) (key' : κ) (entry' : β) : Prop :=
  touched entry < touched entry' ∨ touched entry = touched entry' ∧ compare key key' = .lt

def Oldest [Ord κ] (ledger : Ledger κ β) (now : Nat) (key : κ) : Prop :=
  ∃ entry, ledger key = some entry ∧ now < expires entry ∧
    ∀ key' entry', ledger key' = some entry' → now < expires entry' → key' ≠ key →
      Before key entry key' entry'

open Classical in
/-- Files an entry. A new key drops the oldest live entry when the live entries take up the
capacity. -/
noncomputable def file [Ord κ] (capacity : Nat) (ledger : Ledger κ β) (now : Nat) (key : κ)
    (entry : β) : Ledger κ β := fun k =>
  if k = key then some entry
  else if ¬ ledger.Live now key ∧ capacity ≤ {k | ledger.Live now k}.ncard ∧ ledger.Oldest now k then
    none
  else ledger k

end

/-- Drops the entries that do not pass. -/
def keep (p : κ → β → Bool) (ledger : Ledger κ β) : Ledger κ β := fun k => (ledger k).filter (p k)

variable [Clocked β]

/-! ## Agreement -/

/-- The ledgers say the same of the entries that are live at the time or later. -/
def Agree (now : Nat) (ledger ledger' : Ledger κ β) : Prop :=
  ∀ key entry, now < expires entry → (ledger key = some entry ↔ ledger' key = some entry)

theorem Agree.refl (now : Nat) (ledger : Ledger κ β) : Agree now ledger ledger :=
  fun _ _ _ => Iff.rfl

variable {now : Nat}

theorem Agree.trans {ledger ledger' ledger'' : Ledger κ β}
    (h : Agree now ledger ledger') (h' : Agree now ledger' ledger'') : Agree now ledger ledger'' :=
  fun key entry hlive => (h key entry hlive).trans (h' key entry hlive)

variable {ledger ledger' : Ledger κ β}

theorem Agree.later {now now' : Nat} (h : Agree now ledger ledger')
    (hle : now ≤ now') : Agree now' ledger ledger' :=
  fun key entry hlive => h key entry (Nat.lt_of_le_of_lt hle hlive)

theorem Agree.live (h : Agree now ledger ledger')
    (key : κ) : ledger.Live now key ↔ ledger'.Live now key :=
  exists_congr fun entry => and_congr_left fun hlive => h key entry hlive

theorem Agree.oldest [Ord κ]
    (h : Agree now ledger ledger') (key : κ) : ledger.Oldest now key ↔ ledger'.Oldest now key := by
  refine exists_congr fun entry => ?_
  constructor
  · rintro ⟨hget, hlive, hleast⟩
    refine ⟨(h key entry hlive).mp hget, hlive, fun key' entry' hget' hlive' => ?_⟩
    exact hleast key' entry' ((h key' entry' hlive').mpr hget') hlive'
  · rintro ⟨hget, hlive, hleast⟩
    refine ⟨(h key entry hlive).mpr hget, hlive, fun key' entry' hget' hlive' => ?_⟩
    exact hleast key' entry' ((h key' entry' hlive').mp hget') hlive'

theorem file_agree [Ord κ]
    (h : Agree now ledger ledger') (capacity : Nat) (key : κ) (entry : β) :
    Agree now (file capacity ledger now key entry) (file capacity ledger' now key entry) := by
  have hkeys : {k | ledger.Live now k} = {k | ledger'.Live now k} := Set.ext h.live
  intro k e hlive
  have hdrops : (¬ ledger.Live now key ∧ capacity ≤ {k | ledger.Live now k}.ncard ∧
      ledger.Oldest now k) ↔ (¬ ledger'.Live now key ∧
      capacity ≤ {k | ledger'.Live now k}.ncard ∧ ledger'.Oldest now k) := by
    rw [h.live, h.oldest, hkeys]
  unfold file
  by_cases hk : k = key
  · rw [if_pos hk, if_pos hk]
  · rw [if_neg hk, if_neg hk]
    by_cases hdrop : ¬ ledger.Live now key ∧ capacity ≤ {k | ledger.Live now k}.ncard ∧
        ledger.Oldest now k
    · rw [if_pos hdrop, if_pos (hdrops.mp hdrop)]
    · rw [if_neg hdrop, if_neg (mt hdrops.mpr hdrop)]
      exact h k e hlive

theorem keep_agree (h : Agree now ledger ledger')
    (p : κ → β → Bool) : Agree now (ledger.keep p) (ledger'.keep p) := by
  intro k e hlive
  simp only [keep, Option.filter_eq_some_iff]
  exact and_congr_left fun _ => h k e hlive

theorem update_agree [DecidableEq κ]
    (h : Agree now ledger ledger') (key : κ) (entry : Option β) :
    Agree now (Function.update ledger key entry) (Function.update ledger' key entry) := by
  intro k e hlive
  simp only [Function.update_apply]
  split
  · exact Iff.rfl
  · exact h k e hlive

/-- Dropping expired entries is not noticed. -/
theorem agree_keep {ledger : Ledger κ β} {p : κ → β → Bool}
    (hp : ∀ key entry, now < expires entry → p key entry = true) :
    Agree now (ledger.keep p) ledger := by
  intro k e hlive
  simp only [keep, Option.filter_eq_some_iff]
  exact ⟨And.left, fun h => ⟨h, hp k e hlive⟩⟩

end Ledger

/-! ## Tables -/

/-- What a table says of every key. -/
def ledgerOf [Ord κ] [TransOrd κ] (t : Table κ β) : Ledger κ β := fun key => t[key]?

section Extrema
variable {α : Type} {cmp : α → α → Ordering}

theorem minBy?_spec [TransCmp cmp] {l : List α} {m : α} (h : minBy? cmp l = some m) :
    m ∈ l ∧ ∀ x ∈ l, (cmp m x).isLE := by
  cases l with
  | nil => cases h
  | cons x xs =>
    rw [← Option.some.inj h]
    clear h m
    induction xs generalizing x with
    | nil => simp [ReflCmp.compare_self]
    | cons y ys ih =>
      rw [List.foldl_cons]
      split
      case isTrue hgt =>
        obtain ⟨hmem, hleast⟩ := ih y
        refine ⟨List.mem_cons_of_mem x hmem, List.forall_mem_cons.mpr ⟨?_, hleast⟩⟩
        have hswap : cmp y x = (cmp x y).swap := OrientedCmp.eq_swap
        have hyx : (cmp y x).isLE := by
          rw [hswap, hgt]
          rfl
        exact TransCmp.isLE_trans (hleast y List.mem_cons_self) hyx
      case isFalse hgt =>
        obtain ⟨hmem, hleast⟩ := ih x
        have hxy : (cmp x y).isLE := by
          cases hc : cmp x y with
          | gt => exact absurd hc hgt
          | lt => rfl
          | eq => rfl
        have hbest := hleast x List.mem_cons_self
        refine ⟨?_, List.forall_mem_cons.mpr ⟨hbest, List.forall_mem_cons.mpr ⟨?_, ?_⟩⟩⟩
        · rcases List.mem_cons.mp hmem with heq | hmem
          · exact List.mem_cons.mpr (.inl heq)
          · exact List.mem_cons_of_mem _ (List.mem_cons_of_mem _ hmem)
        · exact TransCmp.isLE_trans hbest hxy
        · exact fun z hz => hleast z (List.mem_cons_of_mem x hz)

end Extrema

section
variable [Ord κ] [TransOrd κ] [LawfulEqOrd κ] [Clocked β]

/-- The order in which entries make room. -/
def compareOldest (left right : κ × β) : Ordering :=
  (compare (touched left.2) (touched right.2)).then (compare left.1 right.1)

instance : TransCmp (compareOldest : κ × β → κ × β → Ordering) :=
  inferInstanceAs (TransCmp (compareLex (compareOn fun pair : κ × β => touched pair.2)
    (compareOn Prod.fst)))

omit [TransOrd κ] [LawfulEqOrd κ] in
theorem compareOldest_eq_lt {key key' : κ} {entry entry' : β} :
    compareOldest (key, entry) (key', entry') = .lt ↔ Ledger.Before key entry key' entry' := by
  unfold compareOldest Ledger.Before
  rw [Ordering.then_eq_lt, Nat.compare_eq_lt, Nat.compare_eq_eq]

/-- Drops the oldest entry, expired or not. -/
def evictOldest (t : Table κ β) : Table κ β :=
  match minBy? compareOldest t.toList with
  | some (key, _) => t.erase key
  | none => t

/-- Files an entry, making room for a new key when the table is full. -/
def fileInto (capacity : Nat) (t : Table κ β) (key : κ) (entry : β) : Table κ β :=
  (if !t.contains key && decide (capacity ≤ t.size) then evictOldest t else t).insert key entry

/-- Every entry is live. -/
def Fresh (t : Table κ β) (now : Nat) : Prop :=
  ∀ (key : κ) (entry : β), t[key]? = some entry → now < expires entry

variable {t : Table κ β} {now : Nat}

omit [LawfulEqOrd κ] in
theorem live_ledgerOf (h : Fresh t now) (key : κ) :
    (ledgerOf t).Live now key ↔ t.contains key = true := by
  rw [← ExtTreeMap.isSome_getElem?_eq_contains, Option.isSome_iff_exists]
  exact exists_congr fun entry => and_iff_left_of_imp (h key entry)

theorem ncard_live (h : Fresh t now) :
    {k | (ledgerOf t).Live now k}.ncard = t.size := by
  classical
  have hkeys : {k | (ledgerOf t).Live now k} = ((t.toList.map Prod.fst).toFinset : Set κ) := by
    ext k
    rw [Set.mem_ofPred_eq, live_ledgerOf h, List.coe_toFinset, Set.mem_ofPred_eq, List.mem_map,
      ← ExtTreeMap.isSome_getElem?_eq_contains, Option.isSome_iff_exists]
    constructor
    · rintro ⟨entry, hget⟩
      exact ⟨(k, entry), ExtTreeMap.mem_toList_iff_getElem?_eq_some.mpr hget, rfl⟩
    · rintro ⟨⟨_, entry⟩, hmem, rfl⟩
      exact ⟨entry, ExtTreeMap.mem_toList_iff_getElem?_eq_some.mp hmem⟩
  rw [hkeys, Set.ncard_coe_finset, List.toFinset_card_of_nodup (nodup_keys_toList t),
    List.length_map, ExtTreeMap.length_toList]

/-- The entry a table of live entries drops first is the oldest one of its ledger. -/
theorem oldest_iff (h : Fresh t now) (key : κ) :
    (ledgerOf t).Oldest now key ↔ ∃ entry, minBy? compareOldest t.toList = some (key, entry) := by
  constructor
  · rintro ⟨entry, hget, _, hleast⟩
    cases hmin : minBy? compareOldest t.toList with
    | none =>
      have hmem := ExtTreeMap.mem_toList_iff_getElem?_eq_some.mpr hget
      cases hl : t.toList with
      | nil => rw [hl] at hmem; cases hmem
      | cons x xs => rw [hl] at hmin; cases hmin
    | some found =>
      obtain ⟨key', entry'⟩ := found
      obtain ⟨hmem, hle⟩ := minBy?_spec hmin
      have hget' := ExtTreeMap.mem_toList_iff_getElem?_eq_some.mp hmem
      by_cases hkey : key' = key
      · exact ⟨entry', by rw [hkey]⟩
      · -- The other entry would go before the oldest one.
        have hbefore := hleast key' entry' hget' (h key' entry' hget') hkey
        have hlt := compareOldest_eq_lt.mpr hbefore
        have hle' := hle (key, entry) (ExtTreeMap.mem_toList_iff_getElem?_eq_some.mpr hget)
        have hswap : compareOldest (key', entry') (key, entry) =
            (compareOldest (key, entry) (key', entry')).swap := OrientedCmp.eq_swap
        rw [hswap, hlt] at hle'
        cases hle'
  · rintro ⟨entry, hmin⟩
    obtain ⟨hmem, hle⟩ := minBy?_spec hmin
    have hget := ExtTreeMap.mem_toList_iff_getElem?_eq_some.mp hmem
    refine ⟨entry, hget, h key entry hget, fun key' entry' hget' _ hne => ?_⟩
    have hle' := hle (key', entry') (ExtTreeMap.mem_toList_iff_getElem?_eq_some.mpr hget')
    refine compareOldest_eq_lt.mp ?_
    cases hc : compareOldest (key, entry) (key', entry') with
    | lt => rfl
    | gt => rw [hc] at hle'; cases hle'
    | eq =>
      have hkeys := (Ordering.then_eq_eq.mp hc).2
      exact absurd (LawfulEqCmp.eq_of_compare hkeys).symm hne

/-- A table of live entries files as its ledger does. -/
theorem ledger_fileInto [DecidableEq κ] (h : Fresh t now)
    (capacity : Nat) (key : κ) (entry : β) :
    ledgerOf (fileInto capacity t key entry) = (ledgerOf t).file capacity now key entry := by
  funext k
  have hdrops : (¬ (ledgerOf t).Live now key ∧ capacity ≤ {k | (ledgerOf t).Live now k}.ncard ∧
      (ledgerOf t).Oldest now k) ↔ (t.contains key = false ∧ capacity ≤ t.size) ∧
      ∃ entry, minBy? compareOldest t.toList = some (k, entry) := by
    rw [live_ledgerOf h, ncard_live h, oldest_iff h, Bool.not_eq_true, and_assoc]
  unfold Ledger.file
  simp only [ledgerOf, fileInto, getElem?_insert_ite, eq_comm (a := key)]
  by_cases hk : k = key
  · rw [if_pos hk, if_pos hk]
  · rw [if_neg hk, if_neg hk]
    by_cases hfull : t.contains key = false ∧ capacity ≤ t.size
    · have hroom : (!t.contains key && decide (capacity ≤ t.size)) = true := by simpa using hfull
      rw [if_pos hroom]
      unfold evictOldest
      cases hmin : minBy? compareOldest t.toList with
      | none =>
        rw [if_neg fun hdrop => ?_]
        obtain ⟨entry, hsome⟩ := (hdrops.mp hdrop).2
        exact Option.some_ne_none _ (hsome.symm.trans hmin)
      | some found =>
        simp only [getElem?_erase_ite]
        by_cases hfound : found.1 = k
        · rw [if_pos hfound, if_pos (hdrops.mpr ⟨hfull, found.2, by rw [hmin, ← hfound]⟩)]
        · rw [if_neg hfound, if_neg fun hdrop => ?_]
          obtain ⟨entry, hsome⟩ := (hdrops.mp hdrop).2
          exact hfound (congrArg Prod.fst (Option.some.inj (hmin.symm.trans hsome)))
    · have hroom : ¬ (!t.contains key && decide (capacity ≤ t.size)) = true := by simpa using hfull
      rw [if_neg hroom, if_neg fun hdrop => hfull (hdrops.mp hdrop).1]

/-- What is there after filing was filed now or was there before. -/
theorem of_fileInto [DecidableEq κ] {capacity : Nat} {key k : κ} {entry found : β}
    (h : (fileInto capacity t key entry)[k]? = some found) : k = key ∨ t[k]? = some found := by
  unfold fileInto at h
  rw [getElem?_insert_ite] at h
  split at h
  case isTrue heq => exact .inl heq.symm
  case isFalse =>
    refine .inr ?_
    split at h
    · unfold evictOldest at h
      split at h
      · rw [getElem?_erase_ite] at h
        split at h
        · cases h
        · exact h
      · exact h
    · exact h

theorem size_evictOldest (hpos : 0 < t.size) :
    (evictOldest t).size = t.size - 1 := by
  unfold evictOldest
  cases hmin : minBy? compareOldest t.toList with
  | none =>
    have hlen : t.toList.length = t.size := ExtTreeMap.length_toList
    cases hl : t.toList with
    | nil => rw [hl] at hlen; exact absurd hlen (Nat.ne_of_lt hpos)
    | cons x xs => rw [hl] at hmin; cases hmin
  | some found =>
    have hget := ExtTreeMap.mem_toList_iff_getElem?_eq_some.mp (minBy?_spec hmin).1
    simp only [ExtTreeMap.size_erase, contains_of_getElem? hget, if_true]

theorem size_fileInto_le {capacity : Nat} (hpos : 0 < capacity)
    (hsize : t.size ≤ capacity) (key : κ) (entry : β) :
    (fileInto capacity t key entry).size ≤ capacity := by
  unfold fileInto
  by_cases hkey : t.contains key = true
  · rw [hkey, ExtTreeMap.size_insert]
    simp only [Bool.not_true, Bool.false_and, Bool.false_eq_true, if_false, hkey, if_true]
    exact hsize
  · rw [Bool.not_eq_true] at hkey
    simp only [hkey, Bool.not_false, Bool.true_and, decide_eq_true_eq]
    split
    case isTrue hfull =>
      have herase := size_evictOldest (Nat.lt_of_lt_of_le hpos hfull)
      have hinsert := ExtTreeMap.size_insert_le (t := evictOldest t) (k := key) (v := entry)
      omega
    case isFalse hroom =>
      have hinsert := ExtTreeMap.size_insert_le (t := t) (k := key) (v := entry)
      omega

end

end Zenith.Expiry
