import Zenith.Pricing.Catalog

/-!
# What an account pays

`Loaded` says what a catalog knows of the entries of its document: which ids are conflicts, and, as
long as an id is none, that all its entries have one price. From it `quote_iff` reads the price of an
account off the entries, whatever order they came in.

The entries whose id is a conflict are left out before the prices of the other aliases are compared.
So a quote speaks for all aliases of the model exactly when those left out do not disagree with it
(`resolveAccount_unambiguous_iff`).
-/

namespace Zenith.Pricing

open Std Zenith.Tables Zenith.Usage

/-! ## Entries -/

/-- What aliases are compared by. -/
def CatalogEntry.pricing (entry : CatalogEntry) :
    Option String × Option TokenPrice × Option ImageModelPrice × Option Nat :=
  (entry.provider, entry.token, entry.image, entry.requestMicroUsd)

variable {entry other : CatalogEntry}

theorem equivalentPricing_iff :
    entry.equivalentPricing other = true ↔ entry.pricing = other.pricing := by
  simp [CatalogEntry.equivalentPricing, CatalogEntry.pricing, and_assoc]

/-- The entry of a record, if it has one. -/
def entryOf (record : String × Json) : Option CatalogEntry :=
  if maxCacheStringLength < record.1.utf8ByteSize then none
  else
    match parseEntry record.1 record.2 with
    | .error _ => none
    | .ok entry => entry

def entriesOf (records : Json.Fields) : List CatalogEntry := records.filterMap entryOf

variable {entry : CatalogEntry}

theorem modelId_of_parseEntry {modelId : String} {value : Json}
    (h : parseEntry modelId value = .ok (some entry)) : entry.modelId = modelId := by
  unfold parseEntry at h
  split at h
  · cases h
  · obtain ⟨token, -, h⟩ := bind_eq_ok.mp h
    obtain ⟨image, -, h⟩ := bind_eq_ok.mp h
    obtain ⟨requestMicroUsd, -, h⟩ := bind_eq_ok.mp h
    split at h
    · cases h
    · cases h
      rfl

theorem modelId_of_entryOf {record : String × Json}
    (h : entryOf record = some entry) : entry.modelId = record.1 := by
  unfold entryOf at h
  split at h
  · cases h
  · split at h
    · cases h
    · next parsed hparse =>
      subst h
      exact modelId_of_parseEntry hparse

variable {records : Json.Fields}

/-- Different records have entries with different ids. -/
theorem nodup_entriesOf (h : (records.map Prod.fst).Nodup) :
    ((entriesOf records).map (·.modelId)).Nodup := by
  have hsub : ((entriesOf records).map (·.modelId)).Sublist (records.map Prod.fst) := by
    clear h
    induction records with
    | nil => exact List.Sublist.refl _
    | cons record records ih =>
      unfold entriesOf at ih ⊢
      rw [List.map_cons, List.filterMap_cons]
      cases hentry : entryOf record with
      | none => exact ih.cons record.1
      | some entry =>
        rw [← modelId_of_entryOf hentry]
        exact ih.cons_cons entry.modelId
  exact h.sublist hsub

/-! ## Loading -/

/-- An id under which two entries have different prices. -/
def Conflicting (entries : List CatalogEntry) (key : String) : Prop :=
  ∃ entry ∈ entries, ∃ other ∈ entries, normalize entry.modelId = key ∧
    normalize other.modelId = key ∧ entry.pricing ≠ other.pricing

variable {key : String}

variable {entries entries' : List CatalogEntry}

theorem Conflicting.mono (h : Conflicting entries key) (hsub : entries ⊆ entries') : Conflicting entries' key := by
  obtain ⟨entry, hentry, other, hother, hrest⟩ := h
  exact ⟨entry, hsub hentry, other, hsub hother, hrest⟩

/-- What a catalog knows of the entries it was loaded from. -/
structure Loaded (catalog : PricingCatalog) (entries : List CatalogEntry) : Prop where
  entries_iff : ∀ (key : String) (entry : CatalogEntry), catalog.entries[key]? = some entry ↔
    entry ∈ entries ∧ entry.modelId = key
  conflicts_iff : ∀ key, key ∈ catalog.conflicts ↔ Conflicting entries key
  unique_some : ∀ (key : String) (entry : CatalogEntry), catalog.unique[key]? = some entry →
    entry ∈ entries ∧ normalize entry.modelId = key ∧ key ∉ catalog.conflicts
  unique_none : ∀ key : String, catalog.unique[key]? = none → key ∉ catalog.conflicts →
    ∀ entry ∈ entries, normalize entry.modelId ≠ key

/-- The catalog with one more entry. -/
def PricingCatalog.addEntry (catalog : PricingCatalog) (entry : CatalogEntry) : PricingCatalog :=
  { catalog.noteUnique (normalize entry.modelId) entry with
    entries := catalog.entries.insert entry.modelId entry }

theorem addRecord_eq (catalog : PricingCatalog) (record : String × Json) :
    catalog.addRecord record = (entryOf record).elim catalog catalog.addEntry := by
  unfold PricingCatalog.addRecord entryOf
  split
  · rfl
  · cases hparse : parseEntry record.1 record.2 with
    | error error => rfl
    | ok parsed =>
      cases parsed with
      | none => rfl
      | some entry =>
        have hid := modelId_of_parseEntry hparse
        dsimp only [Option.elim_some]
        rw [PricingCatalog.addEntry, hid]

variable {entries : List CatalogEntry}

/-- The conflicts after one more entry. -/
theorem conflicting_concat :
    Conflicting (entries ++ [entry]) key ↔ Conflicting entries key ∨
      normalize entry.modelId = key ∧
        ∃ other ∈ entries, normalize other.modelId = key ∧ other.pricing ≠ entry.pricing := by
  constructor
  · rintro ⟨first, hfirst, second, hsecond, hkey, hkey', hne⟩
    rcases List.mem_append.mp hfirst with hold | hlast
    · rcases List.mem_append.mp hsecond with hold' | hlast'
      · exact .inl ⟨first, hold, second, hold', hkey, hkey', hne⟩
      · rw [List.mem_singleton.mp hlast'] at hkey' hne
        exact .inr ⟨hkey', first, hold, hkey, hne⟩
    · rw [List.mem_singleton.mp hlast] at hkey hne
      rcases List.mem_append.mp hsecond with hold' | hlast'
      · exact .inr ⟨hkey, second, hold', hkey', Ne.symm hne⟩
      · rw [List.mem_singleton.mp hlast'] at hne
        exact absurd rfl hne
  · rintro (hconflict | ⟨hkey, other, hother, hkey', hne⟩)
    · exact hconflict.mono (List.subset_append_left _ _)
    · exact ⟨other, List.mem_append_left _ hother, entry, by simp, hkey', hkey, hne⟩

/-- Entries under an id that is no conflict have one price. -/
theorem pricing_eq_of_not_conflicting (h : ¬ Conflicting entries key) (hentry : entry ∈ entries)
    (hother : other ∈ entries) (hkey : normalize entry.modelId = key)
    (hkey' : normalize other.modelId = key) : entry.pricing = other.pricing := by
  by_contra hne
  exact h ⟨entry, hentry, other, hother, hkey, hkey', hne⟩

variable {catalog : PricingCatalog}

/-- An id stands for itself or is a conflict, after one more entry too. -/
theorem Loaded.noteUnique (h : Loaded catalog entries) (entry : CatalogEntry) :
    let catalog' := catalog.noteUnique (normalize entry.modelId) entry
    (∀ key, key ∈ catalog'.conflicts ↔ Conflicting (entries ++ [entry]) key) ∧
      (∀ (key : String) (found : CatalogEntry), catalog'.unique[key]? = some found →
        found ∈ entries ++ [entry] ∧ normalize found.modelId = key ∧ key ∉ catalog'.conflicts) ∧
      ∀ key : String, catalog'.unique[key]? = none → key ∉ catalog'.conflicts →
        ∀ other ∈ entries ++ [entry], normalize other.modelId ≠ key := by
  intro catalog'
  have hdef : catalog' = catalog.noteUnique (normalize entry.modelId) entry := rfl
  clear_value catalog'
  have hkept : ∀ (key : String) (found : CatalogEntry), catalog.unique[key]? = some found →
      found ∈ entries ++ [entry] ∧ normalize found.modelId = key ∧ key ∉ catalog.conflicts := by
    intro key found hfound
    obtain ⟨hmem, hkey, hfree⟩ := h.unique_some key found hfound
    exact ⟨List.mem_append_left _ hmem, hkey, hfree⟩
  cases hunique : catalog.unique[normalize entry.modelId]? with
  | some existing =>
    obtain ⟨hexisting, hkey, hfree⟩ := h.unique_some _ existing hunique
    have hone : ∀ other ∈ entries, normalize other.modelId = normalize entry.modelId →
        other.pricing = existing.pricing := fun other hother hkey' =>
      pricing_eq_of_not_conflicting (mt (h.conflicts_iff _).mpr hfree) hother hexisting hkey' hkey
    by_cases hsame : existing.equivalentPricing entry = true
    · -- The entry has the price its id has already.
      obtain rfl : catalog' = catalog := by
        simp only [hdef, PricingCatalog.noteUnique, hunique, hsame, if_true]
      refine ⟨fun key => ?_, hkept, fun key hnone hfree' other hother => ?_⟩
      · rw [h.conflicts_iff, conflicting_concat]
        refine ⟨.inl, fun hconflict => hconflict.resolve_right ?_⟩
        rintro ⟨rfl, other, hother, hkey', hne⟩
        exact hne ((hone other hother hkey').trans (equivalentPricing_iff.mp hsame))
      · rcases List.mem_append.mp hother with hold | hlast
        · exact h.unique_none key hnone hfree' other hold
        · rintro rfl
          rw [List.mem_singleton.mp hlast, hunique] at hnone
          cases hnone
    · -- The id becomes a conflict.
      have hcatalog' : catalog' =
          { catalog with
            conflicts := insert (normalize entry.modelId) catalog.conflicts
            unique := catalog.unique.erase (normalize entry.modelId) } := by
        simp only [hdef, PricingCatalog.noteUnique, hunique, hsame]
        rfl
      rw [hcatalog']
      refine ⟨fun key => ?_, fun key found hfound => ?_, fun key hnone hfree' other hother => ?_⟩
      · rw [Finset.mem_insert, h.conflicts_iff, conflicting_concat]
        constructor
        · rintro (rfl | hconflict)
          · exact .inr ⟨rfl, existing, hexisting, hkey, mt equivalentPricing_iff.mpr hsame⟩
          · exact .inl hconflict
        · rintro (hconflict | ⟨hkey', -⟩)
          · exact .inr hconflict
          · exact .inl hkey'.symm
      · rw [getElem?_erase_ite] at hfound
        split at hfound
        case isTrue => cases hfound
        case isFalse hother =>
          obtain ⟨hmem, hkey', hfree'⟩ := hkept key found hfound
          refine ⟨hmem, hkey', ?_⟩
          rw [Finset.mem_insert, not_or]
          exact ⟨Ne.symm hother, hfree'⟩
      · rw [Finset.mem_insert, not_or] at hfree'
        rw [getElem?_erase_ite, if_neg (Ne.symm hfree'.1)] at hnone
        rcases List.mem_append.mp hother with hold | hlast
        · exact h.unique_none key hnone hfree'.2 other hold
        · rw [List.mem_singleton.mp hlast]
          exact Ne.symm hfree'.1
  | none =>
    by_cases hconflict : normalize entry.modelId ∈ catalog.conflicts
    · -- A conflict stays one.
      obtain rfl : catalog' = catalog := by
        simp only [hdef, PricingCatalog.noteUnique, hunique, hconflict, if_true]
      refine ⟨fun key => ?_, hkept, fun key hnone hfree other hother => ?_⟩
      · rw [h.conflicts_iff, conflicting_concat]
        refine ⟨.inl, fun hconflict' => hconflict'.elim id ?_⟩
        rintro ⟨rfl, -⟩
        exact (h.conflicts_iff _).mp hconflict
      · rcases List.mem_append.mp hother with hold | hlast
        · exact h.unique_none key hnone hfree other hold
        · rintro rfl
          rw [List.mem_singleton.mp hlast] at hfree
          exact hfree hconflict
    · -- The entry is the first of its id.
      have hcatalog' : catalog' =
          { catalog with unique := catalog.unique.insert (normalize entry.modelId) entry } := by
        simp only [hdef, PricingCatalog.noteUnique, hunique, hconflict, if_false]
      rw [hcatalog']
      refine ⟨fun key => ?_, fun key found hfound => ?_, fun key hnone hfree other hother => ?_⟩
      · rw [h.conflicts_iff, conflicting_concat]
        refine ⟨.inl, fun hconflict' => hconflict'.resolve_right ?_⟩
        rintro ⟨rfl, other, hother, hkey, -⟩
        exact h.unique_none _ hunique hconflict other hother hkey
      · rw [getElem?_insert_ite] at hfound
        split at hfound
        case isTrue hkey =>
          obtain rfl := Option.some.inj hfound
          exact ⟨by simp, hkey, hkey ▸ hconflict⟩
        case isFalse => exact hkept key found hfound
      · rw [getElem?_insert_ite] at hnone
        split at hnone
        case isTrue => cases hnone
        case isFalse hkey =>
          rcases List.mem_append.mp hother with hold | hlast
          · exact h.unique_none key hnone hfree other hold
          · rw [List.mem_singleton.mp hlast]
            exact hkey

theorem Loaded.addEntry (h : Loaded catalog entries)
    (hnew : entry.modelId ∉ entries.map (·.modelId)) :
    Loaded (catalog.addEntry entry) (entries ++ [entry]) := by
  obtain ⟨hconflicts, hsome, hnone⟩ := h.noteUnique entry
  refine ⟨fun key found => ?_, hconflicts, hsome, hnone⟩
  show (catalog.entries.insert entry.modelId entry)[key]? = some found ↔ _
  rw [getElem?_insert_ite, List.mem_append, List.mem_singleton]
  split
  case isTrue hkey =>
    constructor
    · intro heq
      obtain rfl := Option.some.inj heq
      exact ⟨.inr rfl, hkey⟩
    · rintro ⟨hold | rfl, hkey'⟩
      · exact absurd (List.mem_map.mpr ⟨found, hold, hkey'.trans hkey.symm⟩) hnew
      · rfl
  case isFalse hkey =>
    rw [h.entries_iff]
    constructor
    · exact fun hold => ⟨.inl hold.1, hold.2⟩
    · rintro ⟨hold | rfl, hkey'⟩
      · exact ⟨hold, hkey'⟩
      · exact absurd hkey' hkey

theorem loaded_empty (revision : Option String) (fetchedAtMs : Option Nat) (stale : Bool) :
    Loaded { revision, fetchedAtMs, stale } [] where
  entries_iff key entry := by simp
  conflicts_iff key := by simp [Conflicting]
  unique_some key entry h := by simp at h
  unique_none key _ _ := by simp

theorem loaded_foldl (h : Loaded catalog entries)
    (hids : ((entries ++ entriesOf records).map (·.modelId)).Nodup) :
    Loaded (records.foldl PricingCatalog.addRecord catalog) (entries ++ entriesOf records) := by
  induction records generalizing catalog entries with
  | nil => exact (List.append_nil entries).symm ▸ h
  | cons record records ih =>
    rw [List.foldl_cons, addRecord_eq]
    unfold entriesOf at hids ih ⊢
    rw [List.filterMap_cons] at hids ⊢
    cases hentry : entryOf record with
    | none =>
      rw [hentry] at hids
      exact ih h hids
    | some entry =>
      rw [hentry] at hids
      dsimp only [Option.elim_some] at hids ⊢
      rw [List.append_cons] at hids ⊢
      refine ih (h.addEntry ?_) hids
      have hfront : ((entries ++ [entry]).map (·.modelId)).Nodup := by
        rw [List.map_append] at hids
        exact hids.of_append_left
      rw [List.map_append, List.map_singleton] at hfront
      exact fun hmem => (List.nodup_append.mp hfront).2.2 _ hmem _ (List.mem_singleton_self _) rfl

/-! ## Resolving -/

/-- The entry is an alias of the model in the provider family. -/
def Matches (model family : String) (entry : CatalogEntry) : Prop :=
  entry.provider = some (normalize family) ∧ unqualified entry.modelId = unqualified model

instance (model family : String) (entry : CatalogEntry) : Decidable (Matches model family entry) :=
  inferInstanceAs (Decidable (_ ∧ _))

/-- An alias whose id is a conflict. -/
def Contested (entries : List CatalogEntry) (model family : String) (entry : CatalogEntry) : Prop :=
  entry ∈ entries ∧ Matches model family entry ∧ Conflicting entries (normalize entry.modelId)

def Uncontested (entries : List CatalogEntry) (model family : String) (entry : CatalogEntry) : Prop :=
  entry ∈ entries ∧ Matches model family entry ∧ ¬ Conflicting entries (normalize entry.modelId)

section
variable {catalog : PricingCatalog} {entries : List CatalogEntry}

variable {model family : String}

theorem mem_candidates (h : Loaded catalog entries) {entry : CatalogEntry} :
    entry ∈ (valuesOf catalog.entries).filter (catalog.isCandidate model family) ↔
      Uncontested entries model family entry := by
  have hmem : entry ∈ valuesOf catalog.entries ↔ entry ∈ entries := by
    rw [mem_valuesOf]
    constructor
    · rintro ⟨key, hget⟩
      exact ((h.entries_iff key entry).mp hget).1
    · exact fun hmem => ⟨entry.modelId, (h.entries_iff _ entry).mpr ⟨hmem, rfl⟩⟩
  rw [List.mem_filter, hmem]
  simp only [PricingCatalog.isCandidate, Bool.and_eq_true, decide_eq_true_eq, Uncontested, Matches,
    h.conflicts_iff]

/-- An account gets the price that all uncontested aliases have. -/
theorem quote_iff (h : Loaded catalog entries) {quote : TokenPrice} :
    (catalog.resolveAccount model (some family)).quote = some quote ↔
      (∃ entry, Uncontested entries model family entry ∧ entry.token = some quote) ∧
        ∀ entry other, Uncontested entries model family entry →
          Uncontested entries model family other → entry.pricing = other.pricing := by
  have hquote : (catalog.resolveAccount model (some family)).quote =
      (catalog.canonicalEntry model family).bind (·.token) := by
    unfold PricingCatalog.resolveAccount
    rw [Option.bind_some]
    cases (catalog.canonicalEntry model family).bind (·.token) with
    | none => rfl
    | some price => rfl
  have hmem : ∀ entry, entry ∈ (valuesOf catalog.entries).filter (catalog.isCandidate model family) ↔
      Uncontested entries model family entry := fun entry => mem_candidates h
  rw [hquote]
  unfold PricingCatalog.canonicalEntry
  cases hcandidates : (valuesOf catalog.entries).filter (catalog.isCandidate model family) with
  | nil =>
    rw [hcandidates] at hmem
    constructor
    · exact fun hnone => by cases hnone
    · rintro ⟨⟨entry, hentry, -⟩, -⟩
      cases (hmem entry).mpr hentry
  | cons first rest =>
    rw [hcandidates] at hmem
    have hfirst := (hmem first).mp List.mem_cons_self
    dsimp only
    split
    case isTrue hall =>
      have hprice : ∀ entry, Uncontested entries model family entry → entry.pricing = first.pricing :=
        fun entry hentry =>
          equivalentPricing_iff.mp (List.all_eq_true.mp hall entry ((hmem entry).mpr hentry))
      rw [Option.bind_some]
      constructor
      · intro htoken
        refine ⟨⟨first, hfirst, htoken⟩, fun entry other hentry hother => ?_⟩
        exact (hprice entry hentry).trans (hprice other hother).symm
      · rintro ⟨⟨entry, hentry, htoken⟩, -⟩
        exact (congrArg (·.2.1) (hprice entry hentry)).symm.trans htoken
    case isFalse hall =>
      constructor
      · exact fun hnone => by cases hnone
      · rintro ⟨-, hagree⟩
        refine absurd (List.all_eq_true.mpr fun entry hentry => ?_) hall
        exact equivalentPricing_iff.mpr (hagree entry first ((hmem entry).mp hentry) hfirst)

/-- Everything else about a resolved price follows from its quote. -/
theorem resolveAccount_eq (catalog : PricingCatalog) (model : String) (family : Option String) :
    catalog.resolveAccount model family =
      (catalog.resolveAccount model family).quote.elim catalog.unpriced
        fun price => catalog.resolved price .liteLlmCanonical := by
  unfold PricingCatalog.resolveAccount
  cases (family.bind (catalog.canonicalEntry model)).bind (·.token) with
  | none => rfl
  | some price => rfl

end

/-! ## Documents -/

/-- What a catalog keeps of the document besides its records. -/
def PricingCatalog.metadata (catalog : PricingCatalog) : Option String × Option Nat × Bool :=
  (catalog.revision, catalog.fetchedAtMs, catalog.stale)

theorem metadata_foldl (records : Json.Fields) (catalog : PricingCatalog) :
    (records.foldl PricingCatalog.addRecord catalog).metadata = catalog.metadata := by
  induction records generalizing catalog with
  | nil => rfl
  | cons record records ih =>
    rw [List.foldl_cons, ih, addRecord_eq]
    cases entryOf record with
    | none => rfl
    | some entry =>
      dsimp only [Option.elim_some, PricingCatalog.addEntry, PricingCatalog.noteUnique]
      split
      · split <;> rfl
      · split <;> rfl

variable {revision : Option String} {fetchedAtMs : Option Nat}

theorem loaded_of_fromLitellmPayload (hkeys : (records.map Prod.fst).Nodup)
    {stale : Bool}
    (hload : fromLitellmPayload (.object records) revision fetchedAtMs stale = .ok catalog) :
    Loaded catalog (entriesOf records) ∧ catalog.metadata = (revision, fetchedAtMs, stale) := by
  unfold fromLitellmPayload at hload
  cases hvalid : validateLitellmPayload (.object records) with
  | error error =>
    rw [hvalid] at hload
    cases hload
  | ok object =>
    rw [hvalid] at hload
    obtain rfl := Except.ok.inj hload
    have hobject : object = records := by
      unfold validateLitellmPayload at hvalid
      dsimp only [Json.asObject] at hvalid
      split at hvalid
      · cases hvalid
      · split at hvalid
        · cases hvalid
        · exact (Except.ok.inj hvalid).symm
    subst hobject
    refine ⟨?_, metadata_foldl object _⟩
    have hids : (([] ++ entriesOf object).map CatalogEntry.modelId).Nodup := nodup_entriesOf hkeys
    exact loaded_foldl (loaded_empty revision fetchedAtMs stale) hids

variable {records records' : Json.Fields}

/-- The checks of a document do not look at the order of its records. -/
theorem fromLitellmPayload_perm (h : records'.Perm records)
    {stale : Bool}
    (hload : fromLitellmPayload (.object records) revision fetchedAtMs stale = .ok catalog) :
    ∃ catalog', fromLitellmPayload (.object records') revision fetchedAtMs stale = .ok catalog' := by
  have hany (bad : String × Json → Bool) : records'.any bad = records.any bad := by
    rw [Bool.eq_iff_iff, List.any_eq_true, List.any_eq_true]
    exact exists_congr fun record => and_congr_left fun _ => h.mem_iff
  unfold fromLitellmPayload validateLitellmPayload at hload ⊢
  dsimp only [Json.asObject] at hload ⊢
  rw [h.length_eq, hany]
  by_cases hlarge : maxCacheRecords < records.length
  · rw [if_pos hlarge] at hload
    cases hload
  · rw [if_neg hlarge] at hload ⊢
    split at hload
    · next hvalid =>
      split at hvalid
      · cases hload
      · cases hvalid
    · next hvalid =>
      split at hvalid
      · cases hvalid
      · next hgood =>
        rw [if_neg hgood]
        exact ⟨_, rfl⟩

theorem entriesOf_perm (h : records'.Perm records) :
    ∀ entry, entry ∈ entriesOf records' ↔ entry ∈ entriesOf records :=
  fun _ => (h.filterMap entryOf).mem_iff

/-- The price of an account depends on the entries only, not on their order. -/
theorem resolveAccount_congr {catalog catalog' : PricingCatalog}
    (h : Loaded catalog entries) (h' : Loaded catalog' entries')
    (hmetadata : catalog'.metadata = catalog.metadata)
    (hentries : ∀ entry, entry ∈ entries' ↔ entry ∈ entries) (model family : String) :
    catalog'.resolveAccount model (some family) = catalog.resolveAccount model (some family) := by
  have hconflicting : ∀ key, Conflicting entries' key ↔ Conflicting entries key := fun key =>
    ⟨fun hc => hc.mono fun entry hmem => (hentries entry).mp hmem,
      fun hc => hc.mono fun entry hmem => (hentries entry).mpr hmem⟩
  have huncontested : ∀ entry, Uncontested entries' model family entry ↔
      Uncontested entries model family entry := fun entry => by
    unfold Uncontested
    rw [hentries, hconflicting]
  have hquote : (catalog'.resolveAccount model (some family)).quote =
      (catalog.resolveAccount model (some family)).quote := by
    refine Option.ext fun quote => ?_
    rw [quote_iff h, quote_iff h']
    simp only [huncontested]
  obtain ⟨hrevision, hfetched, hstale⟩ :
      catalog'.revision = catalog.revision ∧ catalog'.fetchedAtMs = catalog.fetchedAtMs ∧
        catalog'.stale = catalog.stale := by
    simpa [PricingCatalog.metadata] using hmetadata
  rw [resolveAccount_eq catalog', resolveAccount_eq catalog, hquote]
  cases (catalog.resolveAccount model (some family)).quote with
  | none => simp [PricingCatalog.unpriced, hrevision, hfetched, hstale]
  | some price => simp [PricingCatalog.resolved, hrevision, hfetched, hstale]

/-- A quote is the token price of every alias of the model in the family. -/
def Unambiguous (catalog : PricingCatalog) (entries : List CatalogEntry) (model family : String) :
    Prop :=
  (∀ quote, (catalog.resolveAccount model (some family)).quote = some quote →
    ∀ entry ∈ entries, Matches model family entry → entry.token = some quote) ∧
  ∀ entry ∈ entries, ∀ other ∈ entries, Matches model family entry → Matches model family other →
    entry.token ≠ other.token → catalog.resolveAccount model (some family) = catalog.unpriced

/-- A quote speaks for all aliases, in whatever order the document lists them, exactly when no alias
under a conflicting id disagrees with the price that all other aliases have. -/
theorem resolveAccount_unambiguous_iff {records : Json.Fields}
    (hkeys : (records.map Prod.fst).Nodup) {revision : Option String} {fetchedAtMs : Option Nat}
    {stale : Bool} {catalog : PricingCatalog}
    (hload : fromLitellmPayload (.object records) revision fetchedAtMs stale = .ok catalog)
    (model family : String) :
    (Unambiguous catalog (entriesOf records) model family ∧
      ∀ records' : Json.Fields, records'.Perm records → ∃ catalog',
        fromLitellmPayload (.object records') revision fetchedAtMs stale = .ok catalog' ∧
        catalog'.resolveAccount model (some family) = catalog.resolveAccount model (some family)) ↔
    ∀ entry other quote, Contested (entriesOf records) model family entry →
      Uncontested (entriesOf records) model family other → other.token = some quote →
      (∀ third, Uncontested (entriesOf records) model family third → third.pricing = other.pricing) →
      entry.token = some quote := by
  obtain ⟨hloaded, hmetadata⟩ := loaded_of_fromLitellmPayload hkeys hload
  constructor
  · rintro ⟨⟨hquote, -⟩, -⟩ entry other quote hcontested hother htoken hall
    refine hquote quote ((quote_iff hloaded).mpr ⟨⟨other, hother, htoken⟩, ?_⟩) entry hcontested.1
      hcontested.2.1
    exact fun first second hfirst hsecond => (hall first hfirst).trans (hall second hsecond).symm
  · intro hagree
    have hquote : ∀ quote, (catalog.resolveAccount model (some family)).quote = some quote →
        ∀ entry ∈ entriesOf records, Matches model family entry → entry.token = some quote := by
      intro quote hresolved entry hentry hmatches
      obtain ⟨⟨other, hother, htoken⟩, hsame⟩ := (quote_iff hloaded).mp hresolved
      by_cases hconflict : Conflicting (entriesOf records) (normalize entry.modelId)
      · exact hagree entry other quote ⟨hentry, hmatches, hconflict⟩ hother htoken
          fun third hthird => hsame third other hthird hother
      · have hpricing := hsame entry other ⟨hentry, hmatches, hconflict⟩ hother
        exact (congrArg (·.2.1) hpricing).trans htoken
    refine ⟨⟨hquote, fun entry hentry other hother hmatches hmatches' hne => ?_⟩,
      fun records' hperm => ?_⟩
    · rw [resolveAccount_eq]
      cases hresolved : (catalog.resolveAccount model (some family)).quote with
      | none => rfl
      | some quote =>
        exact absurd ((hquote quote hresolved entry hentry hmatches).trans
          (hquote quote hresolved other hother hmatches').symm) hne
    · have hkeys' : (records'.map Prod.fst).Nodup := (hperm.map Prod.fst).nodup_iff.mpr hkeys
      obtain ⟨catalog', hload'⟩ := fromLitellmPayload_perm hperm hload
      obtain ⟨hloaded', hmetadata'⟩ := loaded_of_fromLitellmPayload hkeys' hload'
      exact ⟨catalog', hload', resolveAccount_congr hloaded hloaded'
        (hmetadata'.trans hmetadata.symm) (entriesOf_perm hperm) model family⟩

/-! ## A document with three spellings -/

def sampleRecord (input : String) : Json :=
  .object [("litellm_provider", .string "openai"), ("input_cost_per_token", .string input),
    ("output_cost_per_token", .string "2e-6")]

/-- Two spellings of one id that disagree, and a third alias of the model. -/
def sampleRecords : Json.Fields :=
  [("GPT", sampleRecord "1e-6"), ("gpt", sampleRecord "3e-6"), ("openai/gpt", sampleRecord "1e-6")]

def sampleEntry (modelId : String) (input : Nat) : CatalogEntry where
  modelId
  provider := some "openai"
  token := some { input, output := 2000000 }
  image := none
  requestMicroUsd := none

theorem entriesOf_sampleRecords : entriesOf sampleRecords =
    [sampleEntry "GPT" 1000000, sampleEntry "gpt" 3000000, sampleEntry "openai/gpt" 1000000] := by
  decide +kernel

theorem quote_sampleRecords :
    (fromLitellmPayload (.object sampleRecords) none none false).toOption.bind
      (fun catalog => (catalog.resolveAccount "gpt" (some "openai")).quote) =
      some { input := 1000000, output := 2000000 } := by
  decide +kernel

/-- The account is quoted the price of the third alias, and one of the two records left out carries
another. -/
theorem third_alias_is_quoted : ∃ catalog,
    fromLitellmPayload (.object sampleRecords) none none false = .ok catalog ∧
      ¬ Unambiguous catalog (entriesOf sampleRecords) "gpt" "openai" := by
  have hquote := quote_sampleRecords
  cases hload : fromLitellmPayload (.object sampleRecords) none none false with
  | error error =>
    rw [hload] at hquote
    cases hquote
  | ok catalog =>
    rw [hload] at hquote
    refine ⟨catalog, rfl, fun hunambiguous => ?_⟩
    have htoken := hunambiguous.1 _ hquote (sampleEntry "gpt" 3000000)
      (by rw [entriesOf_sampleRecords]; simp) (by decide +kernel)
    exact absurd htoken (by decide)

/-- The same three spellings with one price. -/
def agreeingRecords : Json.Fields :=
  [("GPT", sampleRecord "1e-6"), ("gpt", sampleRecord "1e-6"), ("openai/gpt", sampleRecord "1e-6")]

theorem pricing_agreeingRecords : ∀ entry ∈ entriesOf agreeingRecords,
    entry.pricing = (sampleEntry "gpt" 1000000).pricing := by
  have hentries : entriesOf agreeingRecords =
      [sampleEntry "GPT" 1000000, sampleEntry "gpt" 1000000, sampleEntry "openai/gpt" 1000000] := by
    decide +kernel
  rw [hentries]
  decide

theorem resolveAccount_unambiguous_sample : ∃ catalog,
    fromLitellmPayload (.object agreeingRecords) none none false = .ok catalog ∧
      Unambiguous catalog (entriesOf agreeingRecords) "gpt" "openai" := by
  have hloads : (fromLitellmPayload (.object agreeingRecords) none none false).toOption.isSome := by
    decide +kernel
  cases hload : fromLitellmPayload (.object agreeingRecords) none none false with
  | error error =>
    rw [hload] at hloads
    cases hloads
  | ok catalog =>
    refine ⟨catalog, rfl, ((resolveAccount_unambiguous_iff (by decide) hload "gpt" "openai").mpr ?_).1⟩
    -- With one price there is no conflict.
    rintro entry other quote ⟨-, -, first, hfirst, second, hsecond, -, -, hne⟩
    exact absurd ((pricing_agreeingRecords first hfirst).trans
      (pricing_agreeingRecords second hsecond).symm) hne

end Zenith.Pricing
