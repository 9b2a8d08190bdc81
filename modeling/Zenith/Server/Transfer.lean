import Mathlib
import Zenith.Lib.Tables

/-!
# Moving accounts to a remote server

`validate_remote_transfer_confirmation` of `remote_server/ownership/transfer.rs`. The preview of a
batch import has a row for each account, and the confirmation of the server a result for each row, in any order.
The check goes over the rows and takes their results out of a table. What does not fit makes the transfer
incomplete; unless it is an import that failed, it is also uncertain what the server did.
-/

namespace Zenith.Server.Transfer

open Zenith.Tables

/-! ## The check -/

structure RemoteBatchImportRow where
  itemId : String
  status : String
  selectable : Bool
deriving DecidableEq, Repr

structure RemoteBatchImportPreview where
  rows : List RemoteBatchImportRow
deriving DecidableEq, Repr

structure RemoteBatchImportSession where
  sessionId : String
  prepared : Bool
  preview : RemoteBatchImportPreview
deriving DecidableEq, Repr

structure RemoteBatchImportResult where
  itemId : String
  status : String
  accountId : Option String
  created : Bool
deriving DecidableEq, Repr

structure RemoteBatchImportConfirmation where
  sessionId : String
  results : List RemoteBatchImportResult
deriving DecidableEq, Repr

structure RemoteTransferConfirmationError where
  message : String
  createdAccountIds : List String
  uncertain : Bool
deriving DecidableEq, Repr

structure RemoteTransferConfirmation where
  accountIds : List String
  createdAccountIds : List String
deriving DecidableEq, Repr

def objectPath (collection id : String) : Except String String :=
  if id = "" || 128 < id.utf8ByteSize || !id.toList.all fun c => c.isAlphanum || c = '-' || c = '_' then
    .error "remote object id is invalid"
  else .ok ("/" ++ collection ++ "/" ++ id)

/-- What the check has seen. -/
structure Check where
  complete : Bool
  uncertain : Bool
  results : Table String RemoteBatchImportResult := ∅
  accountIds : List String := []
  createdAccountIds : List String := []
  seenAccountIds : List String := []

/-- It is not known what the server did. -/
def Check.doubt (check : Check) : Check := { check with complete := false, uncertain := true }

/-- A result is filed under its row. -/
def Check.file (check : Check) (result : RemoteBatchImportResult) : Check :=
  let filed := { check with results := check.results.insert result.itemId result }
  if check.results[result.itemId]?.isSome then filed.doubt else filed

/-- The result of a row is taken out. -/
def Check.take (check : Check) (row : RemoteBatchImportRow) : Check :=
  match check.results[row.itemId]? with
  | none => check.doubt
  | some result =>
    let check := { check with results := check.results.erase row.itemId }
    if result.status ≠ "succeeded" then { check with complete := false }
    else
      match result.accountId with
      | none => check.doubt
      | some accountId =>
        if (objectPath "accounts" accountId).toOption.isNone then check.doubt
        else if accountId ∈ check.seenAccountIds then check.doubt
        else
          { check with
            seenAccountIds := accountId :: check.seenAccountIds
            createdAccountIds := check.createdAccountIds ++ if result.created then [accountId] else []
            accountIds := check.accountIds ++ [accountId] }

def validateRemoteTransferConfirmation (preview : RemoteBatchImportSession)
    (confirmation : RemoteBatchImportConfirmation) :
    Except RemoteTransferConfirmationError RemoteTransferConfirmation :=
  let complete := confirmation.sessionId = preview.sessionId ∧
    confirmation.results.length = preview.preview.rows.length
  let check := confirmation.results.foldl Check.file { complete, uncertain := ¬ complete }
  let check := preview.preview.rows.foldl Check.take check
  let check := if check.results.isEmpty then check else check.doubt
  if !check.complete || check.accountIds.length ≠ preview.preview.rows.length then
    .error { message := "remote server did not confirm every selected account"
             createdAccountIds := check.createdAccountIds
             uncertain := check.uncertain }
  else
    .ok { accountIds := check.accountIds, createdAccountIds := check.createdAccountIds }

/-! ## Results that fit -/

def RemoteBatchImportResult.succeeded (result : RemoteBatchImportResult) : Bool :=
  result.status = "succeeded"

/-- The account that a result reports. -/
def RemoteBatchImportResult.account (result : RemoteBatchImportResult) : Option String :=
  if result.succeeded then result.accountId else none

/-- The account that a result reports as created. -/
def RemoteBatchImportResult.createdAccount (result : RemoteBatchImportResult) : Option String :=
  if result.created then result.account else none

/-- An import that succeeded has an account with a valid id. -/
def RemoteBatchImportResult.Told (result : RemoteBatchImportResult) : Prop :=
  result.succeeded = true →
    ∃ accountId, result.accountId = some accountId ∧ (objectPath "accounts" accountId).toOption.isSome = true

namespace Check

/-- A result that fits is taken out. -/
def taken (check : Check) (result : RemoteBatchImportResult) : Check where
  complete := check.complete && result.succeeded
  uncertain := check.uncertain
  results := check.results.erase result.itemId
  accountIds := check.accountIds ++ result.account.toList
  createdAccountIds := check.createdAccountIds ++ result.createdAccount.toList
  seenAccountIds := result.account.toList ++ check.seenAccountIds

/-- The result fits the row, and its account is a new one. -/
structure Fits (check : Check) (row : RemoteBatchImportRow) (result : RemoteBatchImportResult) : Prop where
  found : check.results[row.itemId]? = some result
  item : result.itemId = row.itemId
  told : result.Told
  new : ∀ accountId, result.account = some accountId → accountId ∉ check.seenAccountIds

variable {check : Check} {row : RemoteBatchImportRow} {result : RemoteBatchImportResult}

theorem take_of_fits (h : check.Fits row result) : check.take row = check.taken result := by
  obtain ⟨hfound, hitem, htold, hnew⟩ := h
  rw [take, hfound]
  dsimp only
  by_cases hsucceeded : result.succeeded = true
  · obtain ⟨accountId, haccount, hvalid⟩ := htold hsucceeded
    have hreported : result.account = some accountId := by
      rw [RemoteBatchImportResult.account, if_pos hsucceeded, haccount]
    have hvalid' : ¬ (objectPath "accounts" accountId).toOption.isNone = true := by
      rw [Bool.not_eq_true, Option.isNone_eq_false_iff]
      exact hvalid
    rw [if_neg (not_not.mpr (of_decide_eq_true hsucceeded)), haccount]
    dsimp only
    rw [if_neg hvalid', if_neg (hnew accountId hreported), taken, RemoteBatchImportResult.createdAccount, hreported,
      hsucceeded, Bool.and_true, hitem]
    cases result.created <;> rfl
  · have hreported : result.account = none := by
      rw [RemoteBatchImportResult.account, if_neg hsucceeded]
    rw [if_pos fun hstatus => hsucceeded (decide_eq_true hstatus), taken, RemoteBatchImportResult.createdAccount,
      hreported, Bool.eq_false_of_not_eq_true hsucceeded, Bool.and_false, hitem, ite_self]
    simp

/-- The results are filed under their items. -/
def Filed (check : Check) : Prop :=
  ∀ (itemId : String) result, check.results[itemId]? = some result → result.itemId = itemId

/-- What is certain after a row fits it. -/
theorem fits_of_take (hfiled : check.Filed) (h : (check.take row).uncertain = false) :
    ∃ result, check.Fits row result := by
  cases hfound : check.results[row.itemId]? with
  | none =>
    rw [take, hfound] at h
    exact nomatch h
  | some result =>
    rw [take, hfound] at h
    dsimp only at h
    refine ⟨result, hfound, hfiled _ _ hfound, fun hsucceeded => ?_, fun accountId hreported => ?_⟩
    · rw [if_neg (not_not.mpr (of_decide_eq_true hsucceeded))] at h
      cases haccount : result.accountId with
      | none =>
        rw [haccount] at h
        exact nomatch h
      | some accountId =>
        rw [haccount] at h
        dsimp only at h
        refine ⟨accountId, rfl, ?_⟩
        by_contra hinvalid
        rw [if_pos (by rwa [Bool.not_eq_true, Option.isSome_eq_false_iff] at hinvalid)] at h
        exact nomatch h
    · by_cases hsucceeded : result.succeeded = true
      · rw [RemoteBatchImportResult.account, if_pos hsucceeded] at hreported
        rw [if_neg (not_not.mpr (of_decide_eq_true hsucceeded)), hreported] at h
        dsimp only at h
        split at h
        case isTrue => exact nomatch h
        case isFalse =>
          intro hseen
          rw [if_pos hseen] at h
          exact nomatch h
      · rw [RemoteBatchImportResult.account, if_neg hsucceeded] at hreported
        exact nomatch hreported

theorem uncertain_take (h : check.uncertain = true) : (check.take row).uncertain = true := by
  unfold take
  split
  · rfl
  · dsimp only
    split
    · exact h
    · split
      · rfl
      · split
        · rfl
        · split
          · rfl
          · exact h

theorem Filed.taken (h : check.Filed) : (check.taken result).Filed := by
  intro itemId other hother
  change (check.results.erase result.itemId)[itemId]? = some other at hother
  rw [getElem?_erase_ite] at hother
  split at hother
  case isTrue => exact nomatch hother
  case isFalse => exact h itemId other hother

/-- Doubts stay. -/
theorem uncertain_foldl_take (rows : List RemoteBatchImportRow) (h : check.uncertain = true) :
    (rows.foldl take check).uncertain = true := by
  induction rows generalizing check with
  | nil => exact h
  | cons row rows ih => exact ih (uncertain_take h)

/-- The results that fit some rows, one after the other. -/
inductive FitAll : Check → List RemoteBatchImportRow → List RemoteBatchImportResult → Prop
  | nil {check : Check} : FitAll check [] []
  | cons {check : Check} {row : RemoteBatchImportRow} {result : RemoteBatchImportResult}
      {rows : List RemoteBatchImportRow} {results : List RemoteBatchImportResult} :
      check.Fits row result → FitAll (check.taken result) rows results → FitAll check (row :: rows) (result :: results)

variable {rows : List RemoteBatchImportRow} {results : List RemoteBatchImportResult}

theorem FitAll.foldl_take (h : FitAll check rows results) : rows.foldl take check = results.foldl taken check := by
  induction h with
  | nil => rfl
  | cons hfits _ ih => rw [List.foldl_cons, List.foldl_cons, take_of_fits hfits, ih]

theorem fitAll_of_take (hfiled : check.Filed)
    (h : (rows.foldl take check).uncertain = false) : ∃ results, FitAll check rows results := by
  induction rows generalizing check with
  | nil => exact ⟨[], .nil⟩
  | cons row rows ih =>
    rw [List.foldl_cons] at h
    have hrow : (check.take row).uncertain = false := by
      by_contra hrow
      exact nomatch h.symm.trans (uncertain_foldl_take rows (Bool.eq_true_of_not_eq_false hrow))
    obtain ⟨result, hfits⟩ := fits_of_take hfiled hrow
    rw [take_of_fits hfits] at h
    obtain ⟨results, hrest⟩ := ih hfiled.taken h
    exact ⟨result :: results, .cons hfits hrest⟩

/-- What there is after the results were taken out. -/
theorem foldl_taken (results : List RemoteBatchImportResult) (check : Check) :
    (results.foldl taken check).complete = (check.complete && results.all RemoteBatchImportResult.succeeded) ∧
    (results.foldl taken check).uncertain = check.uncertain ∧
    (results.foldl taken check).accountIds =
      check.accountIds ++ results.filterMap RemoteBatchImportResult.account ∧
    (results.foldl taken check).createdAccountIds =
      check.createdAccountIds ++ results.filterMap RemoteBatchImportResult.createdAccount ∧
    ∀ itemId : String, (results.foldl taken check).results[itemId]? =
      if itemId ∈ results.map RemoteBatchImportResult.itemId then none else check.results[itemId]? := by
  induction results generalizing check with
  | nil => simp
  | cons result results ih =>
    obtain ⟨hcomplete, huncertain, haccounts, hcreated, hresults⟩ := ih (check.taken result)
    rw [List.foldl_cons]
    refine ⟨?_, huncertain, ?_, ?_, fun itemId => ?_⟩
    · rw [hcomplete, taken, List.all_cons, Bool.and_assoc]
    · rw [haccounts, taken]
      cases hresult : result.account <;> simp [hresult]
    · rw [hcreated, taken]
      cases hresult : result.createdAccount <;> simp [hresult]
    · rw [hresults]
      change (if _ then _ else (check.results.erase result.itemId)[itemId]?) = _
      rw [getElem?_erase_ite]
      by_cases hitem : result.itemId = itemId
      · simp [hitem]
      · simp [hitem, Ne.symm hitem]

theorem fitAll_cons :
    FitAll check (row :: rows) (result :: results) ↔
      check.Fits row result ∧ FitAll (check.taken result) rows results := by
  constructor
  · intro h
    cases h with
    | cons hfits hrest => exact ⟨hfits, hrest⟩
  · exact fun h => .cons h.1 h.2

/-- The accounts of results are new ones, each once. -/
structure NewAccounts (results : List RemoteBatchImportResult) (seen : List String) : Prop where
  nodup : (results.filterMap RemoteBatchImportResult.account).Nodup
  new : ∀ accountId ∈ results.filterMap RemoteBatchImportResult.account, accountId ∉ seen

theorem newAccounts_cons {seen : List String} :
    NewAccounts (result :: results) seen ↔
      (∀ accountId, result.account = some accountId → accountId ∉ seen) ∧
        NewAccounts results (result.account.toList ++ seen) := by
  cases haccount : result.account with
  | none =>
    have hsame : (result :: results).filterMap RemoteBatchImportResult.account =
        results.filterMap RemoteBatchImportResult.account := List.filterMap_cons_none haccount
    exact ⟨fun h => ⟨nofun, hsame ▸ h.1, hsame ▸ h.2⟩, fun h => ⟨hsame ▸ h.2.1, hsame ▸ h.2.2⟩⟩
  | some accountId =>
    have hcons : (result :: results).filterMap RemoteBatchImportResult.account =
        accountId :: results.filterMap RemoteBatchImportResult.account := List.filterMap_cons_some haccount
    constructor
    · rintro ⟨hnodup, hnew⟩
      rw [hcons] at hnodup hnew
      obtain ⟨hfirst, hnodup⟩ := List.nodup_cons.mp hnodup
      obtain ⟨hseen, hnew⟩ := List.forall_mem_cons.mp hnew
      refine ⟨fun _ heq => Option.some.inj heq ▸ hseen, hnodup, fun other hother hmem => ?_⟩
      rcases List.mem_cons.mp hmem with rfl | hmem
      · exact hfirst hother
      · exact hnew other hother hmem
    · rintro ⟨hseen, hnodup, hnew⟩
      refine ⟨?_, ?_⟩
      · rw [hcons, List.nodup_cons]
        exact ⟨fun hfirst => hnew accountId hfirst List.mem_cons_self, hnodup⟩
      · rw [hcons, List.forall_mem_cons]
        exact ⟨hseen accountId rfl, fun other hother hmem => hnew other hother (List.mem_cons_of_mem _ hmem)⟩

/-- Results fit rows when they stand in the table, no row comes twice, and the accounts are new ones. -/
theorem fitAll_iff :
    FitAll check rows results ↔
      results.map RemoteBatchImportResult.itemId = rows.map RemoteBatchImportRow.itemId ∧
      (results.map RemoteBatchImportResult.itemId).Nodup ∧
      (∀ result ∈ results, check.results[result.itemId]? = some result ∧ result.Told) ∧
      NewAccounts results check.seenAccountIds := by
  induction rows generalizing check results with
  | nil =>
    cases results with
    | nil => exact ⟨fun _ => ⟨rfl, .nil, nofun, .nil, nofun⟩, fun _ => .nil⟩
    | cons result results => exact ⟨nofun, fun h => nomatch h.1⟩
  | cons row rows ih =>
    cases results with
    | nil => exact ⟨nofun, fun h => nomatch h.1⟩
    | cons result results =>
      have hlater : ∀ other : RemoteBatchImportResult, (check.taken result).results[other.itemId]? = some other ↔
          result.itemId ≠ other.itemId ∧ check.results[other.itemId]? = some other := by
        intro other
        change (check.results.erase result.itemId)[other.itemId]? = some other ↔ _
        rw [getElem?_erase_ite]
        split
        case isTrue heq => exact ⟨nofun, fun h => absurd heq h.1⟩
        case isFalse hne => exact ⟨fun h => ⟨hne, h⟩, fun h => h.2⟩
      rw [fitAll_cons, ih, newAccounts_cons, List.map_cons, List.map_cons, List.cons.injEq, List.nodup_cons,
        List.forall_mem_cons]
      constructor
      · rintro ⟨⟨hfound, hitem, htold, hnew⟩, hmap, hnodup, hrest, haccounts⟩
        refine ⟨⟨hitem, hmap⟩, ⟨fun hmem => ?_, hnodup⟩, ⟨⟨hitem ▸ hfound, htold⟩, fun other hother => ?_⟩, hnew,
          haccounts⟩
        · obtain ⟨other, hother, heq⟩ := List.mem_map.mp hmem
          exact ((hlater other).mp (hrest other hother).1).1 heq.symm
        · exact ⟨((hlater other).mp (hrest other hother).1).2, (hrest other hother).2⟩
      · rintro ⟨⟨hitem, hmap⟩, ⟨hfirst, hnodup⟩, ⟨⟨hfound, htold⟩, hrest⟩, hnew, haccounts⟩
        refine ⟨⟨hitem ▸ hfound, hitem, htold, hnew⟩, hmap, hnodup, fun other hother => ⟨?_, (hrest other hother).2⟩,
          haccounts⟩
        refine (hlater other).mpr ⟨fun heq => hfirst ?_, (hrest other hother).1⟩
        exact List.mem_map.mpr ⟨other, hother, heq.symm⟩

/-! ## The table of results -/

theorem file_eq (check : Check) (result : RemoteBatchImportResult) :
    (check.file result).results = check.results.insert result.itemId result ∧
    (check.file result).accountIds = check.accountIds ∧
    (check.file result).createdAccountIds = check.createdAccountIds ∧
    (check.file result).seenAccountIds = check.seenAccountIds ∧
    ((check.file result).uncertain = false ↔
      check.uncertain = false ∧ check.results[result.itemId]? = none) ∧
    ((check.file result).uncertain = false → (check.file result).complete = check.complete) := by
  unfold file
  dsimp only
  cases hfound : check.results[result.itemId]? with
  | none => exact ⟨rfl, rfl, rfl, rfl, ⟨fun h => ⟨h, rfl⟩, fun h => h.1⟩, fun _ => rfl⟩
  | some other => exact ⟨rfl, rfl, rfl, rfl, ⟨nofun, nofun⟩, nofun⟩

theorem foldl_file_lists (results : List RemoteBatchImportResult) (check : Check) :
    (results.foldl file check).accountIds = check.accountIds ∧
    (results.foldl file check).createdAccountIds = check.createdAccountIds ∧
    (results.foldl file check).seenAccountIds = check.seenAccountIds := by
  induction results generalizing check with
  | nil => exact ⟨rfl, rfl, rfl⟩
  | cons result results ih =>
    obtain ⟨haccounts, hcreated, hseen⟩ := ih (check.file result)
    obtain ⟨-, haccounts', hcreated', hseen', -⟩ := check.file_eq result
    exact ⟨haccounts.trans haccounts', hcreated.trans hcreated', hseen.trans hseen'⟩

/-- There is no doubt when no item has two results. -/
theorem foldl_file_uncertain (results : List RemoteBatchImportResult) (check : Check) :
    (results.foldl file check).uncertain = false ↔
      check.uncertain = false ∧ (results.map RemoteBatchImportResult.itemId).Nodup ∧
        ∀ result ∈ results, check.results[result.itemId]? = none := by
  induction results generalizing check with
  | nil => exact ⟨fun h => ⟨h, .nil, nofun⟩, fun h => h.1⟩
  | cons result results ih =>
    obtain ⟨htable, -, -, -, huncertain, -⟩ := check.file_eq result
    have hlater : ∀ other : RemoteBatchImportResult, (check.file result).results[other.itemId]? = none ↔
        result.itemId ≠ other.itemId ∧ check.results[other.itemId]? = none := by
      intro other
      rw [htable, getElem?_insert_ite]
      split
      case isTrue heq => exact ⟨nofun, fun h => absurd heq h.1⟩
      case isFalse hne => exact ⟨fun h => ⟨hne, h⟩, fun h => h.2⟩
    rw [List.foldl_cons, ih, huncertain, List.map_cons, List.nodup_cons, List.forall_mem_cons]
    constructor
    · rintro ⟨⟨hcheck, hfirst⟩, hnodup, hrest⟩
      refine ⟨hcheck, ⟨fun hmem => ?_, hnodup⟩, hfirst, fun other hother => ((hlater other).mp (hrest other hother)).2⟩
      obtain ⟨other, hother, heq⟩ := List.mem_map.mp hmem
      exact ((hlater other).mp (hrest other hother)).1 heq.symm
    · rintro ⟨hcheck, ⟨hnew, hnodup⟩, hfirst, hrest⟩
      refine ⟨⟨hcheck, hfirst⟩, hnodup, fun other hother => (hlater other).mpr ⟨fun heq => ?_, hrest other hother⟩⟩
      exact hnew (List.mem_map.mpr ⟨other, hother, heq.symm⟩)

/-- Without a doubt the table has each result under its item. -/
theorem foldl_file_results (results : List RemoteBatchImportResult) (check : Check)
    (h : (results.foldl file check).uncertain = false) :
    (results.foldl file check).complete = check.complete ∧
    ∀ (itemId : String) result, (results.foldl file check).results[itemId]? = some result ↔
      result ∈ results ∧ result.itemId = itemId ∨ check.results[itemId]? = some result := by
  induction results generalizing check with
  | nil => exact ⟨rfl, fun itemId result => ⟨.inr, fun hor => hor.elim (fun hmem => nomatch hmem.1) id⟩⟩
  | cons first results ih =>
    obtain ⟨htable, -, -, -, huncertain, hkept⟩ := check.file_eq first
    obtain ⟨hfirst, -, hrest⟩ := (foldl_file_uncertain results (check.file first)).mp h
    obtain ⟨hcomplete, hresults⟩ := ih (check.file first) h
    refine ⟨hcomplete.trans (hkept hfirst), fun itemId result => ?_⟩
    rw [List.foldl_cons, hresults, htable, getElem?_insert_ite, List.mem_cons]
    split
    case isTrue heq =>
      have hnone := heq ▸ (huncertain.mp hfirst).2
      constructor
      · rintro (⟨hmem, hitem⟩ | hsame)
        · exact .inl ⟨.inr hmem, hitem⟩
        · exact .inl ⟨.inl (Option.some.inj hsame).symm, Option.some.inj hsame ▸ heq⟩
      · rintro (⟨rfl | hmem, hitem⟩ | hold)
        · exact .inr rfl
        · exact .inl ⟨hmem, hitem⟩
        · exact nomatch hnone.symm.trans hold
    case isFalse hne =>
      constructor
      · exact fun h => h.imp_left fun h => ⟨.inr h.1, h.2⟩
      · rintro (⟨rfl | hmem, hitem⟩ | hold)
        · exact absurd hitem hne
        · exact .inl ⟨hmem, hitem⟩
        · exact .inr hold

end Check

/-! ## The confirmation -/

section
variable (preview : RemoteBatchImportSession) (confirmation : RemoteBatchImportConfirmation)

/-- The confirmation is of the session, and has one result for every row. -/
structure Answered : Prop where
  session : confirmation.sessionId = preview.sessionId
  distinct : (confirmation.results.map RemoteBatchImportResult.itemId).Nodup
  rows : (confirmation.results.map RemoteBatchImportResult.itemId).Perm
    (preview.preview.rows.map RemoteBatchImportRow.itemId)
  told : ∀ result ∈ confirmation.results, result.Told
  accounts : (confirmation.results.filterMap RemoteBatchImportResult.account).Nodup

/-- The check after the last row. -/
def finalCheck : Check :=
  preview.preview.rows.foldl Check.take (confirmation.results.foldl Check.file
    { complete := confirmation.sessionId = preview.sessionId ∧
        confirmation.results.length = preview.preview.rows.length
      uncertain := ¬ (confirmation.sessionId = preview.sessionId ∧
        confirmation.results.length = preview.preview.rows.length) })

variable {preview confirmation}

/-- Results that answer a preview are taken in the order of its rows. -/
theorem finalCheck_answered (h : Answered preview confirmation) : ∃ matched : List RemoteBatchImportResult,
    matched.Perm confirmation.results ∧
    matched.map RemoteBatchImportResult.itemId = preview.preview.rows.map RemoteBatchImportRow.itemId ∧
    (finalCheck preview confirmation).complete = matched.all RemoteBatchImportResult.succeeded ∧
    (finalCheck preview confirmation).uncertain = false ∧
    (finalCheck preview confirmation).accountIds = matched.filterMap RemoteBatchImportResult.account ∧
    (finalCheck preview confirmation).createdAccountIds =
      matched.filterMap RemoteBatchImportResult.createdAccount ∧
    (finalCheck preview confirmation).results.isEmpty = true := by
  obtain ⟨hsession, hdistinct, hrows, htold, haccounts⟩ := h
  obtain ⟨matched, hperm, hmatched⟩ : ∃ matched : List RemoteBatchImportResult,
      matched.Perm confirmation.results ∧
      matched.map RemoteBatchImportResult.itemId = preview.preview.rows.map RemoteBatchImportRow.itemId := by
    have hcomp := (congrFun₂ (List.eq_map_comp_perm RemoteBatchImportResult.itemId) _ _).mpr hrows.symm
    obtain ⟨matched, heq, hperm⟩ := hcomp
    exact ⟨matched, hperm, heq.symm⟩
  have hstart : confirmation.sessionId = preview.sessionId ∧
      confirmation.results.length = preview.preview.rows.length := by
    refine ⟨hsession, ?_⟩
    rw [← List.length_map RemoteBatchImportResult.itemId, hrows.length_eq, List.length_map]
  unfold finalCheck
  simp only [hstart, and_self, decide_true, not_true_eq_false, decide_false]
  generalize hstarted : ({ complete := true, uncertain := false } : Check) = started
  have hfiled : (confirmation.results.foldl Check.file started).uncertain = false := by
    rw [Check.foldl_file_uncertain, ← hstarted]
    exact ⟨rfl, hdistinct, fun _ _ => Std.ExtTreeMap.getElem?_empty⟩
  obtain ⟨hcomplete, hresults⟩ := Check.foldl_file_results _ _ hfiled
  obtain ⟨haccountIds, hcreatedIds, hseenIds⟩ := Check.foldl_file_lists confirmation.results started
  generalize confirmation.results.foldl Check.file started = filed at *
  rw [← hstarted] at hcomplete haccountIds hcreatedIds hseenIds hresults
  have hfits : Check.FitAll filed preview.preview.rows matched := by
    refine Check.fitAll_iff.mpr ⟨hmatched, (hperm.map _).nodup_iff.mpr hdistinct, fun result hresult => ?_, ?_⟩
    · have hmem := hperm.mem_iff.mp hresult
      exact ⟨(hresults _ _).mpr (.inl ⟨hmem, rfl⟩), htold result hmem⟩
    · refine ⟨(hperm.filterMap _).nodup_iff.mpr haccounts, fun accountId _ => ?_⟩
      rw [hseenIds]
      exact List.not_mem_nil
  obtain ⟨hcomplete', huncertain', haccounts', hcreated', hresults'⟩ := Check.foldl_taken matched filed
  rw [hfits.foldl_take]
  refine ⟨matched, hperm, hmatched, ?_, huncertain'.trans hfiled, ?_, ?_, ?_⟩
  · rw [hcomplete', hcomplete, Bool.true_and]
  · rw [haccounts', haccountIds, List.nil_append]
  · rw [hcreated', hcreatedIds, List.nil_append]
  · rw [Std.ExtTreeMap.isEmpty_iff]
    refine Std.ExtTreeMap.ext_getElem? fun itemId => ?_
    rw [hresults', Std.ExtTreeMap.getElem?_empty]
    split
    case isTrue => rfl
    case isFalse hother =>
      refine Option.eq_none_iff_forall_ne_some.mpr fun result hresult => hother ?_
      rcases (hresults itemId result).mp hresult with ⟨hmem, hitem⟩ | hnone
      · exact List.mem_map.mpr ⟨result, hperm.mem_iff.mpr hmem, hitem⟩
      · rw [Std.ExtTreeMap.getElem?_empty] at hnone
        exact nomatch hnone

/-- When the check has no doubts and no results are left, the preview is answered. -/
theorem answered_of_certain (hcertain : (finalCheck preview confirmation).uncertain = false)
    (hempty : (finalCheck preview confirmation).results.isEmpty = true) : Answered preview confirmation := by
  unfold finalCheck at hcertain hempty
  generalize hstarted : ({ complete := _, uncertain := _ } : Check) = started at hcertain hempty
  have hfiled : (confirmation.results.foldl Check.file started).uncertain = false := by
    by_contra hdoubt
    exact nomatch hcertain.symm.trans
      (Check.uncertain_foldl_take preview.preview.rows (Bool.eq_true_of_not_eq_false hdoubt))
  obtain ⟨hstart, hdistinct, -⟩ := (Check.foldl_file_uncertain _ _).mp hfiled
  obtain ⟨-, hresults⟩ := Check.foldl_file_results _ _ hfiled
  have hnone : ∀ itemId : String, started.results[itemId]? = none := by
    intro itemId
    rw [← hstarted]
    exact Std.ExtTreeMap.getElem?_empty
  have hsession : confirmation.sessionId = preview.sessionId := by
    rw [← hstarted] at hstart
    exact (not_not.mp (of_decide_eq_false hstart)).1
  generalize confirmation.results.foldl Check.file started = filed at *
  have hitems : filed.Filed := by
    intro itemId result hresult
    rcases (hresults itemId result).mp hresult with ⟨-, hitem⟩ | hold
    · exact hitem
    · exact nomatch (hnone itemId).symm.trans hold
  obtain ⟨matched, hfits⟩ := Check.fitAll_of_take hitems hcertain
  obtain ⟨hmatched, hnodup, hfound, haccounts, -⟩ := Check.fitAll_iff.mp hfits
  obtain ⟨-, -, -, -, hleft⟩ := Check.foldl_taken matched filed
  rw [hfits.foldl_take, Std.ExtTreeMap.isEmpty_iff] at hempty
  -- No result is left, so each was taken for a row.
  have hperm : matched.Perm confirmation.results := by
    refine (List.perm_ext_iff_of_nodup (List.Nodup.of_map _ hnodup) (List.Nodup.of_map _ hdistinct)).mpr
      fun result => ⟨fun hresult => ?_, fun hresult => ?_⟩
    · rcases (hresults _ _).mp (hfound result hresult).1 with ⟨hmem, -⟩ | hold
      · exact hmem
      · exact nomatch (hnone _).symm.trans hold
    · have hstored := (hresults result.itemId result).mpr (.inl ⟨hresult, rfl⟩)
      have hgone := hleft result.itemId
      rw [hempty, Std.ExtTreeMap.getElem?_empty, hstored] at hgone
      split at hgone
      case isTrue hmem =>
        obtain ⟨other, hother, hsame⟩ := List.mem_map.mp hmem
        have hstored' := (hfound other hother).1
        rw [hsame, hstored] at hstored'
        rwa [Option.some.inj hstored']
      case isFalse => exact nomatch hgone
  refine ⟨hsession, hdistinct, ?_, fun result hresult => ?_, (hperm.filterMap _).nodup_iff.mp haccounts⟩
  · rw [← hmatched]
    exact (hperm.map _).symm
  · exact (hfound result (hperm.mem_iff.mpr hresult)).2

end

namespace Check

/-- Where there are doubts the transfer is not complete. -/
def Sane (check : Check) : Prop := check.uncertain = true → check.complete = false

variable {check : Check}

theorem Sane.file (h : check.Sane) (result : RemoteBatchImportResult) : (check.file result).Sane := by
  unfold Check.file
  dsimp only
  split
  · exact fun _ => rfl
  · exact h

theorem Sane.take (h : check.Sane) (row : RemoteBatchImportRow) : (check.take row).Sane := by
  unfold Check.take
  split
  · exact fun _ => rfl
  · dsimp only
    split
    · exact fun _ => rfl
    · split
      · exact fun _ => rfl
      · split
        · exact fun _ => rfl
        · split
          · exact fun _ => rfl
          · exact h

end Check

section
variable {preview : RemoteBatchImportSession} {confirmation : RemoteBatchImportConfirmation}

theorem finalCheck_sane : (finalCheck preview confirmation).Sane := by
  unfold finalCheck
  have hstart : Check.Sane
      { complete := confirmation.sessionId = preview.sessionId ∧
          confirmation.results.length = preview.preview.rows.length
        uncertain := ¬ (confirmation.sessionId = preview.sessionId ∧
          confirmation.results.length = preview.preview.rows.length) } := by
    intro h
    exact decide_eq_false (of_decide_eq_true h)
  generalize ({ complete := _, uncertain := _ } : Check) = started at hstart
  have hfiled : (confirmation.results.foldl Check.file started).Sane := by
    generalize confirmation.results = results
    induction results generalizing started with
    | nil => exact hstart
    | cons result results ih => exact ih _ (hstart.file result)
  generalize confirmation.results.foldl Check.file started = filed at hfiled
  generalize preview.preview.rows = rows
  induction rows generalizing filed with
  | nil => exact hfiled
  | cons row rows ih => exact ih _ (hfiled.take row)

/-- What is found about a confirmation. -/
theorem validateRemoteTransferConfirmation_eq :
    validateRemoteTransferConfirmation preview confirmation =
      let check := if (finalCheck preview confirmation).results.isEmpty then finalCheck preview confirmation
        else (finalCheck preview confirmation).doubt
      if !check.complete || check.accountIds.length ≠ preview.preview.rows.length then
        .error { message := "remote server did not confirm every selected account"
                 createdAccountIds := check.createdAccountIds
                 uncertain := check.uncertain }
      else .ok { accountIds := check.accountIds, createdAccountIds := check.createdAccountIds } := rfl

/-- A transfer that is not uncertain is answered, and what was created is known. -/
theorem validate_certain {error : RemoteTransferConfirmationError}
    (h : validateRemoteTransferConfirmation preview confirmation = .error error)
    (hcertain : error.uncertain = false) :
    Answered preview confirmation ∧
      error.createdAccountIds = (finalCheck preview confirmation).createdAccountIds := by
  rw [validateRemoteTransferConfirmation_eq] at h
  dsimp only at h
  by_cases hempty : (finalCheck preview confirmation).results.isEmpty = true
  · rw [if_pos hempty] at h
    split at h
    case isTrue =>
      obtain rfl := Except.error.inj h
      exact ⟨answered_of_certain hcertain hempty, rfl⟩
    case isFalse => exact nomatch h
  · rw [if_neg hempty] at h
    split at h
    case isTrue =>
      obtain rfl := Except.error.inj h
      exact nomatch hcertain
    case isFalse => exact nomatch h

/-- Every import of an answered transfer succeeded. -/
theorem validate_ok_iff {confirmed : RemoteTransferConfirmation} :
    validateRemoteTransferConfirmation preview confirmation = .ok confirmed ↔
      (Answered preview confirmation ∧ ∀ result ∈ confirmation.results, result.succeeded = true) ∧
        confirmed = ⟨(finalCheck preview confirmation).accountIds,
          (finalCheck preview confirmation).createdAccountIds⟩ := by
  rw [validateRemoteTransferConfirmation_eq]
  dsimp only
  constructor
  · intro h
    by_cases hempty : (finalCheck preview confirmation).results.isEmpty = true
    · rw [if_pos hempty] at h
      split at h
      case isTrue => exact nomatch h
      case isFalse hcomplete =>
        rw [Bool.or_eq_true, not_or, Bool.not_eq_true, Bool.not_eq_false'] at hcomplete
        have hcertain : (finalCheck preview confirmation).uncertain = false := by
          by_contra hdoubt
          exact nomatch hcomplete.1.symm.trans (finalCheck_sane (Bool.eq_true_of_not_eq_false hdoubt))
        have hanswered := answered_of_certain hcertain hempty
        obtain ⟨matched, hperm, -, hall, -⟩ := finalCheck_answered hanswered
        rw [hall, List.all_eq_true] at hcomplete
        exact ⟨⟨hanswered, fun result hresult => hcomplete.1 result (hperm.mem_iff.mpr hresult)⟩,
          (Except.ok.inj h).symm⟩
    · rw [if_neg hempty] at h
      exact nomatch h
  · rintro ⟨⟨hanswered, hall⟩, rfl⟩
    obtain ⟨matched, hperm, hmatched, hcomplete, -, haccounts, -, hempty⟩ := finalCheck_answered hanswered
    have hsucceeded : ∀ result ∈ matched, result.succeeded = true :=
      fun result hresult => hall result (hperm.mem_iff.mp hresult)
    have hlength : (matched.filterMap RemoteBatchImportResult.account).length = preview.preview.rows.length := by
      rw [← List.length_map RemoteBatchImportRow.itemId, ← hmatched, List.length_map, List.filterMap_length_eq_length]
      intro result hresult
      obtain ⟨accountId, haccount, -⟩ := hanswered.told result (hperm.mem_iff.mp hresult) (hsucceeded result hresult)
      rw [RemoteBatchImportResult.account, if_pos (hsucceeded result hresult), haccount]
      rfl
    rw [if_pos hempty, if_neg]
    rw [hcomplete, haccounts, List.all_eq_true.mpr hsucceeded, hlength]
    simp

end

/-- An account is reported as created by an import that succeeded. -/
def ReportedCreated (confirmation : RemoteBatchImportConfirmation) (accountId : String) : Prop :=
  ∃ result ∈ confirmation.results, result.status = "succeeded" ∧ result.created = true ∧
    result.accountId = some accountId

theorem createdAccount_eq_some {result : RemoteBatchImportResult} {accountId : String} :
    result.createdAccount = some accountId ↔
      result.status = "succeeded" ∧ result.created = true ∧ result.accountId = some accountId := by
  unfold RemoteBatchImportResult.createdAccount RemoteBatchImportResult.account
    RemoteBatchImportResult.succeeded
  by_cases hstatus : result.status = "succeeded" <;> cases result.created <;> simp [hstatus]

variable {preview : RemoteBatchImportSession} {confirmation : RemoteBatchImportConfirmation}

/-- The created accounts of an answered transfer are those reported as created. -/
theorem mem_createdAccountIds_iff (h : Answered preview confirmation) (accountId : String) :
    accountId ∈ (finalCheck preview confirmation).createdAccountIds ↔ ReportedCreated confirmation accountId := by
  obtain ⟨matched, hperm, -, -, -, -, hcreated, -⟩ := finalCheck_answered h
  rw [hcreated, List.mem_filterMap]
  constructor
  · rintro ⟨result, hresult, hreported⟩
    exact ⟨result, hperm.mem_iff.mp hresult, createdAccount_eq_some.mp hreported⟩
  · rintro ⟨result, hresult, hreported⟩
    exact ⟨result, hperm.mem_iff.mpr hresult, createdAccount_eq_some.mpr hreported⟩

/-- The confirmation is of the session, has one result for every row, every import succeeded, and their
accounts are valid and distinct. -/
structure Confirmed (preview : RemoteBatchImportSession) (confirmation : RemoteBatchImportConfirmation) :
    Prop where
  session : confirmation.sessionId = preview.sessionId
  distinct : (confirmation.results.map RemoteBatchImportResult.itemId).Nodup
  rows : (confirmation.results.map RemoteBatchImportResult.itemId).Perm
    (preview.preview.rows.map RemoteBatchImportRow.itemId)
  succeeded : ∀ result ∈ confirmation.results, result.status = "succeeded"
  valid : ∀ result ∈ confirmation.results,
    ∃ accountId, result.accountId = some accountId ∧ (objectPath "accounts" accountId).toOption.isSome = true
  accounts : (confirmation.results.map RemoteBatchImportResult.accountId).Nodup

/-- The accounts of imports that succeeded. -/
theorem map_some_account {results : List RemoteBatchImportResult}
    (h : ∀ result ∈ results, result.succeeded = true ∧ result.accountId.isSome = true) :
    (results.filterMap RemoteBatchImportResult.account).map some =
      results.map RemoteBatchImportResult.accountId := by
  induction results with
  | nil => rfl
  | cons result results ih =>
    obtain ⟨⟨hsucceeded, hsome⟩, hrest⟩ := List.forall_mem_cons.mp h
    obtain ⟨accountId, haccount⟩ := Option.isSome_iff_exists.mp hsome
    have hreported : result.account = some accountId := by
      rw [RemoteBatchImportResult.account, if_pos hsucceeded, haccount]
    rw [List.filterMap_cons_some hreported, List.map_cons, List.map_cons, ih hrest, haccount]

theorem confirmed_iff :
    Confirmed preview confirmation ↔
      Answered preview confirmation ∧ ∀ result ∈ confirmation.results, result.succeeded = true := by
  constructor
  · rintro ⟨hsession, hdistinct, hrows, hsucceeded, hvalid, haccounts⟩
    have hall : ∀ result ∈ confirmation.results, result.succeeded = true :=
      fun result hresult => decide_eq_true (hsucceeded result hresult)
    refine ⟨⟨hsession, hdistinct, hrows, fun result hresult _ => hvalid result hresult, ?_⟩, hall⟩
    refine List.Nodup.of_map some ?_
    rw [map_some_account fun result hresult => ⟨hall result hresult, ?_⟩]
    · exact haccounts
    · obtain ⟨accountId, haccount, -⟩ := hvalid result hresult
      rw [haccount]
      rfl
  · rintro ⟨⟨hsession, hdistinct, hrows, htold, haccounts⟩, hall⟩
    have hvalid : ∀ result ∈ confirmation.results, ∃ accountId, result.accountId = some accountId ∧
        (objectPath "accounts" accountId).toOption.isSome = true :=
      fun result hresult => htold result hresult (hall result hresult)
    refine ⟨hsession, hdistinct, hrows, fun result hresult => of_decide_eq_true (hall result hresult), hvalid, ?_⟩
    rw [← map_some_account fun result hresult => ⟨hall result hresult, ?_⟩]
    · exact haccounts.map (Option.some_injective _)
    · obtain ⟨accountId, haccount, -⟩ := hvalid result hresult
      rw [haccount]
      rfl

/-- The accounts in the order of the rows. -/
theorem accounts_of_rows {results matched : List RemoteBatchImportResult} {rows : List RemoteBatchImportRow}
    (hitems : matched.map RemoteBatchImportResult.itemId = rows.map RemoteBatchImportRow.itemId)
    (h : ∀ result ∈ matched, result ∈ results ∧ ∃ accountId, result.account = some accountId) :
    List.Forall₂ (fun row accountId => ∃ result ∈ results, result.itemId = row.itemId ∧
      result.accountId = some accountId) rows (matched.filterMap RemoteBatchImportResult.account) := by
  induction matched generalizing rows with
  | nil =>
    obtain rfl := List.map_eq_nil_iff.mp hitems.symm
    exact .nil
  | cons result matched ih =>
    cases rows with
    | nil => exact nomatch hitems
    | cons row rows =>
      obtain ⟨hitem, hitems⟩ := List.cons.inj hitems
      obtain ⟨⟨hmem, accountId, haccount⟩, hrest⟩ := List.forall_mem_cons.mp h
      rw [List.filterMap_cons_some haccount]
      refine .cons ⟨result, hmem, hitem, ?_⟩ (ih hitems hrest)
      rw [RemoteBatchImportResult.account] at haccount
      split at haccount
      case isTrue => exact haccount
      case isFalse => exact nomatch haccount

/-- A transfer is confirmed exactly by a reply that has one valid new account for every row; the accounts
are returned in the order of the rows, and unless it is uncertain what the server did, the accounts that
are to be deleted after a failure are those that an import that succeeded reports as created. -/
theorem confirmation_spec (preview : RemoteBatchImportSession) (confirmation : RemoteBatchImportConfirmation) :
    ((∃ confirmed, validateRemoteTransferConfirmation preview confirmation = .ok confirmed) ↔
      Confirmed preview confirmation) ∧
    (∀ confirmed, validateRemoteTransferConfirmation preview confirmation = .ok confirmed →
      List.Forall₂ (fun row accountId => ∃ result ∈ confirmation.results, result.itemId = row.itemId ∧
        result.accountId = some accountId) preview.preview.rows confirmed.accountIds ∧
      ∀ accountId, accountId ∈ confirmed.createdAccountIds ↔ ReportedCreated confirmation accountId) ∧
    ∀ error, validateRemoteTransferConfirmation preview confirmation = .error error → error.uncertain = false →
      ∀ accountId, accountId ∈ error.createdAccountIds ↔ ReportedCreated confirmation accountId := by
  refine ⟨?_, fun confirmed h => ?_, fun error h hcertain => ?_⟩
  · rw [confirmed_iff]
    exact ⟨fun ⟨confirmed, h⟩ => (validate_ok_iff.mp h).1, fun h => ⟨_, validate_ok_iff.mpr ⟨h, rfl⟩⟩⟩
  · obtain ⟨⟨hanswered, hall⟩, rfl⟩ := validate_ok_iff.mp h
    refine ⟨?_, mem_createdAccountIds_iff hanswered⟩
    obtain ⟨matched, hperm, hmatched, -, -, haccounts, -⟩ := finalCheck_answered hanswered
    rw [haccounts]
    refine accounts_of_rows hmatched fun result hresult => ?_
    have hmem := hperm.mem_iff.mp hresult
    obtain ⟨accountId, haccount, -⟩ := hanswered.told result hmem (hall result hmem)
    refine ⟨hmem, accountId, ?_⟩
    rw [RemoteBatchImportResult.account, if_pos (hall result hmem), haccount]
  · obtain ⟨hanswered, hcreated⟩ := validate_certain h hcertain
    rw [hcreated]
    exact mem_createdAccountIds_iff hanswered

/-! ## Samples -/

def onePreview : RemoteBatchImportSession where
  sessionId := "batch_00000000000000000000000000000000"
  prepared := true
  preview := ⟨[⟨"import_11111111111111111111111111111111", "ready", true⟩]⟩

/-- A reply to the preview. -/
def oneReply (sessionId status : String) : RemoteBatchImportConfirmation where
  sessionId
  results := [⟨"import_11111111111111111111111111111111", status, some "remote-new", true⟩]

/-- A reply for another session is refused though it has an account for every row, and the account of an import that
failed is not deleted even if it is said to be created. -/
theorem other_session_refused :
    (validateRemoteTransferConfirmation onePreview
        (oneReply "batch_11111111111111111111111111111111" "succeeded")).toOption = none ∧
      (validateRemoteTransferConfirmation onePreview (oneReply onePreview.sessionId "succeeded")).toOption =
        some ⟨["remote-new"], ["remote-new"]⟩ ∧
      validateRemoteTransferConfirmation onePreview (oneReply onePreview.sessionId "failed") =
        .error ⟨"remote server did not confirm every selected account", [], false⟩ := by
  decide +kernel

end Zenith.Server.Transfer
