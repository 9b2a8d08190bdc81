import Mathlib
import Zenith.Quota.Windows

/-!
# Account records

The account states of `accounts/record.rs` and the fields of an account record that the wake
automation reads.
-/

namespace Zenith.Accounts

open Zenith.Quota

inductive AccountAuthMode
  | oauth
  | apiKey
  | importedToken
deriving DecidableEq, Repr

/-- Why an account has to log in again. -/
inductive ReauthReason
  | invalidGrant
  | reusedRefreshToken
  | expiredRefreshToken
  | invalidatedRefreshToken
  | accessTokenExpired
deriving DecidableEq, Repr

inductive AccountAuthState
  | unknown
  | active
  | degradedAccessOnly
  | refreshing
  | error
  | requiresReauth (reason : ReauthReason)
deriving DecidableEq, Repr

inductive AccountHealthState
  | unknown
  | healthy
  | degraded
  | unhealthy
  | blocked
deriving DecidableEq, Repr

structure AccountRecord where
  id : String
  authMode : AccountAuthMode := .oauth
  authState : AccountAuthState := .unknown
  health : AccountHealthState := .unknown
  quota : QuotaSnapshot := {}
  tags : Finset String := ∅
  enabled : Bool := false
  inPool : Bool := false
  draining : Bool := false

def AccountRecord.isWakeEligible (account : AccountRecord) : Bool :=
  account.enabled && account.inPool && !account.draining && account.authState = .active &&
    account.health = .healthy

end Zenith.Accounts
