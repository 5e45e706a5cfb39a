-- SUMMARY: The in-memory stores of credentials and challenges, and everything a call can do to the credentials.
import Sulis.Store.Table
import Sulis.Passkey.Types

/-!
# The in-memory passkey stores

`memstore/passkey.go`: a table of credentials keyed by the store's own ID, and a table
of challenges. A raw credential ID is looked up by a scan of the first, which stops
at any of the rows that have it.
-/

namespace Sulis.Passkey

open Store

/-- Credentials by their `ID`. -/
abbrev PasskeyStore : Type := Table Credential.id

/-- Session data by key. -/
abbrev ChallengeStore : Type := Table (Prod.fst : String × Bytes → String)

namespace PasskeyStore

def saveCredential (s : PasskeyStore) (cred : Credential) : Except Err Unit × PasskeyStore :=
  (.ok (), s.put cred)

def getCredentialsByUserID (s : PasskeyStore) (userID : UUID) (order : Nat) :
    Except Err (List Credential) :=
  .ok (s.list (fun cred => cred.userID = userID) order)

/-- `byCredentialIDLocked` -/
def byCredentialID (s : PasskeyStore) (credentialID : Bytes) (order : Nat) : Option Credential :=
  s.pick (fun cred => cred.credentialID = credentialID) order

def getCredentialByID (s : PasskeyStore) (credentialID : Bytes) (order : Nat) :
    Except Err Credential :=
  match s.byCredentialID credentialID order with
  | none => .error .passkeyNotFound
  | some cred => .ok cred

def updateCredentialAfterLogin (s : PasskeyStore) (credentialID : Bytes) (signCount : Nat)
    (backupState : Bool) (lastUsedAt : Time) (order : Nat) : Except Err Unit × PasskeyStore :=
  match s.byCredentialID credentialID order with
  | none => (.error .passkeyNotFound, s)
  | some cred =>
    (.ok (), s.put { cred with
      signCount := signCount, backupState := backupState, lastUsedAt := some lastUsedAt })

/-- `countByUserLocked` -/
def countByUser (s : PasskeyStore) (userID : UUID) : Nat :=
  (s.rows.filter (fun cred => cred.userID = userID)).length

def deleteCredential (s : PasskeyStore) (userID id : UUID) (allowLast : Bool) :
    Except Err Unit × PasskeyStore :=
  match s.get? id with
  | none => (.error .passkeyNotFound, s)
  | some cred =>
    if cred.userID ≠ userID then (.error .passkeyNotFound, s)
    else if ¬ allowLast ∧ s.countByUser userID ≤ 1 then (.error .lastCredential, s)
    else (.ok (), s.erase id)

def deleteCredentialsByUserID (s : PasskeyStore) (userID : UUID) : Except Err Unit × PasskeyStore :=
  (.ok (), s.filter (fun cred => cred.userID ≠ userID))

def renameCredential (s : PasskeyStore) (userID id : UUID) (name : String) :
    Except Err Unit × PasskeyStore :=
  match s.get? id with
  | none => (.error .passkeyNotFound, s)
  | some cred =>
    if cred.userID ≠ userID then (.error .passkeyNotFound, s)
    else (.ok (), s.put { cred with name := name })

/-! ## What each method can do -/

variable {s : PasskeyStore} {userID id : UUID} {credentialID : Bytes} {order : Nat} {cred : Credential}

theorem byCredentialID_eq_some (h : s.byCredentialID credentialID order = some cred) :
    cred ∈ s ∧ cred.credentialID = credentialID := by
  obtain ⟨hmem, hid⟩ := Table.pick_eq_some h
  exact ⟨hmem, of_decide_eq_true hid⟩

theorem getCredentialByID_eq_ok (h : s.getCredentialByID credentialID order = .ok cred) :
    cred ∈ s ∧ cred.credentialID = credentialID := by
  unfold getCredentialByID at h
  split at h
  · cases h
  · rename_i cred' hpick
    obtain rfl := Except.ok.inj h
    exact byCredentialID_eq_some hpick

theorem getCredentialsByUserID_eq_ok {creds : List Credential}
    (h : s.getCredentialsByUserID userID order = .ok creds) :
    ∀ cred ∈ creds, cred ∈ s ∧ cred.userID = userID := by
  obtain rfl := Except.ok.inj h
  intro cred hcred
  obtain ⟨hmem, huser⟩ := Table.mem_list hcred
  exact ⟨hmem, of_decide_eq_true huser⟩

theorem updateCredentialAfterLogin_cases (s : PasskeyStore) (credentialID : Bytes) (signCount : Nat)
    (backupState : Bool) (lastUsedAt : Time) (order : Nat) :
    s.updateCredentialAfterLogin credentialID signCount backupState lastUsedAt order =
        (.error .passkeyNotFound, s) ∨
      ∃ cred ∈ s, cred.credentialID = credentialID ∧
        s.updateCredentialAfterLogin credentialID signCount backupState lastUsedAt order =
          (.ok (), s.put { cred with
            signCount := signCount, backupState := backupState, lastUsedAt := some lastUsedAt }) := by
  unfold updateCredentialAfterLogin
  split
  · exact Or.inl rfl
  · rename_i cred hpick
    obtain ⟨hmem, hid⟩ := byCredentialID_eq_some hpick
    exact Or.inr ⟨cred, hmem, hid, rfl⟩

theorem deleteCredential_cases (s : PasskeyStore) (userID id : UUID) (allowLast : Bool) :
    (∃ err, s.deleteCredential userID id allowLast = (.error err, s)) ∨
      s.deleteCredential userID id allowLast = (.ok (), s.erase id) := by
  unfold deleteCredential
  split
  · exact Or.inl ⟨_, rfl⟩
  · split
    · exact Or.inl ⟨_, rfl⟩
    · split
      · exact Or.inl ⟨_, rfl⟩
      · exact Or.inr rfl

theorem renameCredential_cases (s : PasskeyStore) (userID id : UUID) (name : String) :
    s.renameCredential userID id name = (.error .passkeyNotFound, s) ∨
      ∃ cred ∈ s, cred.id = id ∧
        s.renameCredential userID id name = (.ok (), s.put { cred with name := name }) := by
  unfold renameCredential
  split
  · exact Or.inl rfl
  · rename_i cred hget
    obtain ⟨hmem, hid⟩ := Table.get?_eq_some.mp hget
    split
    · exact Or.inl rfl
    · exact Or.inr ⟨cred, hmem, hid, rfl⟩

end PasskeyStore

namespace ChallengeStore

def saveChallenge (s : ChallengeStore) (key : String) (sessionData : Bytes) :
    Except Err Unit × ChallengeStore :=
  (.ok (), s.put (key, sessionData))

def consumeChallenge (s : ChallengeStore) (key : String) : Except Err Bytes × ChallengeStore :=
  match s.get? key with
  | none => (.error .challengeNotFound, s)
  | some (_, data) => (.ok data, s.erase key)

end ChallengeStore

end Sulis.Passkey
