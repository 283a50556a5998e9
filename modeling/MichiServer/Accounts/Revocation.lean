import MichiServer.Basic
import MichiServer.Interleave.Pool

/-!
# Where a login session is kept

A session is a row of `auth_sessions`, found by the hash of its token, and an entry of the cache that
`AuthState` keeps in memory, found by the token itself.
-/

namespace MichiServer.Accounts

structure AuthSession where
  userId : Uuid
  expiresAt : DateTime
deriving DecidableEq

structure SessionData where
  expiry : DateTime
  userId : Uuid
deriving DecidableEq

/-- The rows by their hash, the cache by the token, and the users there are. -/
structure Sessions where
  authSessions : String → Option AuthSession
  sessions : String → Option SessionData
  users : List Uuid

namespace Sessions

variable (s : Sessions)

def cachedUserId (token : String) (now : DateTime) : Option Uuid :=
  ((s.sessions token).filter fun data => data.expiry > now).map SessionData.userId

def storedUserId (tokenHash : String) (now : DateTime) : Option Uuid :=
  ((s.authSessions tokenHash).filter fun row => row.expiresAt > now).map AuthSession.userId

def accepted (hashToken : String → String) (token : String) (now : DateTime) : Option Uuid :=
  match s.cachedUserId token now with
  | some userId => if userId ∈ s.users then some userId else none
  | none => (s.storedUserId (hashToken token) now).filter fun userId => userId ∈ s.users

end Sessions

/-!
## The revocation of login sessions

`extract_user_id` looks in the cache, then in `auth_sessions`, and puts into the cache what it found
there, each in a step of its own. `invalidate`, `invalidate_user_sessions` and `clear_all_sessions`
delete rows first and cached entries after; a password change deletes rows and leaves the cache.

The world keeps beside the sessions which tokens were issued, to whom, and which of them a call that
has returned revoked. A call of `extract_user_id` remembers whether its token was revoked when it began.
-/

open Interleave

/-- The sessions, the tokens issued with their users, and the revoked ones among them. -/
structure SessionWorld extends Sessions where
  issued : List (String × Uuid) := []
  revoked : List String := []

inductive RevokeScope where
  | session (token : String)
  | user (userId : Uuid)
  | all
deriving DecidableEq

namespace RevokeScope

def covers : RevokeScope → String → Uuid → Bool
  | session token, t, _ => t == token
  | user userId, _, u => u == userId
  | all, _, _ => true

def coversRow (hashToken : String → String) : RevokeScope → String → Uuid → Bool
  | session token, tokenHash, _ => tokenHash == hashToken token
  | user userId, _, u => u == userId
  | all, _, _ => true

theorem coversRow_of_covers {scope : RevokeScope} {token : String} {userId : Uuid}
    (h : scope.covers token userId = true) (hashToken : String → String) :
    scope.coversRow hashToken (hashToken token) userId = true := by
  cases scope with
  | session t =>
    rw [show token = t from eq_of_beq h]
    exact beq_self_eq_true _
  | user u => exact h
  | all => rfl

end RevokeScope

inductive SessionTask where
  | extractUserId (token : String)
  | userOfCached (wasRevoked : Bool) (token : String) (userId : Uuid)
  | getAuthSession (wasRevoked : Bool) (token : String)
  | userOfStored (wasRevoked : Bool) (token : String) (userId : Uuid) (remaining : ℤ)
  | insertStored (wasRevoked : Bool) (token : String) (userId : Uuid) (remaining : ℤ)
  | deleteAuthSession (tokenHash : String)
  | createSession (userId : Uuid)
  | insertCreated (token : String) (userId : Uuid)
  | deleteRows (scope : RevokeScope)
  | removeCached (scope : RevokeScope) (doomed : List String)
  | updateUserPasswordAndRevokeSessions (userId : Uuid)
deriving DecidableEq

namespace SessionTask

def invalidate (token : String) : SessionTask := deleteRows (.session token)

def invalidateUserSessions (userId : Uuid) : SessionTask := deleteRows (.user userId)

def clearAllSessions : SessionTask := deleteRows .all

end SessionTask

inductive SessionCall where
  | extractUserId (token : String)
  | createSession (userId : Uuid)
  | invalidate (token : String)
  | invalidateUserSessions (userId : Uuid)
  | clearAllSessions
  | updateUserPasswordAndRevokeSessions (userId : Uuid)
deriving DecidableEq

/-- What a step meets: the two clocks, whether the database answers, and the token drawn. -/
structure SessionEnv where
  instant : DateTime := 0
  now : DateTime := 0
  database : Bool := true
  token : String := ""
deriving DecidableEq

/-- What happens beside the calls: the two halves of `cleanup`, a restart of the process, and any
change of the users. -/
inductive SessionTick where
  | cleanupCached (instant : DateTime)
  | cleanupExpiredAuthSessions (now : DateTime)
  | restart
  | setUsers (users : List Uuid)
deriving DecidableEq

def sessionDuration : ℤ := 86400

namespace SessionWorld

variable (w : SessionWorld)

def keepRows (keep : String → AuthSession → Bool) : SessionWorld :=
  { w with authSessions := fun tokenHash => (w.authSessions tokenHash).filter (keep tokenHash) }

def keepCached (keep : String → SessionData → Bool) : SessionWorld :=
  { w with sessions := fun token => (w.sessions token).filter (keep token) }

def insertCached (token : String) (data : SessionData) : SessionWorld :=
  { w with sessions := fun t => if t = token then some data else w.sessions t }

def issue (hashToken : String → String) (token : String) (row : AuthSession) : SessionWorld :=
  { w with
    authSessions := fun h => if h = hashToken token then some row else w.authSessions h
    issued := (token, row.userId) :: w.issued }

def doomed (scope : RevokeScope) : List String :=
  (w.issued.filter fun p => scope.covers p.1 p.2).map Prod.fst

def revoke (tokens : List String) : SessionWorld := { w with revoked := tokens ++ w.revoked }

def deleteRows (hashToken : String → String) (scope : RevokeScope) : SessionWorld :=
  w.keepRows fun tokenHash row => !scope.coversRow hashToken tokenHash row.userId

def removeCached (scope : RevokeScope) : SessionWorld :=
  w.keepCached fun token data => !scope.covers token data.userId

/-- What happens beside the calls. The rows of a deleted user go with it (`ON DELETE CASCADE`). -/
def tick : SessionTick → SessionWorld → SessionWorld
  | .cleanupCached instant, w => w.keepCached fun _ data => data.expiry > instant
  | .cleanupExpiredAuthSessions now, w => w.keepRows fun _ row => row.expiresAt > now
  | .restart, w => w.keepCached fun _ _ => false
  | .setUsers users, w => { w.keepRows fun _ row => row.userId ∈ users with users }

end SessionWorld

namespace SessionTask

def enter : SessionCall → SessionTask
  | .extractUserId token => .extractUserId token
  | .createSession userId => .createSession userId
  | .invalidate token => invalidate token
  | .invalidateUserSessions userId => invalidateUserSessions userId
  | .clearAllSessions => clearAllSessions
  | .updateUserPasswordAndRevokeSessions userId =>
    .updateUserPasswordAndRevokeSessions userId

def step (hashToken : String → String) :
    SessionTask → SessionEnv → SessionWorld → List SessionTask × SessionWorld
  | .extractUserId token, env, w =>
    let wasRevoked := decide (token ∈ w.revoked)
    match w.cachedUserId token env.instant with
    | some userId => ([.userOfCached wasRevoked token userId], w)
    | none => ([.getAuthSession wasRevoked token], w)
  | .userOfCached _ token userId, env, w =>
    if env.database ∧ userId ∈ w.users then ([], w)
    else ([invalidate token], w)  -- spawned, the call itself answers `None`
  | .getAuthSession wasRevoked token, env, w =>
    match w.authSessions (hashToken token) with
    | some row =>
      if env.database ∧ row.expiresAt > env.now then
        ([.userOfStored wasRevoked token row.userId (row.expiresAt - env.now)], w)
      else ([], w)
    | none => ([], w)
  | .userOfStored wasRevoked token userId remaining, env, w =>
    if env.database ∧ userId ∈ w.users then
      ([.insertStored wasRevoked token userId remaining], w)
    else ([.deleteAuthSession (hashToken token)], w)
  | .insertStored _ token userId remaining, env, w =>
    ([], w.insertCached token ⟨env.instant + remaining, userId⟩)
  | .deleteAuthSession tokenHash, env, w =>
    if env.database then ([], w.keepRows fun h _ => h != tokenHash) else ([], w)
  | .createSession userId, env, w =>
    if env.database ∧ userId ∈ w.users ∧ w.authSessions (hashToken env.token) = none then
      ([.insertCreated env.token userId],
        w.issue hashToken env.token ⟨userId, env.now + sessionDuration⟩)
    else ([], w)
  | .insertCreated token userId, env, w =>
    ([], w.insertCached token ⟨env.instant + sessionDuration, userId⟩)
  | .deleteRows scope, env, w =>
    if env.database then ([.removeCached scope (w.doomed scope)], w.deleteRows hashToken scope)
    else ([], w)
  | .removeCached scope doomed, _, w => ([], (w.removeCached scope).revoke doomed)
  | .updateUserPasswordAndRevokeSessions userId, env, w =>
    if env.database then
      ([], (w.deleteRows hashToken (.user userId)).revoke (w.doomed (.user userId)))
    else ([], w)

/-- The call is one of `extract_user_id` that began when its token was revoked, and this step of it
answers with a user. -/
def acceptsRevoked : SessionTask → SessionEnv → SessionWorld → Prop
  | .userOfCached wasRevoked _ userId, env, w =>
    wasRevoked = true ∧ env.database = true ∧ userId ∈ w.users
  | .insertStored wasRevoked _ _ _, _, _ => wasRevoked = true
  | _, _, _ => False

instance : (t : SessionTask) → (env : SessionEnv) → (w : SessionWorld) →
    Decidable (t.acceptsRevoked env w)
  | .userOfCached .., _, _ => inferInstanceAs (Decidable (_ ∧ _ ∧ _))
  | .insertStored .., _, _ => inferInstanceAs (Decidable (_ = _))
  | .extractUserId _, _, _ | .getAuthSession .., _, _ | .userOfStored .., _, _
  | .deleteAuthSession _, _, _ | .createSession _, _, _ | .insertCreated .., _, _
  | .deleteRows _, _, _ | .removeCached .., _, _
  | .updateUserPasswordAndRevokeSessions _, _, _ => inferInstanceAs (Decidable False)

end SessionTask

def sessionMachine (hashToken : String → String) :
    Machine SessionCall SessionTask SessionEnv SessionTick SessionWorld where
  enter := SessionTask.enter
  step := SessionTask.step hashToken
  tick := SessionWorld.tick

abbrev LoginPool := Pool SessionTask SessionWorld

abbrev LoginMove := PoolMove SessionCall SessionEnv SessionTick

def noSessionYet (users : List Uuid) : LoginPool where
  tasks := []
  world :=
    { authSessions := fun _ => none
      sessions := fun _ => none
      users }

end MichiServer.Accounts
