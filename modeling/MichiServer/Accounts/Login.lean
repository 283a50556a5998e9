import MichiServer.Accounts.Users
import MichiServer.Text.Hex

/-!
# The two logins

`login_handler` of the API asks the database. `check_auth` of the OpenSubsonic API compares with the
credentials the server was started with, as they were spelled, and then asks the database. A client
of it sends the password, plain or in hexadecimal behind `enc:`, or an MD5 token with a salt.

The login's rate limit, its session and its cookie are not modelled; nor are failures of the database.
-/

namespace MichiServer.Accounts

open MichiServer.Text

structure OsAppState where
  authUsername : Option String
  authPassword : Option String
  authEnabled : Bool

/-- What the OpenSubsonic routes are given when the server starts: the configuration as it is. -/
def Config.osAppState (config : Config) : OsAppState :=
  ⟨config.authUsername, config.authPassword, config.authEnabled⟩

structure SubsonicQuery where
  u : Option String
  p : Option String := none
  t : Option String := none
  s : Option String := none

def notAuthenticated : ℤ := 50

section

variable (argon : Argon2) (md5 : String → String)

def loginHandler (authEnabled : Bool) (users : Users) (username password : String) :
    Except (ℕ × String) (Uuid × String × Bool) :=
  if !authEnabled then .error (400, "auth not configured")
  else
    match users.getUserByUsername username with
    | none => .error (401, "invalid credentials")
    | some user =>
      if opens argon password user.passwordHash then .ok (user.id, user.username, user.isAdmin)
      else .error (401, "invalid credentials")

/-- The bytes of the password in `p`: what is behind `enc:` is hexadecimal, and nothing if it is not
well formed. -/
def decodedBytes (p : String) : List UInt8 :=
  match stripPrefix p "enc:" with
  | some payload => (Hex.decode payload).getD []
  | none => asBytes p

def decodedText (p : String) : String :=
  match stripPrefix p "enc:" with
  | some payload => (fromUtf8 ((Hex.decode payload).getD [])).getD ""
  | none => p

def verifySubsonicCredentials (query : SubsonicQuery) (expectedPass : String) : Bool :=
  (query.p.any fun p => decodedBytes p = asBytes expectedPass) ||
    (match query.t, query.s with
    | some token, some salt => eqIgnoreAsciiCase token (md5 (expectedPass ++ salt))
    | _, _ => false)

def checkConfigured (state : OsAppState) (query : SubsonicQuery) (queryUser : String) : Bool :=
  match state.authUsername, state.authPassword with
  | some cfgUser, some cfgPass =>
    queryUser = cfgUser && verifySubsonicCredentials md5 query cfgPass
  | _, _ => false

def checkStored (users : Users) (query : SubsonicQuery) (queryUser : String) : Bool :=
  match users.getUserByUsername queryUser with
  | some user => query.p.any fun p => opens argon (decodedText p) user.passwordHash
  | none => false

def checkAuth (state : OsAppState) (users : Users) (query : SubsonicQuery) :
    Except (ℤ × String) Unit :=
  let queryUser := query.u.getD ""
  if queryUser = "" then .error (notAuthenticated, "username required")
  else if !state.authEnabled then .ok ()
  else if checkConfigured md5 state query queryUser then .ok ()
  else if checkStored argon users query queryUser then .ok ()
  else .error (notAuthenticated, "invalid username or password")

end

inductive Sends (password : String) : String → Prop where
  | plain : Sends password password
  | enc (payload : String) (h : Hex.decode payload = some (asBytes password)) :
      Sends password ("enc:" ++ payload)

section Forms

variable {password p : String}

theorem decodedBytes_of_sends (hplain : stripPrefix password "enc:" = none)
    (h : Sends password p) : decodedBytes p = asBytes password := by
  cases h with
  | plain => rw [decodedBytes, hplain]
  | enc payload h => rw [decodedBytes, stripPrefix_append]; simp only [h, Option.getD_some]

theorem decodedText_of_sends (hplain : stripPrefix password "enc:" = none)
    (h : Sends password p) : decodedText p = password := by
  cases h with
  | plain => rw [decodedText, hplain]
  | enc payload h =>
    rw [decodedText, stripPrefix_append]
    simp only [h, Option.getD_some, fromUtf8_asBytes]

end Forms

section Accepts

variable {argon : Argon2} {md5 : String → String} {users : Users}

theorem loginHandler_isOk {username password : String} :
    (loginHandler argon true users username password).isOk = true ↔
      users.Opened argon username password := by
  unfold loginHandler Users.Opened
  simp only [Bool.not_true, Bool.false_eq_true, if_false]
  split
  next hget => simp [hget, Except.isOk, Except.toBool]
  next user hget =>
    simp only [hget, Option.some.injEq, exists_eq_left']
    cases opens argon password user.passwordHash <;> simp [Except.isOk, Except.toBool]

theorem checkAuth_isOk {state : OsAppState} (henabled : state.authEnabled = true)
    {username : String} {p t s : Option String} :
    (checkAuth argon md5 state users ⟨some username, p, t, s⟩).isOk = true ↔ username ≠ "" ∧
      (checkConfigured md5 state ⟨some username, p, t, s⟩ username = true ∨
        checkStored argon users ⟨some username, p, t, s⟩ username = true) := by
  unfold checkAuth
  simp only [Option.getD_some, henabled, Bool.not_true, Bool.false_eq_true, if_false]
  by_cases hname : username = ""
  · simp [hname, Except.isOk, Except.toBool]
  · simp only [hname, if_false, ne_eq, not_false_eq_true, true_and]
    split
    next hconfigured => simp [hconfigured, Except.isOk, Except.toBool]
    next hconfigured =>
      split
      next hstored => simp [hstored, Except.isOk, Except.toBool]
      next hstored => simp [hconfigured, hstored, Except.isOk, Except.toBool]

theorem checkConfigured_eq_true {state : OsAppState} {cfgUser cfgPass : String}
    (huser : state.authUsername = some cfgUser) (hpass : state.authPassword = some cfgPass)
    {query : SubsonicQuery} {username : String} :
    checkConfigured md5 state query username = true ↔
      username = cfgUser ∧ verifySubsonicCredentials md5 query cfgPass = true := by
  simp [checkConfigured, huser, hpass]

theorem checkStored_password {username password p : String}
    (hplain : stripPrefix password "enc:" = none) (hsends : Sends password p) :
    checkStored argon users ⟨some username, some p, none, none⟩ username = true ↔
      users.Opened argon username password := by
  grind [checkStored, Users.Opened, decodedText_of_sends]

theorem checkStored_token {username t s : String} :
    checkStored argon users ⟨some username, none, some t, some s⟩ username = false := by
  unfold checkStored
  split <;> rfl

theorem verifyPassword_sent {password p cfgPass : String}
    (hplain : stripPrefix password "enc:" = none) (hsends : Sends password p) {u : Option String} :
    verifySubsonicCredentials md5 ⟨u, some p, none, none⟩ cfgPass = true ↔
      password = cfgPass := by
  simp only [verifySubsonicCredentials, Option.any_some, Bool.or_false, decide_eq_true_eq,
    decodedBytes_of_sends hplain hsends]
  exact ⟨asBytes_inj, fun h => by rw [h]⟩

theorem verify_token_sent {t s cfgPass : String} {u : Option String} :
    verifySubsonicCredentials md5 ⟨u, none, some t, some s⟩ cfgPass =
      eqIgnoreAsciiCase t (md5 (cfgPass ++ s)) := by
  simp [verifySubsonicCredentials]

end Accepts

end MichiServer.Accounts
