import MichiServer.Basic
import MichiServer.Logic.Handler
import MichiServer.Text.Str
import Mathlib.Data.List.Nodup

/-!
# The users table and the administrator from the environment

The rows of `users`, with the constraints the database keeps; the statements the server runs on
them; and `init_admin_user`, which makes one account the administrator the configuration names. It
stores the configured name and password without surrounding blanks.

Argon2 is a parameter. Sessions are not modelled: nothing here reads them.
-/

namespace MichiServer.Accounts

open MichiServer.Logic MichiServer.Text

/-- The `argon2` crate, as far as it is used. `hash` draws on the salt it is given. -/
structure Argon2 where
  PasswordHash : Type
  parse : String → Except String PasswordHash
  verify : List UInt8 → PasswordHash → Bool
  hash : List UInt8 → ℕ → Except String String

/-- A hash that was made of a password verifies that password and no other. -/
def Argon2.Correct (argon : Argon2) : Prop :=
  ∀ password salt text, argon.hash password salt = .ok text →
    ∃ parsed, argon.parse text = .ok parsed ∧
      ∀ other, argon.verify other parsed = true ↔ other = password

section

variable (argon : Argon2)

def hashPassword (password : String) (salt : ℕ) : Except String String :=
  argon.hash (asBytes password) salt

def verifyPassword (password hash : String) : Except String Bool :=
  (argon.parse hash).map fun parsed => argon.verify (asBytes password) parsed

def opens (password hash : String) : Bool := (verifyPassword argon password hash).toOption.getD false

end

theorem opens_hashPassword {argon : Argon2} (hcorrect : argon.Correct) {password text : String}
    {salt : ℕ} (h : hashPassword argon password salt = .ok text) :
    opens argon password text = true := by
  obtain ⟨parsed, hparse, hverify⟩ := hcorrect _ _ _ h
  have hself : argon.verify (asBytes password) parsed = true := (hverify _).mpr rfl
  rw [opens, verifyPassword, hparse]
  exact hself

/-! ## Rows -/

structure UserRow where
  id : Uuid
  username : String
  passwordHash : String
  isAdmin : Bool
  managedByEnvironment : Bool := false
deriving DecidableEq

/-- The constraints on the table: the primary key, the unique name and the unique index over the rows
that are managed by the environment. -/
structure Constraints (rows : List UserRow) : Prop where
  ids : (rows.map UserRow.id).Nodup
  names : (rows.map UserRow.username).Nodup
  managed : (rows.filter UserRow.managedByEnvironment).length ≤ 1

instance (rows : List UserRow) : Decidable (Constraints rows) :=
  decidable_of_iff ((rows.map UserRow.id).Nodup ∧ (rows.map UserRow.username).Nodup ∧
    (rows.filter UserRow.managedByEnvironment).length ≤ 1)
    ⟨fun ⟨h₁, h₂, h₃⟩ => ⟨h₁, h₂, h₃⟩, fun h => ⟨h.ids, h.names, h.managed⟩⟩

structure Users where
  rows : List UserRow
  constraints : Constraints rows

namespace Users

variable (users : Users)

/-- What a statement leaves: it fails where the constraints would not hold. -/
def ofRows (rows : List UserRow) : Except String Users :=
  if h : Constraints rows then .ok ⟨rows, h⟩ else .error "database error: UNIQUE constraint failed"

def getUserByUsername (username : String) : Option UserRow :=
  users.rows.find? fun r => r.username = username

def getManagedAdminUser : Option UserRow := users.rows.find? UserRow.managedByEnvironment

def listAdminUsers : List UserRow := users.rows.filter UserRow.isAdmin

def updateWhere (id : Uuid) (f : UserRow → UserRow) : Except String Users :=
  ofRows (users.rows.map fun r => if r.id = id then f r else r)

def createManagedAdminUser (id : Uuid) (username passwordHash : String) : Except String Users :=
  ofRows (users.rows ++ [⟨id, username, passwordHash, true, true⟩])

def updateUserPasswordAndRevokeSessions (id : Uuid) (passwordHash : String)
    (isAdmin : Bool) : Except String Users :=
  users.updateWhere id fun r => { r with passwordHash, isAdmin }

def reconcileManagedAdmin (id : Uuid) (username passwordHash : String) : Except String Users :=
  if users.rows.any fun r => r.username = username ∧ r.id ≠ id then
    .error s!"invalid data: Username collision: '{username}' is already taken by another user"
  else
    users.updateWhere id fun r =>
      { r with username, passwordHash, isAdmin := true, managedByEnvironment := true }

end Users

/-! ## The administrator -/

structure Config where
  authEnabled : Bool
  authUsername : Option String
  authPassword : Option String
deriving DecidableEq

def Config.adminUsername (config : Config) : Option String :=
  (config.authUsername.map trim).filter fun s => s ≠ ""

/-- The configured password as `init_admin_user` takes it: at least eight bytes. -/
def Config.adminPassword (config : Config) : Option String :=
  (config.authPassword.map trim).filter fun s => s.utf8ByteSize ≥ 8

section

variable (argon : Argon2) (salt : ℕ)

/-- The stored hash, if the password opens it, or else a new hash of the password. -/
def targetHash (password current : String) : Except String String :=
  if opens argon password current then .ok current
  else (hashPassword argon password salt).mapError fun e => s!"failed to hash admin password: {e}"

def reconcileManaged (users : Users) (managed : UserRow) (username password : String) :
    Except String (Uuid × Users) := do
  let hash ← targetHash argon salt password managed.passwordHash
  let credentialsChanged :=
    !opens argon password managed.passwordHash || managed.username ≠ username
  if credentialsChanged || !managed.isAdmin then
    let users ← (users.reconcileManagedAdmin managed.id username hash).mapError
      fun e => s!"failed to reconcile managed admin: {e}"
    return (managed.id, users)
  else return (managed.id, users)

def adoptMatching (users : Users) (user : UserRow) (username password : String) :
    Except String (Uuid × Users) := do
  let hash ← targetHash argon salt password user.passwordHash
  let users ← (users.reconcileManagedAdmin user.id username hash).mapError
    fun e => s!"failed to adopt matching user as managed admin: {e}"
  return (user.id, users)

/-- Case B2: no account has the configured name, and there is one administrator. -/
def adoptLegacy (users : Users) (legacyAdmin : UserRow) (username password : String) :
    Except String (Uuid × Users) := do
  let hash ← (hashPassword argon password salt).mapError
    fun e => s!"failed to hash admin password: {e}"
  let users ← (users.reconcileManagedAdmin legacyAdmin.id username hash).mapError
    fun e => s!"failed to adopt legacy admin: {e}"
  return (legacyAdmin.id, users)

def createAdmin (users : Users) (newId : Uuid) (username password : String) :
    Except String (Uuid × Users) := do
  if (users.getUserByUsername username).isSome then
    throw (s!"Cannot create managed admin with username '{username}'" ++
      ": username is already taken by a non-admin user")
  let hash ← (hashPassword argon password salt).mapError
    fun e => s!"failed to hash admin password: {e}"
  let users ← (users.createManagedAdminUser newId username hash).mapError
    fun e => s!"failed to create managed admin user: {e}"
  return (newId, users)

/-- The account made the administrator, by the cases of `init_admin_user`. With two or more
administrators and none to choose, it fails. -/
def chooseAdmin (users : Users) (newId : Uuid) (username password : String) :
    Except String (Uuid × Users) :=
  match users.getManagedAdminUser with
  | some managed => reconcileManaged argon salt users managed username password
  | none =>
    match users.getUserByUsername username with
    | some user => adoptMatching argon salt users user username password
    | none =>
      match users.listAdminUsers with
      | [legacyAdmin] => adoptLegacy argon salt users legacyAdmin username password
      | [] => createAdmin argon salt users newId username password
      | existingAdmins =>
        let count := existingAdmins.length
        .error (s!"Ambiguous administrator state: {count} admin users exist, but none matches " ++
          s!"configured MICHI_AUTH_USERNAME '{username}' and none is marked as " ++
          "managed_by_environment. Refusing to initialize administrator to prevent unauthorized " ++
          "privilege escalation or data corruption.")

/-- `init_admin_user`: the administrator's id, and the users it leaves. An error leaves them as they
were. -/
def initAdminUser (config : Config) (users : Users) (newId : Uuid) :
    Except String (Option Uuid × Users) :=
  if !config.authEnabled then .ok (none, users)
  else
    match config.adminUsername with
    | none => .error "MICHI_AUTH_USERNAME is missing or empty while auth is enabled"
    | some username =>
      match config.adminPassword with
      | none => .error "MICHI_AUTH_PASSWORD is missing or shorter than 8 characters"
      | some password =>
        (chooseAdmin argon salt users newId username password).map fun r => (some r.1, r.2)

end

/-! ## What the statements leave -/

namespace Users

variable {users users' : Users} {id : Uuid} {f : UserRow → UserRow} {row : UserRow}

theorem ofRows_eq_ok {rows : List UserRow} (h : ofRows rows = .ok users) : users.rows = rows := by
  grind [ofRows]

theorem getUserByUsername_eq_some {username : String} :
    users.getUserByUsername username = some row ↔ row ∈ users.rows ∧ row.username = username := by
  constructor
  · intro h
    exact ⟨List.mem_of_find?_eq_some h, by simpa using List.find?_some h⟩
  · rintro ⟨hmem, hname⟩
    cases hfind : users.getUserByUsername username with
    | none =>
      have hnone := List.find?_eq_none.mp hfind row hmem
      simp only [hname, decide_true, not_true] at hnone
    | some other =>
      have hother : other.username = username := by simpa using List.find?_some hfind
      have heq : other = row := List.inj_on_of_nodup_map users.constraints.names
        (List.mem_of_find?_eq_some hfind) hmem (hother.trans hname.symm)
      rw [heq]

theorem getUserByUsername_eq_none {username : String} :
    users.getUserByUsername username = none ↔ ∀ row ∈ users.rows, row.username ≠ username := by
  simp [getUserByUsername]

theorem mem_updateWhere (h : users.updateWhere id f = .ok users') (hmem : row ∈ users.rows) :
    (if row.id = id then f row else row) ∈ users'.rows := by
  rw [ofRows_eq_ok h]
  exact List.mem_map_of_mem hmem

end Users

def Users.Opened (users : Users) (argon : Argon2) (username password : String) : Prop :=
  ∃ row, users.getUserByUsername username = some row ∧ opens argon password row.passwordHash = true

section Administrator

variable {argon : Argon2} {salt : ℕ} {users users' : Users} {username password : String}

theorem opens_targetHash (hcorrect : argon.Correct) {current hash : String}
    (h : targetHash argon salt password current = .ok hash) : opens argon password hash = true := by
  unfold targetHash at h
  split at h
  next hopens =>
    cases h
    exact hopens
  next =>
    cases hhash : hashPassword argon password salt with
    | error e =>
      rw [hhash] at h
      cases h
    | ok text =>
      rw [hhash] at h
      cases h
      exact opens_hashPassword hcorrect hhash

theorem opened_reconcile {row : UserRow} {hash : String} (hmem : row ∈ users.rows)
    (h : users.reconcileManagedAdmin row.id username hash = .ok users')
    (hopens : opens argon password hash = true) : users'.Opened argon username password := by
  unfold Users.reconcileManagedAdmin at h
  split at h
  · cases h
  · have hmem' := Users.mem_updateWhere h hmem
    rw [if_pos rfl] at hmem'
    exact ⟨_, Users.getUserByUsername_eq_some.mpr ⟨hmem', rfl⟩, hopens⟩

/-- How the administrator came about: an account that was as configured already, an account that was
reconciled, or a new one. -/
inductive Chosen (argon : Argon2) (users : Users) (username password : String) (users' : Users) :
    Prop where
  | kept (heq : users' = users) (hopened : users.Opened argon username password)
  | reconciled (row : UserRow) (hmem : row ∈ users.rows) (hash : String)
      (h : users.reconcileManagedAdmin row.id username hash = .ok users')
      (hopens : opens argon password hash = true)
  | created (id : Uuid) (hash : String)
      (h : users.createManagedAdminUser id username hash = .ok users')
      (hopens : opens argon password hash = true)

/-- The account that is chosen opens for the configured name and password. -/
theorem chosen_of_chooseAdmin (hcorrect : argon.Correct) {newId id : Uuid}
    (h : chooseAdmin argon salt users newId username password = .ok (id, users')) :
    Chosen argon users username password users' := by
  unfold chooseAdmin at h
  split at h
  next managed hmanaged =>
    have hmem := List.mem_of_find?_eq_some hmanaged
    unfold reconcileManaged at h
    obtain ⟨hash, hhash, h⟩ := bind_eq_ok_iff.mp h
    dsimp only at h
    split at h
    · obtain ⟨users₁, hreconcile, h⟩ := bind_eq_ok_iff.mp h
      cases h
      exact .reconciled managed hmem hash (mapError_eq_ok_iff.mp hreconcile)
        (opens_targetHash hcorrect hhash)
    next hsame =>
      cases h
      simp only [Bool.or_eq_true, Bool.not_eq_true', decide_eq_true_eq, not_or, not_not,
        Bool.not_eq_false] at hsame
      exact .kept rfl
        ⟨managed, Users.getUserByUsername_eq_some.mpr ⟨hmem, hsame.1.2⟩, hsame.1.1⟩
  next =>
    split at h
    next user huser =>
      have hmem := List.mem_of_find?_eq_some huser
      unfold adoptMatching at h
      obtain ⟨hash, hhash, h⟩ := bind_eq_ok_iff.mp h
      obtain ⟨users₁, hreconcile, h⟩ := bind_eq_ok_iff.mp h
      cases h
      exact .reconciled user hmem hash (mapError_eq_ok_iff.mp hreconcile)
        (opens_targetHash hcorrect hhash)
    next =>
      split at h
      next legacyAdmin hadmins =>
        have hmem : legacyAdmin ∈ users.rows := by
          have hlisted : legacyAdmin ∈ users.listAdminUsers := by
            rw [hadmins]
            exact List.mem_singleton_self _
          exact (List.mem_filter.mp hlisted).1
        unfold adoptLegacy at h
        obtain ⟨hash, hhash, h⟩ := bind_eq_ok_iff.mp h
        obtain ⟨users₁, hreconcile, h⟩ := bind_eq_ok_iff.mp h
        cases h
        exact .reconciled legacyAdmin hmem hash (mapError_eq_ok_iff.mp hreconcile)
          (opens_hashPassword hcorrect (mapError_eq_ok_iff.mp hhash))
      next =>
        unfold createAdmin at h
        split at h
        · cases h
        obtain ⟨hash, hhash, h⟩ := bind_eq_ok_iff.mp h
        obtain ⟨users₁, hcreate, h⟩ := bind_eq_ok_iff.mp h
        cases h
        exact .created newId hash (mapError_eq_ok_iff.mp hcreate)
          (opens_hashPassword hcorrect (mapError_eq_ok_iff.mp hhash))
      next => cases h

theorem Chosen.opened (h : Chosen argon users username password users') :
    users'.Opened argon username password := by
  cases h with
  | kept heq hopened => rw [heq]; exact hopened
  | reconciled row hmem hash h hopens => exact opened_reconcile hmem h hopens
  | created id hash h hopens =>
    have hmem : (⟨id, username, hash, true, true⟩ : UserRow) ∈ users'.rows := by
      rw [Users.ofRows_eq_ok h]
      exact List.mem_append_right _ (List.mem_singleton_self _)
    exact ⟨_, Users.getUserByUsername_eq_some.mpr ⟨hmem, rfl⟩, hopens⟩

theorem Chosen.names (h : Chosen argon users username password users') {row : UserRow}
    (hmem : row ∈ users'.rows) :
    row.username = username ∨ row.username ∈ users.rows.map UserRow.username := by
  cases h with
  | kept heq _ =>
    rw [heq] at hmem
    exact .inr (List.mem_map_of_mem hmem)
  | reconciled old hold hash h _ =>
    unfold Users.reconcileManagedAdmin at h
    split at h
    · cases h
    rw [Users.ofRows_eq_ok h] at hmem
    grind
  | created id hash h _ =>
    rw [Users.ofRows_eq_ok h] at hmem
    grind

/-- A start with a configured administrator chooses one. -/
theorem chooseAdmin_of_init {config : Config} {newId : Uuid} {id : Option Uuid}
    (henabled : config.authEnabled = true)
    (h : initAdminUser argon salt config users newId = .ok (id, users')) :
    ∃ username password admin, config.adminUsername = some username ∧
      config.adminPassword = some password ∧
      chooseAdmin argon salt users newId username password = .ok (admin, users') := by
  unfold initAdminUser at h
  simp only [henabled, Bool.not_true, Bool.false_eq_true, if_false] at h
  split at h
  · cases h
  next username husername =>
    split at h
    · cases h
    next password hpassword =>
      cases hchoose : chooseAdmin argon salt users newId username password with
      | error e =>
        rw [hchoose] at h
        cases h
      | ok r =>
        rw [hchoose] at h
        cases h
        exact ⟨username, password, r.1, husername, hpassword, hchoose⟩

end Administrator

end MichiServer.Accounts
