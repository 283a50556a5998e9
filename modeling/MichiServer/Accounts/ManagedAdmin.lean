import MichiServer.Accounts.Agreement
import MichiServer.Accounts.Revocation

/-!
# What a start leaves of the accounts and their sessions

`init_admin_user` on both tables that it writes, with every statement that may fail. Of the accounts
there were it changes at most one, which it names; of the sessions it deletes at most those of that
account. A change of the rights alone revokes nothing.
-/

namespace MichiServer.Accounts

open MichiServer.Logic MichiServer.Text

/-- The tables a start reads and writes; the rows of `auth_sessions` by the hash of their token. -/
structure AuthTables where
  users : Users
  authSessions : String → Option AuthSession

inductive Query where
  | managed | matching | admins | uniqueness | insert
deriving DecidableEq

/-- Where an attempt of a transaction fails: up to its check, or behind it. -/
inductive Fault where
  | check (error : String)
  | write (error : String)

/-- What a start meets: the id and the salt it draws, and the statements that fail. -/
structure Start where
  newId : Uuid
  salt : ℕ
  query : Query → Option String
  attempt : ℕ → Option Fault

namespace AuthTables

section

variable (id : Uuid) (username passwordHash : String) (revokeSessions : Bool) (db : AuthTables)

/-- What the transaction writes, if no statement fails for another reason. -/
def written : Except String AuthTables :=
  (db.users.reconcileManagedAdmin id username passwordHash).map fun users =>
    { users
      authSessions := fun key =>
        if revokeSessions then (db.authSessions key).filter fun s => s.userId ≠ id
        else db.authSessions key }

/-- One transaction: its error, and whether another attempt may follow. -/
def attempt (fault : Option Fault) : Except (String × Bool) AuthTables :=
  let collides := db.users.rows.any fun r => r.username = username ∧ r.id ≠ id
  match fault, db.written id username passwordHash revokeSessions with
  | some (.check e), _ => .error (e, true)
  | _, .error e => .error (e, !collides)
  | some (.write e), .ok _ => .error (e, true)
  | none, .ok db' => .ok db'

/-- `reconcile_managed_admin`, with so many attempts left behind this one. -/
def reconcileManagedAdmin (fault : ℕ → Option Fault) : ℕ → Except String AuthTables
  | 0 => (db.attempt id username passwordHash revokeSessions (fault 0)).mapError Prod.fst
  | left + 1 =>
    match db.attempt id username passwordHash revokeSessions (fault (left + 1)) with
    | .ok db' => .ok db'
    | .error (e, retry) => if retry then reconcileManagedAdmin fault left else .error e

end

theorem written_of_attempt {id : Uuid} {username hash : String} {revoke : Bool}
    {db db' : AuthTables} {fault : Option Fault}
    (h : db.attempt id username hash revoke fault = .ok db') :
    db.written id username hash revoke = .ok db' := by
  unfold attempt at h
  grind

theorem written_of_reconcile {id : Uuid} {username hash : String} {revoke : Bool}
    {db db' : AuthTables} {fault : ℕ → Option Fault} {left : ℕ}
    (h : db.reconcileManagedAdmin id username hash revoke fault left = .ok db') :
    db.written id username hash revoke = .ok db' := by
  induction left with
  | zero => exact written_of_attempt (mapError_eq_ok_iff.mp h)
  | succ left ih =>
    grind [reconcileManagedAdmin, written_of_attempt]

/-! ## `init_admin_user` -/

section

variable (argon : Argon2) (env : Start)

def query (q : Query) (context : String) : Handler String AuthTables Unit :=
  match env.query q with
  | some e => throw s!"{context}: {e}"
  | none => pure ()

def reconcile (id : Uuid) (username hash : String) (revokeSessions : Bool) (context : String) :
    Handler String AuthTables Unit :=
  .update fun db =>
    match db.reconcileManagedAdmin id username hash revokeSessions env.attempt 9 with
    | .ok db' => (db', .ok ())
    | .error e => (db, .error s!"{context}: {e}")

def reconcileManaged (managed : UserRow) (username password : String) :
    Handler String AuthTables Uuid := do
  let passwordMatches := opens argon password managed.passwordHash
  let credentialsChanged := !passwordMatches || managed.username ≠ username
  let hash ← MonadExcept.ofExcept (targetHash argon env.salt password managed.passwordHash)
  if credentialsChanged || !managed.isAdmin then
    reconcile env managed.id username hash credentialsChanged "failed to reconcile managed admin"
  return managed.id

def adoptMatching (user : UserRow) (username password : String) :
    Handler String AuthTables Uuid := do
  let hash ← MonadExcept.ofExcept (targetHash argon env.salt password user.passwordHash)
  reconcile env user.id username hash (!opens argon password user.passwordHash)
    "failed to adopt matching user as managed admin"
  return user.id

def newHash (password : String) : Except String String :=
  (hashPassword argon password env.salt).mapError fun e => s!"failed to hash admin password: {e}"

def adoptLegacy (legacyAdmin : UserRow) (username password : String) :
    Handler String AuthTables Uuid := do
  let hash ← MonadExcept.ofExcept (newHash argon env password)
  reconcile env legacyAdmin.id username hash true "failed to adopt legacy admin"
  return legacyAdmin.id

def createAdmin (username password : String) : Handler String AuthTables Uuid := do
  query env .uniqueness "failed to check username uniqueness"
  let db ← get
  .rejectIf ((db.users.getUserByUsername username).isSome)
    (s!"Cannot create managed admin with username '{username}'" ++
      ": username is already taken by a non-admin user")
  let hash ← MonadExcept.ofExcept (newHash argon env password)
  query env .insert "failed to create managed admin user"
  .update fun db =>
    match db.users.createManagedAdminUser env.newId username hash with
    | .ok users => ({ db with users }, .ok ())
    | .error e => (db, .error s!"failed to create managed admin user: {e}")
  return env.newId

def chooseAdmin (username password : String) : Handler String AuthTables Uuid := do
  query env .managed "failed to query managed admin from database"
  match (← get).users.getManagedAdminUser with
  | some managed => reconcileManaged argon env managed username password
  | none =>
    query env .matching "failed to check user by username"
    match (← get).users.getUserByUsername username with
    | some user => adoptMatching argon env user username password
    | none =>
      query env .admins "failed to list admin users"
      match (← get).users.listAdminUsers with
      | [legacyAdmin] => adoptLegacy argon env legacyAdmin username password
      | [] => createAdmin argon env username password
      | existingAdmins =>
        let count := existingAdmins.length
        throw (s!"Ambiguous administrator state: {count} admin users exist, but none matches " ++
          s!"configured MICHI_AUTH_USERNAME '{username}' and none is marked as " ++
          "managed_by_environment. Refusing to initialize administrator to prevent unauthorized " ++
          "privilege escalation or data corruption.")

def initAdminUser (config : Config) : Handler String AuthTables (Option Uuid) :=
  if config.authEnabled then do
    let username ← .require config.adminUsername
      "MICHI_AUTH_USERNAME is missing or empty while auth is enabled"
    let password ← .require config.adminPassword
      "MICHI_AUTH_PASSWORD is missing or shorter than 8 characters"
    return some (← chooseAdmin argon env username password)
  else return none

end

/-! ## The law -/

/-- The account with this id is the one managed administrator, with this name, and this password
opens it. No other account was touched, nor a session of another; where its name or its hash was
changed, no session of it is left. -/
structure Reconciled (argon : Argon2) (username password : String) (db : AuthTables) (id : Uuid)
    (db' : AuthTables) : Prop where
  managed : ∃ hash, opens argon password hash = true ∧
    db'.users.rows.filter UserRow.managedByEnvironment = [⟨id, username, hash, true, true⟩]
  others : ∀ r, r.id ≠ id → (r ∈ db'.users.rows ↔ r ∈ db.users.rows)
  revoked : ∀ r ∈ db.users.rows, ∀ r' ∈ db'.users.rows, r.id = r'.id →
    r.username ≠ r'.username ∨ r.passwordHash ≠ r'.passwordHash →
      ∀ key s, db'.authSessions key = some s → s.userId ≠ r.id
  kept : ∀ key s, db.authSessions key = some s → s.userId ≠ id → db'.authSessions key = some s
  issued : ∀ key s, db'.authSessions key = some s → db.authSessions key = some s

section

variable {argon : Argon2} {env : Start} {db db' : AuthTables} {id : Uuid} {row : UserRow}
  {username password hash context : String} {revoke : Bool}

theorem Users.row_eq {users : Users} {r r' : UserRow} (hr : r ∈ users.rows) (hr' : r' ∈ users.rows)
    (h : r.id = r'.id) : r = r' :=
  List.inj_on_of_nodup_map users.constraints.ids hr hr' h

theorem Users.filter_managed {users : Users} {r : UserRow} (hr : r ∈ users.rows)
    (h : r.managedByEnvironment = true) :
    users.rows.filter UserRow.managedByEnvironment = [r] := by
  have hmem : r ∈ users.rows.filter UserRow.managedByEnvironment := List.mem_filter.mpr ⟨hr, h⟩
  have hone := users.constraints.managed
  obtain ⟨x, hx⟩ := List.length_eq_one_iff.mp (Nat.le_antisymm hone (List.length_pos_of_mem hmem))
  rw [hx] at hmem ⊢
  rw [List.mem_singleton.mp hmem]

/-- The row that is written opens for the password, and no session of other credentials is left. -/
theorem reconciled_of_written (hmem : row ∈ db.users.rows) (hopens : opens argon password hash = true)
    (hrevoke : row.username ≠ username ∨ row.passwordHash ≠ hash → revoke = true)
    (h : db.written row.id username hash revoke = .ok db') :
    Reconciled argon username password db row.id db' := by
  obtain ⟨users, husers, rfl⟩ := map_eq_ok_iff.mp h
  have hrows : users.rows = db.users.rows.map fun r =>
      if r.id = row.id then ⟨r.id, username, hash, true, true⟩ else r := by
    unfold Users.reconcileManagedAdmin at husers
    split at husers
    · cases husers
    · exact Users.ofRows_eq_ok husers
  have hadmin : (⟨row.id, username, hash, true, true⟩ : UserRow) ∈ users.rows := by
    rw [hrows]
    exact List.mem_map.mpr ⟨row, hmem, if_pos rfl⟩
  refine ⟨⟨hash, hopens, Users.filter_managed hadmin rfl⟩, fun r hr => ?_, ?_, ?_, ?_⟩
  · grind
  · intro r hr r' hr' hid hchanged key s hs
    simp only [hrows, List.mem_map] at hr'
    obtain ⟨r₀, hr₀, rfl⟩ := hr'
    have hsame : r = r₀ := Users.row_eq hr hr₀ (by
      rw [hid]
      split <;> rfl)
    subst hsame
    split at hchanged
    next hrow =>
      cases Users.row_eq hr hmem hrow
      rw [hrevoke hchanged] at hs
      exact of_decide_eq_true (Option.filter_eq_some_iff.mp hs).2
    next => simp at hchanged
  · grind
  · intro key s hs
    dsimp only at hs
    split at hs
    · exact (Option.filter_eq_some_iff.mp hs).1
    · exact hs

theorem leaves_query {q : Query} {P : Unit → AuthTables → Prop} (h : P () db) :
    Handler.Leaves (query env q context) db P fun _ s => s = db := by
  unfold query
  split
  · exact .throw rfl
  · exact .pure h

theorem leaves_reconcile {P : Unit → AuthTables → Prop}
    (h : ∀ db', db.written id username hash revoke = .ok db' → P () db') :
    Handler.Leaves (reconcile env id username hash revoke context) db P fun _ s => s = db := by
  refine .update (fun a ha => ?_) fun e he => ?_
  · grind [AuthTables.written_of_reconcile]
  · split at he
    · cases he
    · rfl

theorem targetHash_changed {current : String}
    (h : targetHash argon env.salt password current = .ok hash) (hchanged : current ≠ hash) :
    opens argon password current = false := by
  grind [targetHash]

/-- The managed administrator is reconciled, or nothing changes. -/
theorem leaves_reconcileManaged (hcorrect : argon.Correct)
    (hmanaged : db.users.getManagedAdminUser = some row) :
    Handler.Leaves (reconcileManaged argon env row username password) db
      (fun id => Reconciled argon username password db id) fun _ s => s = db := by
  have hmem := List.mem_of_find?_eq_some hmanaged
  have hmark : row.managedByEnvironment = true := List.find?_some hmanaged
  refine .bind (.ofExcept (fun hash hhash => ?_) fun _ _ => rfl)
  dsimp only
  split
  · refine .bind (leaves_reconcile fun db' h => .pure ?_)
    refine reconciled_of_written hmem (opens_targetHash hcorrect hhash) ?_ h
    grind [targetHash_changed]
  next hsame =>
    simp only [Bool.or_eq_true, Bool.not_eq_true', decide_eq_true_eq, not_or, not_not,
      Bool.not_eq_false] at hsame
    obtain ⟨⟨hopens, rfl⟩, hadmin⟩ := hsame
    refine .bind (.pure (.pure ⟨⟨row.passwordHash, hopens, ?_⟩, fun _ _ => Iff.rfl, ?_,
      fun _ _ h _ => h, fun _ _ h => h⟩))
    · rw [Users.filter_managed hmem hmark]
      cases row
      simp_all
    · grind [Users.row_eq]

/-- The account that is created is reconciled, or nothing changes. -/
theorem leaves_createAdmin (hcorrect : argon.Correct) :
    Handler.Leaves (createAdmin argon env username password) db
      (fun id => Reconciled argon username password db id) fun _ s => s = db := by
  refine .bind (leaves_query (.bind (.get (.bind (.rejectIf (fun _ => rfl) fun _ => ?_)))))
  refine .bind (.ofExcept (fun hash hhash => .bind (leaves_query ?_)) fun _ _ => rfl)
  have hopens := opens_hashPassword hcorrect (mapError_eq_ok_iff.mp hhash)
  refine .bind (.update (fun a ha => .pure ?_) fun e he => ?_)
  · split at ha
    next users hcreate =>
      have hrows : users.rows = db.users.rows ++ [⟨env.newId, username, hash, true, true⟩] :=
        Users.ofRows_eq_ok hcreate
      have hadmin : (⟨env.newId, username, hash, true, true⟩ : UserRow) ∈ users.rows := by
        simp [hrows]
      refine ⟨⟨hash, hopens, Users.filter_managed hadmin rfl⟩, fun r hr => ?_, ?_,
        fun _ _ h _ => h, fun _ _ h => h⟩
      · grind
      · intro r hr r' hr' hid hchanged
        have hold : r ∈ users.rows := by simp [hrows, hr]
        cases Users.row_eq hold hr' hid
        simp at hchanged
    next => cases ha
  · split at he
    · cases he
    · rfl

/-- Whichever account is chosen, it is reconciled, or nothing changes. -/
theorem leaves_chooseAdmin (hcorrect : argon.Correct) :
    Handler.Leaves (chooseAdmin argon env username password) db
      (fun id => Reconciled argon username password db id) fun _ s => s = db := by
  refine .bind (leaves_query (.bind (.get ?_)))
  split
  next managed hmanaged => exact leaves_reconcileManaged hcorrect hmanaged
  refine .bind (leaves_query (.bind (.get ?_)))
  split
  next user huser =>
    obtain ⟨hmem, hname⟩ := Users.getUserByUsername_eq_some.mp huser
    refine .bind (.ofExcept (fun hash hhash => ?_) fun _ _ => rfl)
    refine .bind (leaves_reconcile fun db' h => .pure ?_)
    refine reconciled_of_written hmem (opens_targetHash hcorrect hhash) ?_ h
    grind [targetHash_changed]
  refine .bind (leaves_query (.bind (.get ?_)))
  split
  next legacyAdmin hadmins =>
    have hmem : legacyAdmin ∈ db.users.listAdminUsers := by simp [hadmins]
    refine .bind (.ofExcept (fun hash hhash => ?_) fun _ _ => rfl)
    refine .bind (leaves_reconcile fun db' h => .pure ?_)
    exact reconciled_of_written (List.mem_filter.mp hmem).1
      (opens_hashPassword hcorrect (mapError_eq_ok_iff.mp hhash)) (fun _ => rfl) h
  next => exact leaves_createAdmin hcorrect
  next => exact .throw rfl

theorem Reconciled.settled (h : Reconciled argon username password db' id db) :
    Handler.Leaves (chooseAdmin argon env username password) db (fun _ s => s = db)
      fun _ s => s = db := by
  obtain ⟨hash, hopens, hfilter⟩ := h.managed
  have hmanaged : db.users.getManagedAdminUser = some ⟨id, username, hash, true, true⟩ := by
    rw [Users.getManagedAdminUser, ← List.head?_filter, hfilter]
    rfl
  refine .bind (leaves_query (.bind (.get ?_)))
  rw [hmanaged]
  refine .bind (.ofExcept (fun _ _ => ?_) fun _ _ => rfl)
  simp only [hopens, Bool.not_true, ne_eq, not_true_eq_false, decide_false, Bool.or_self,
    Bool.false_eq_true, if_false]
  exact .pure rfl

end

/-- What a start that succeeds leaves. A second one, whatever fails in it, leaves the same. -/
def Started (argon : Argon2) (config : Config) (db : AuthTables) (id : Option Uuid)
    (db' : AuthTables) : Prop :=
  (match id with
  | none => config.authEnabled = false ∧ db' = db
  | some id => config.authEnabled = true ∧
    ∃ username password, config.adminUsername = some username ∧
      config.adminPassword = some password ∧ Reconciled argon username password db id db') ∧
  ∀ again, ((initAdminUser argon again config).exec db').2 = db'

/-- A start with authentication that succeeds names the one managed administrator and touches no other
account; one that fails, and a second one with the same configuration, change nothing. Without
authentication nothing is changed and nobody is named. -/
theorem init_admin_user_reconciles (argon : Argon2) (hcorrect : argon.Correct) (env : Start)
    (config : Config) (db : AuthTables) :
    (initAdminUser argon env config).Leaves db (Started argon config db) fun _ db' => db' = db := by
  refine .ite (fun henabled => ?_) fun hdisabled => .pure ⟨⟨by simpa using hdisabled, rfl⟩, ?_⟩
  · refine .bind (.require (fun _ => rfl) fun username husername => ?_)
    refine .bind (.require (fun _ => rfl) fun password hpassword => ?_)
    refine .bind ((leaves_chooseAdmin hcorrect).mono (fun id db' hdb' => .pure ?_) fun _ _ he => he)
    refine ⟨⟨henabled, username, password, husername, hpassword, hdb'⟩, fun again => ?_⟩
    refine Handler.Leaves.final (Q := fun s => s = db') ?_
    rw [initAdminUser, if_pos henabled, husername, hpassword]
    exact .bind (.pure (.bind (.pure (.bind
      (hdb'.settled.mono (fun _ _ hs => .pure hs) fun _ _ he => he)))))
  · intro again
    rw [initAdminUser, if_neg hdisabled]
    rfl

def quiet : Start := ⟨7, 0, fun _ => none, fun _ => none⟩

/-- One account, of the configured name and password but no administrator, with one session. -/
def demoted : AuthTables where
  users := ⟨[⟨3, "admin", "$argon2id$" ++ Hex.encode (asBytes "secret123"), false, false⟩], by decide⟩
  authSessions := fun key => if key = "token" then some ⟨3, 10⟩ else none

/-- The account of the configured name is no administrator, and is made one. -/
theorem init_admin_user_reconciles_demoted :
    (initAdminUser spelled quiet plainConfig).Leaves demoted (Started spelled plainConfig demoted)
      fun _ db' => db' = demoted :=
  init_admin_user_reconciles spelled spelled_correct quiet plainConfig demoted

/-- The account gains the rights of an administrator, and its session is still there. -/
theorem init_admin_user_keeps_session :
    ∃ id db', (initAdminUser spelled quiet plainConfig).exec demoted = (.ok id, db') ∧
      ¬ ∀ r ∈ demoted.users.rows, ∀ r' ∈ db'.users.rows, r.id = r'.id → r ≠ r' →
        ∀ key s, db'.authSessions key = some s → s.userId ≠ r.id := by
  refine ⟨some 3, _, rfl, fun h => ?_⟩
  exact h _ (.head _) ⟨3, "admin", "$argon2id$" ++ Hex.encode (asBytes "secret123"), true, true⟩
    (by decide) rfl (by decide) "token" ⟨3, 10⟩ (by decide) rfl

end AuthTables

end MichiServer.Accounts
