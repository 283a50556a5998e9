import MichiServer.Accounts.Login
import MichiServer.Logic.Trace

/-!
# Do the two logins agree?

`login_handler` goes by the database of this moment, `check_auth` also by the configuration the
server was started with, as it is spelled. So they agree exactly while the configured name, blanks
included, is the name of an account that the configured password, blanks included, opens, and nobody
can log in without a name. A start makes the first so where there are no blanks; it stays so while
that account keeps its name and its hash.
-/

namespace MichiServer.Accounts

open MichiServer.Logic MichiServer.Text

section

variable (argon : Argon2) (md5 : String → String)

/-! ## Agreement -/

structure LoginsAgree (config : Config) (users : Users) : Prop where
  password : ∀ username password p, stripPrefix password "enc:" = none → Sends password p →
    ((checkAuth argon md5 config.osAppState users ⟨some username, some p, none, none⟩).isOk = true ↔
      (loginHandler argon config.authEnabled users username password).isOk = true)
  token : ∀ username t s,
    (checkAuth argon md5 config.osAppState users ⟨some username, none, some t, some s⟩).isOk
      = true →
    ∃ password, (loginHandler argon config.authEnabled users username password).isOk = true ∧
      eqIgnoreAsciiCase t (md5 (password ++ s)) = true

/-- The account of the configured name is opened by the configured password, both as spelled. Of a
password that begins with `enc:` only tokens can be sent; there each token must be one of a password
that opens the account. -/
def ConfiguredOpened (config : Config) (users : Users) : Prop :=
  ∀ cfgUser cfgPass, config.authUsername = some cfgUser →
    config.authPassword = some cfgPass →
    if stripPrefix cfgPass "enc:" = none then users.Opened argon cfgUser cfgPass
    else ∀ s, ∃ password, users.Opened argon cfgUser password ∧
      eqIgnoreAsciiCase (md5 (cfgPass ++ s)) (md5 (password ++ s)) = true

def NamelessClosed (users : Users) : Prop :=
  ∀ password, stripPrefix password "enc:" = none → ¬ users.Opened argon "" password

structure Config.Named (config : Config) : Prop where
  enabled : config.authEnabled = true
  credentials : ∃ cfgUser cfgPass, config.authUsername = some cfgUser ∧
    config.authPassword = some cfgPass ∧ cfgUser ≠ ""

variable {argon md5} {config : Config} {users : Users}

section Sent

variable {cfgUser cfgPass : String} (henabled : config.authEnabled = true)
  (huser : config.authUsername = some cfgUser) (hpass : config.authPassword = some cfgPass)

include henabled huser hpass

theorem checkAuth_password {username password p : String}
    (hplain : stripPrefix password "enc:" = none) (hsends : Sends password p) :
    (checkAuth argon md5 config.osAppState users ⟨some username, some p, none, none⟩).isOk
      = true ↔ username ≠ "" ∧
        (username = cfgUser ∧ password = cfgPass ∨ users.Opened argon username password) := by
  rw [checkAuth_isOk henabled, checkConfigured_eq_true huser hpass,
    verifyPassword_sent hplain hsends, checkStored_password hplain hsends]

theorem checkAuth_token {username t s : String} :
    (checkAuth argon md5 config.osAppState users ⟨some username, none, some t, some s⟩).isOk
      = true ↔ username ≠ "" ∧ username = cfgUser ∧
        eqIgnoreAsciiCase t (md5 (cfgPass ++ s)) = true := by
  rw [checkAuth_isOk henabled, checkConfigured_eq_true huser hpass, verify_token_sent,
    checkStored_token]
  simp

end Sent

theorem login_isOk (henabled : config.authEnabled = true) {username password : String} :
    (loginHandler argon config.authEnabled users username password).isOk = true ↔
      users.Opened argon username password := by
  rw [henabled]
  exact loginHandler_isOk

/-- The two ways in agree exactly where the configured account is opened and no account without a name
is. -/
theorem logins_agree_iff (hnamed : config.Named) : LoginsAgree argon md5 config users ↔
    ConfiguredOpened argon md5 config users ∧ NamelessClosed argon users := by
  obtain ⟨henabled, cfgUser, cfgPass, huser, hpass, hname⟩ := hnamed
  constructor
  · intro hagree
    constructor
    · intro user pass huser' hpass'
      cases huser.symm.trans huser'
      cases hpass.symm.trans hpass'
      split
      next hplain =>
        have haccepted : (checkAuth argon md5 config.osAppState users
            ⟨some cfgUser, some cfgPass, none, none⟩).isOk = true :=
          (checkAuth_password henabled huser hpass hplain .plain).mpr ⟨hname, .inl ⟨rfl, rfl⟩⟩
        exact (login_isOk henabled).mp
          ((hagree.password _ _ _ hplain .plain).mp haccepted)
      next =>
        intro s
        have haccepted : (checkAuth argon md5 config.osAppState users
            ⟨some cfgUser, none, some (md5 (cfgPass ++ s)), some s⟩).isOk = true :=
          (checkAuth_token henabled huser hpass).mpr
            ⟨hname, rfl, eqIgnoreAsciiCase_refl _⟩
        obtain ⟨password, hlogin, htoken⟩ := hagree.token _ _ _ haccepted
        exact ⟨password, (login_isOk henabled).mp hlogin, htoken⟩
    · intro password hplain hopened
      have hlogin := (login_isOk henabled).mpr hopened
      have haccepted := (hagree.password _ _ _ hplain .plain).mpr hlogin
      exact ((checkAuth_password henabled huser hpass hplain .plain).mp haccepted).1 rfl
  · rintro ⟨hconfigured, hnameless⟩
    have hopened := hconfigured cfgUser cfgPass huser hpass
    constructor
    · intro username password p hplain hsends
      rw [checkAuth_password henabled huser hpass hplain hsends, login_isOk henabled]
      constructor
      · grind
      · intro h
        refine ⟨?_, .inr h⟩
        rintro rfl
        exact hnameless password hplain h
    · intro username t s haccepted
      obtain ⟨-, rfl, htoken⟩ := (checkAuth_token henabled huser hpass).mp haccepted
      split at hopened
      next => exact ⟨cfgPass, (login_isOk henabled).mpr hopened, htoken⟩
      next =>
        obtain ⟨password, hpassword, hsame⟩ := hopened s
        grind [login_isOk, eqIgnoreAsciiCase_trans]

/-! ## Histories -/

/-- The users table, and the configuration of the server that is running. -/
structure Host where
  users : Users
  server : Option Config

/-- What happens to a host: a server start, with the id and the salt it may draw; a password change;
any other change of the users. -/
inductive AccountEvent where
  | start (config : Config) (newId : Uuid) (salt : ℕ)
  | updateUserPasswordAndRevokeSessions (id : Uuid) (passwordHash : String) (isAdmin : Bool)
  | edit (users : Users)

variable (argon) in
/-- One event. A server that cannot make its administrator does not start; a statement that fails
changes nothing. -/
def hostStep (s : Host) : AccountEvent → Host
  | .start config newId salt =>
    match initAdminUser argon salt config s.users newId with
    | .ok (_, users) => ⟨users, some config⟩
    | .error _ => ⟨s.users, none⟩
  | .updateUserPasswordAndRevokeSessions id passwordHash isAdmin =>
    match s.users.updateUserPasswordAndRevokeSessions id passwordHash isAdmin with
    | .ok users => { s with users }
    | .error _ => s
  | .edit users => { s with users }

def Config.Unblanked (config : Config) : Prop :=
  (∀ username ∈ config.authUsername, trim username = username) ∧
    ∀ password ∈ config.authPassword, trim password = password

def Host.configured (s : Host) : Option UserRow :=
  (s.server.bind Config.authUsername).bind s.users.getUserByUsername

/-- A start is with credentials without blanks around them, and among users with names. After it the
configured account keeps its name and its hash, and no account is without a name. -/
def Careful (s : Host) : AccountEvent → Prop
  | .start config _ _ => (config.authEnabled = true → config.Unblanked) ∧
      s.users.getUserByUsername "" = none
  | .updateUserPasswordAndRevokeSessions id _ _ => ∀ row ∈ s.configured, row.id ≠ id
  | .edit users => users.getUserByUsername "" = none ∧ ∀ row ∈ s.configured,
      ∃ row', users.getUserByUsername row.username = some row' ∧
        row'.passwordHash = row.passwordHash

def Host.Started (s : Host) : Prop :=
  ∀ config, s.server = some config → config.authEnabled = true → config.Named

variable (argon) in
/-- The configured account is opened by the configured password, and every account has a name. -/
structure Host.InStep (s : Host) : Prop where
  opened : ∀ config, s.server = some config → config.authEnabled = true →
    ∃ cfgUser cfgPass, config.authUsername = some cfgUser ∧
      config.authPassword = some cfgPass ∧ s.users.Opened argon cfgUser cfgPass
  named : s.server.isSome = true → s.users.getUserByUsername "" = none

theorem named_of_adminUsername {username password : String} (henabled : config.authEnabled = true)
    (husername : config.adminUsername = some username)
    (hpassword : config.adminPassword = some password) : config.Named := by
  obtain ⟨hmap, hne⟩ := Option.filter_eq_some_iff.mp husername
  obtain ⟨cfgUser, huser, rfl⟩ := Option.map_eq_some_iff.mp hmap
  obtain ⟨hmap', -⟩ := Option.filter_eq_some_iff.mp hpassword
  obtain ⟨cfgPass, hpass, -⟩ := Option.map_eq_some_iff.mp hmap'
  refine ⟨henabled, cfgUser, cfgPass, huser, hpass, ?_⟩
  rintro rfl
  simp [trim] at hne

theorem started_off (users : Users) : Host.Started ⟨users, none⟩ := by
  intro config hserver
  cases hserver

theorem in_step_off (users : Users) : Host.InStep argon ⟨users, none⟩ where
  opened := by
    intro config hserver
    cases hserver
  named := by
    intro hserver
    cases hserver

theorem started_step {s : Host} (hs : s.Started) (e : AccountEvent) :
    (hostStep argon s e).Started := by
  cases e with
  | start config newId salt =>
    intro config' hserver henabled
    grind [hostStep, chooseAdmin_of_init, named_of_adminUsername]
  | updateUserPasswordAndRevokeSessions id passwordHash isAdmin =>
    simp only [hostStep]
    split
    · exact hs
    · exact hs
  | edit users => exact hs

/-- A careful start leaves the account in step with the configuration. -/
theorem in_step_start (hcorrect : argon.Correct) {s : Host} {config : Config} {newId : Uuid}
    {salt : ℕ} (hcareful : Careful s (.start config newId salt)) :
    (hostStep argon s (.start config newId salt)).InStep argon := by
  obtain ⟨hblanks, hnamed⟩ := hcareful
  simp only [hostStep]
  split
  next id users' hinit =>
    cases henabled : config.authEnabled with
    | false =>
      have hsame : users' = s.users := by
        grind [initAdminUser]
      constructor
      · grind
      · grind
    | true =>
      obtain ⟨username, password, admin, husername, hpassword, hchoose⟩ :=
        chooseAdmin_of_init henabled hinit
      have hchosen := chosen_of_chooseAdmin hcorrect hchoose
      obtain ⟨hmap, hne⟩ := Option.filter_eq_some_iff.mp husername
      obtain ⟨cfgUser, huser, rfl⟩ := Option.map_eq_some_iff.mp hmap
      obtain ⟨hmap', -⟩ := Option.filter_eq_some_iff.mp hpassword
      obtain ⟨cfgPass, hpass, rfl⟩ := Option.map_eq_some_iff.mp hmap'
      constructor
      · intro config' hserver _
        cases hserver
        have hopened := hchosen.opened
        rw [(hblanks henabled).1 cfgUser huser, (hblanks henabled).2 cfgPass hpass] at hopened
        exact ⟨cfgUser, cfgPass, huser, hpass, hopened⟩
      · intro _
        apply Users.getUserByUsername_eq_none.mpr
        intro row hmem hempty
        rcases hchosen.names hmem with hconfigured | hold
        · rw [← hconfigured, hempty] at hne
          simp at hne
        · obtain ⟨old, hold, hname⟩ := List.mem_map.mp hold
          exact Users.getUserByUsername_eq_none.mp hnamed old hold (hname.trans hempty)
  next =>
    exact in_step_off s.users

theorem Host.InStep.edited {s : Host} (hs : s.InStep argon) {users' : Users}
    (hnamed : s.server.isSome = true → users'.getUserByUsername "" = none)
    (hkept : ∀ row ∈ s.configured, ∃ row', users'.getUserByUsername row.username = some row' ∧
      row'.passwordHash = row.passwordHash) : (⟨users', s.server⟩ : Host).InStep argon := by
  refine ⟨?_, hnamed⟩
  intro config hserver henabled
  obtain ⟨cfgUser, cfgPass, huser, hpass, row, hget, hopens⟩ := hs.opened config hserver henabled
  have hrow : row ∈ s.configured := by
    grind [Host.configured]
  obtain ⟨row', hget', hhash⟩ := hkept row hrow
  rw [(Users.getUserByUsername_eq_some.mp hget).2] at hget'
  exact ⟨cfgUser, cfgPass, huser, hpass, row', hget', by rw [hhash]; exact hopens⟩

/-- So does every careful event. -/
theorem in_step_step (hcorrect : argon.Correct) {s : Host} (hs : s.InStep argon) {e : AccountEvent}
    (hcareful : Careful s e) : (hostStep argon s e).InStep argon := by
  cases e with
  | start config newId salt => exact in_step_start hcorrect hcareful
  | updateUserPasswordAndRevokeSessions id passwordHash isAdmin =>
    simp only [hostStep]
    split
    next users' hupdate =>
      apply hs.edited
      · intro hserver
        apply Users.getUserByUsername_eq_none.mpr
        intro row hmem
        rw [Users.ofRows_eq_ok hupdate] at hmem
        obtain ⟨old, hold, rfl⟩ := List.mem_map.mp hmem
        have hname := Users.getUserByUsername_eq_none.mp (hs.named hserver) old hold
        split
        · exact hname
        · exact hname
      · intro row hrow
        have hmem : row ∈ s.users.rows := by
          obtain ⟨username, -, hget⟩ := Option.bind_eq_some_iff.mp hrow
          exact (Users.getUserByUsername_eq_some.mp hget).1
        have hkept := Users.mem_updateWhere hupdate hmem
        rw [if_neg (hcareful row hrow)] at hkept
        exact ⟨row, Users.getUserByUsername_eq_some.mpr ⟨hkept, rfl⟩, rfl⟩
    next => exact hs
  | edit users' => exact hs.edited (fun _ => hcareful.1) hcareful.2

/-- After every history the two logins agree exactly where the configured credentials, as spelled,
open an account and no account without a name can be opened; and so they do after every history that
is careful with the configured account. -/
theorem logins_agree (argon : Argon2) (md5 : String → String) (users : Users)
    (events : List AccountEvent) :
    (∀ config, (Trace.run (hostStep argon) ⟨users, none⟩ events).server = some config →
      config.authEnabled = true →
      (LoginsAgree argon md5 config (Trace.run (hostStep argon) ⟨users, none⟩ events).users ↔
        ConfiguredOpened argon md5 config (Trace.run (hostStep argon) ⟨users, none⟩ events).users ∧
          NamelessClosed argon (Trace.run (hostStep argon) ⟨users, none⟩ events).users)) ∧
    (argon.Correct → Trace.Obeys (hostStep argon) Careful ⟨users, none⟩ events →
      ∀ config, (Trace.run (hostStep argon) ⟨users, none⟩ events).server = some config →
        config.authEnabled = true →
        LoginsAgree argon md5 config (Trace.run (hostStep argon) ⟨users, none⟩ events).users) := by
  have hstarted : (Trace.run (hostStep argon) ⟨users, none⟩ events).Started :=
    Trace.run_kept (I := Host.Started) (fun s e hs => started_step hs e) (started_off users) events
  refine ⟨fun config hserver henabled => logins_agree_iff (hstarted config hserver henabled), ?_⟩
  intro hcorrect hcareful config hserver henabled
  have hinstep : (Trace.run (hostStep argon) ⟨users, none⟩ events).InStep argon :=
    Trace.run_invariant (I := Host.InStep argon) (fun s e hs he => in_step_step hcorrect hs he)
      (in_step_off users) hcareful
  apply (logins_agree_iff (hstarted config hserver henabled)).mpr
  constructor
  · intro cfgUser cfgPass huser hpass
    obtain ⟨cfgUser', cfgPass', huser', hpass', hopened⟩ := hinstep.opened config hserver henabled
    cases huser'.symm.trans huser
    cases hpass'.symm.trans hpass
    split
    · exact hopened
    · exact fun salt => ⟨cfgPass, hopened, eqIgnoreAsciiCase_refl _⟩
  · rintro password - ⟨row, hget, -⟩
    rw [hinstep.named (by rw [hserver]; rfl)] at hget
    cases hget

end

/-! ## Three histories -/

section Histories

/-- A stand-in for the two crates that is right about passwords: a hash spells the password's bytes,
and a token the text it is of. -/
def spelled : Argon2 where
  PasswordHash := List UInt8
  parse := fun text =>
    match stripPrefix text "$argon2id$" |>.bind Hex.decode with
    | some bytes => .ok bytes
    | none => .error "password hash string invalid"
  verify := fun password parsed => password = parsed
  hash := fun password _ => .ok ("$argon2id$" ++ Hex.encode password)

theorem spelled_correct : spelled.Correct := by
  intro password salt text h
  cases h
  simp [spelled, stripPrefix_append, Hex.decode_encode]

def noUsers : Users := ⟨[], by decide⟩

def plainConfig : Config := ⟨true, some "admin", some "secret123"⟩

def blankConfig : Config := ⟨true, some "admin", some "secret123 "⟩

def carefulHistory : List AccountEvent :=
  [.start plainConfig 7 0, .updateUserPasswordAndRevokeSessions 8 "" false]

/-- After the start, the password of another account is changed. -/
theorem logins_agree_careful : LoginsAgree spelled id plainConfig
    (Trace.run (hostStep spelled) ⟨noUsers, none⟩ carefulHistory).users := by
  apply (logins_agree spelled id noUsers carefulHistory).2 spelled_correct _ _ rfl rfl
  refine ⟨⟨fun _ => ⟨?_, ?_⟩, rfl⟩, ?_, trivial⟩
  · intro username h
    cases h
    decide
  · intro password h
    cases h
    decide
  · intro row h
    cases h
    decide

def changedHistory : List AccountEvent :=
  [.start plainConfig 7 0,
    .updateUserPasswordAndRevokeSessions 7 ("$argon2id$" ++ Hex.encode (asBytes "other4567"))
      true]

/-- After the change, and after a start with a blank, the OpenSubsonic login takes a password that the
other does not. -/
theorem logins_disagree :
    ¬ LoginsAgree spelled id plainConfig
      (Trace.run (hostStep spelled) ⟨noUsers, none⟩ changedHistory).users ∧
    ¬ LoginsAgree spelled id blankConfig
      (Trace.run (hostStep spelled) ⟨noUsers, none⟩ [.start blankConfig 7 0]).users := by
  constructor
  · intro hagree
    have hsame := hagree.password "admin" "secret123" "secret123" (by decide) .plain
    exact absurd (hsame.mp (by decide +kernel)) (by decide +kernel)
  · intro hagree
    have hsame := hagree.password "admin" "secret123 " "secret123 " (by decide) .plain
    exact absurd (hsame.mp (by decide +kernel)) (by decide +kernel)

end Histories

end MichiServer.Accounts
