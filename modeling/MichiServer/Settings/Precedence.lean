import MichiServer.Settings.Config
import MichiServer.Text.Lines

/-!
# `Config::from_env`

The environment is read, checked and overlaid by `config.json`, and the variables are then applied once
more. Each of the three stages has a list of fields of its own.
-/

namespace MichiServer.Settings

open MichiServer.Ingest MichiServer.Text

abbrev Env := String → Option String

def parseUint (bits : ℕ) (s : String) : Option ℕ := Text.parseUint bits s.toList

def parts (v : String) : List String :=
  (v.toList.splitOn ',').map fun s => trim (String.ofList s)

def listed (v : String) : List String := (parts v).filter fun s => s ≠ ""

section

variable (parseIp : String → Option IpAddr) (unicode : String → String) (env : Env)

def flag (v : String) : Bool := v == "1" || toLowercase unicode v == "true"

def addresses (v : String) : List IpAddr := (parts v).filterMap parseIp

def envUsername : Option String :=
  ((env "MICHI_AUTH_USERNAME").map trim).filter fun s => s ≠ ""

def envPassword : Option String := (env "MICHI_AUTH_PASSWORD").filter fun s => s ≠ ""

def envAuth : Bool := (envUsername env).isSome && (envPassword env).isSome

def envOpensubsonic : Bool := ((env "MICHI_OPENSUBSONIC_ENABLED").map (flag unicode)).getD false

def envBypass : Bool :=
  ((env "MICHI_DEV_ALLOW_OPENSUBSONIC_NO_AUTH").map (flag unicode)).getD false

/-- The variable of the music paths; the second name counts where the first is not set. -/
def envMusic : Option String := (env "MICHI_MUSIC_PATH").or (env "MICHI_MUSIC_PATHS")

/-- The checks of the first stage, with the text of the panic where one fails. -/
def checkEnv : Except String Unit :=
  if (envPassword env).any fun pwd => (asBytes (trim pwd)).length < 8 then
    .error ("CRITICAL: MICHI_AUTH_PASSWORD must be at least 8 non-whitespace characters for " ++
      "fail-closed security")
  else if (envUsername env).isSome && (envPassword env).isNone then
    .error "CRITICAL: MICHI_AUTH_USERNAME provided without MICHI_AUTH_PASSWORD (fail-closed startup)"
  else if (envPassword env).isSome && (envUsername env).isNone then
    .error "CRITICAL: MICHI_AUTH_PASSWORD provided without MICHI_AUTH_USERNAME (fail-closed startup)"
  else if envOpensubsonic unicode env && !envAuth env && !envBypass unicode env then
    .error ("CRITICAL: MICHI_OPENSUBSONIC_ENABLED=true requires authentication to be configured. Set " ++
      "MICHI_AUTH_USERNAME and MICHI_AUTH_PASSWORD before enabling OpenSubsonic. To bypass in " ++
      "development only, set MICHI_DEV_ALLOW_OPENSUBSONIC_NO_AUTH=true.")
  else .ok ()

def firstConfig : Config where
  port := ((env "MICHI_PORT").bind (parseUint 16)).getD 9090
  musicPaths :=
    let paths := listed ((envMusic env).getD "/music")
    if paths.isEmpty then ["/music"] else paths
  syncPeers := listed ((env "MICHI_SYNC_PEERS").getD "")
  syncName := (env "MICHI_SYNC_NAME").getD "default"
  listenbrainzToken := env "MICHI_LISTENBRAINZ_TOKEN"
  lastfmToken := env "MICHI_LASTFM_TOKEN"
  scrobbleEnabled := ((env "MICHI_SCROBBLE_ENABLED").map (flag unicode)).getD false
  authUsername := envUsername env
  authPassword := envPassword env
  authEnabled := envAuth env
  allowRegistration := ((env "MICHI_ALLOW_REGISTRATION").map (flag unicode)).getD false
  corsOrigin := env "MICHI_CORS_ORIGIN"
  devMode := ((env "MICHI_DEV_MODE").map (flag unicode)).getD false
  resourceProfile := .fromConfigStr unicode "balanced"
  streamProfile := .fromConfigStr unicode "original"
  formatPolicy := .fromConfigStr unicode "lossless"
  maxRemoteBitrate := 320000
  remoteSync := false
  language := "en"
  ui := { theme := "dark", sidebarCollapsed := false, coverArtEnabled := true }
  autoBackupEnabled := false
  backupMaxKeep := 7
  jobMaxConcurrent := 3
  reconnectDelayMax := 300
  opensubsonicEnabled := envOpensubsonic unicode env
  trustProxy := ((env "MICHI_TRUST_PROXY").map (flag unicode)).getD false
  trustedProxies := ((env "MICHI_TRUSTED_PROXIES").map (addresses parseIp)).getD defaultProxies
  deploymentPlatform :=
    toLowercase unicode (trim ((env "MICHI_DEPLOYMENT_PLATFORM").getD "unknown"))

/-- `load_file_overrides`; `file` is what `config.json` decodes from, if it is there and parses. -/
def Config.loadFileOverrides (c : Config) : Option ConfigHelper → Config
  | none => c
  | some h =>
    let fileCfg := h.decode unicode
    { c with
      port := fileCfg.port
      musicPaths := if fileCfg.musicPaths.isEmpty then c.musicPaths else fileCfg.musicPaths
      syncPeers := if fileCfg.syncPeers.isEmpty then c.syncPeers else fileCfg.syncPeers
      syncName := if fileCfg.syncName = "" then c.syncName else fileCfg.syncName
      listenbrainzToken := fileCfg.listenbrainzToken.or c.listenbrainzToken
      lastfmToken := fileCfg.lastfmToken.or c.lastfmToken
      scrobbleEnabled := fileCfg.scrobbleEnabled
      allowRegistration := fileCfg.allowRegistration
      devMode := fileCfg.devMode
      resourceProfile := fileCfg.resourceProfile
      streamProfile := fileCfg.streamProfile
      formatPolicy := fileCfg.formatPolicy
      maxRemoteBitrate := fileCfg.maxRemoteBitrate
      remoteSync := fileCfg.remoteSync
      language := fileCfg.language
      ui := fileCfg.ui
      autoBackupEnabled := fileCfg.autoBackupEnabled
      backupMaxKeep := fileCfg.backupMaxKeep
      jobMaxConcurrent := fileCfg.jobMaxConcurrent
      reconnectDelayMax := fileCfg.reconnectDelayMax
      corsOrigin := fileCfg.corsOrigin
      opensubsonicEnabled := fileCfg.opensubsonicEnabled
      trustProxy := fileCfg.trustProxy
      trustedProxies :=
        if fileCfg.trustedProxies.isEmpty then c.trustedProxies else fileCfg.trustedProxies
      deploymentPlatform :=
        if fileCfg.deploymentPlatform ≠ "" ∧ fileCfg.deploymentPlatform ≠ "unknown" then
          fileCfg.deploymentPlatform
        else c.deploymentPlatform }

def Config.applyEnvOverrides (c : Config) : Config :=
  { c with
    port := ((env "MICHI_PORT").bind (parseUint 16)).getD c.port
    musicPaths :=
      match env "MICHI_MUSIC_PATH" with
      | some v => if (listed v).isEmpty then c.musicPaths else listed v
      | none => c.musicPaths
    resourceProfile :=
      ((env "MICHI_RESOURCE_PROFILE").map (ResourceProfile.fromConfigStr unicode)).getD
        c.resourceProfile
    streamProfile :=
      ((env "MICHI_STREAM_PROFILE").map (StreamProfile.fromConfigStr unicode)).getD c.streamProfile
    formatPolicy :=
      ((env "MICHI_FORMAT_POLICY").map (AudioFormatPolicy.fromConfigStr unicode)).getD c.formatPolicy
    syncPeers := ((env "MICHI_SYNC_PEERS").map listed).getD c.syncPeers
    syncName := (env "MICHI_SYNC_NAME").getD c.syncName
    scrobbleEnabled := ((env "MICHI_SCROBBLE_ENABLED").map (flag unicode)).getD c.scrobbleEnabled
    allowRegistration :=
      ((env "MICHI_ALLOW_REGISTRATION").map (flag unicode)).getD c.allowRegistration
    corsOrigin := (env "MICHI_CORS_ORIGIN").or c.corsOrigin
    devMode := ((env "MICHI_DEV_MODE").map (flag unicode)).getD c.devMode
    maxRemoteBitrate := ((env "MICHI_MAX_REMOTE_BITRATE").bind (parseUint 32)).getD c.maxRemoteBitrate
    remoteSync := ((env "MICHI_REMOTE_SYNC").map (flag unicode)).getD c.remoteSync
    language := (env "MICHI_LANG").getD c.language
    autoBackupEnabled := ((env "MICHI_AUTO_BACKUP").map (flag unicode)).getD c.autoBackupEnabled
    backupMaxKeep := ((env "MICHI_BACKUP_KEEP").bind (parseUint 32)).getD c.backupMaxKeep
    jobMaxConcurrent := ((env "MICHI_MAX_JOBS").bind (parseUint 32)).getD c.jobMaxConcurrent
    reconnectDelayMax := ((env "MICHI_RECONNECT_MAX").bind (parseUint 32)).getD c.reconnectDelayMax
    trustProxy := ((env "MICHI_TRUST_PROXY").map (flag unicode)).getD c.trustProxy
    trustedProxies := ((env "MICHI_TRUSTED_PROXIES").map (addresses parseIp)).getD c.trustedProxies
    deploymentPlatform :=
      match env "MICHI_DEPLOYMENT_PLATFORM" with
      | some v => if trim v = "" then c.deploymentPlatform else toLowercase unicode (trim v)
      | none => c.deploymentPlatform }

def fromEnv (file : Option ConfigHelper) : Except String Config :=
  (checkEnv unicode env).map fun _ =>
    ((firstConfig parseIp unicode env).loadFileOverrides unicode file).applyEnvOverrides
      parseIp unicode env

end

/-!
## Which value a field gets

A variable that is set and valid comes first, then the key of the file, then the default. The three
stages of `from_env` keep this for most fields; this module says for which environments and files they
keep it for all, and keep OpenSubsonic behind authentication.
-/

open MichiServer.Logic

/-- The value a field is to have: the variable's, else the file's, else the default. -/
def pick {α : Type} (var key : Option α) (default : α) : α := (var.or key).getD default

section

variable (parseIp : String → Option IpAddr) (unicode : String → String) (env : Env)
  (file : Option ConfigHelper)

/-! ## The variables that are set and valid -/

/-- The list of music paths of the environment is valid if it names one. -/
def validMusic : Option (List String) := ((envMusic env).map listed).filter fun paths => paths ≠ []

def validProfile {α : Type} (strict : String → Except String α) (name : String) : Option α :=
  (env name).bind fun v => (strict v).toOption

def validPlatform : Option String :=
  ((env "MICHI_DEPLOYMENT_PLATFORM").filter fun v => trim v ≠ "").map fun v =>
    toLowercase unicode (trim v)

/-- Every field has the value it is to have, and OpenSubsonic is not enabled without authentication or
the bypass. -/
structure Precedence (cfg : Config) : Prop where
  port : cfg.port = pick ((env "MICHI_PORT").bind (parseUint 16)) (file.bind (·.port)) 9090
  musicPaths : cfg.musicPaths = pick (validMusic env) (file.bind (·.musicPaths)) ["/music"]
  syncPeers :
    cfg.syncPeers = pick ((env "MICHI_SYNC_PEERS").map listed) (file.bind (·.syncPeers)) []
  syncName : cfg.syncName = pick (env "MICHI_SYNC_NAME") (file.bind (·.syncName)) "default"
  listenbrainzToken : cfg.listenbrainzToken =
    (env "MICHI_LISTENBRAINZ_TOKEN").or (file.bind (·.listenbrainzToken))
  lastfmToken : cfg.lastfmToken = (env "MICHI_LASTFM_TOKEN").or (file.bind (·.lastfmToken))
  scrobbleEnabled : cfg.scrobbleEnabled =
    pick ((env "MICHI_SCROBBLE_ENABLED").map (flag unicode)) (file.bind (·.scrobbleEnabled)) false
  allowRegistration : cfg.allowRegistration =
    pick ((env "MICHI_ALLOW_REGISTRATION").map (flag unicode)) (file.bind (·.allowRegistration)) false
  corsOrigin : cfg.corsOrigin = (env "MICHI_CORS_ORIGIN").or (file.bind (·.corsOrigin))
  devMode :
    cfg.devMode = pick ((env "MICHI_DEV_MODE").map (flag unicode)) (file.bind (·.devMode)) false
  resourceProfile : cfg.resourceProfile =
    pick (validProfile env (ResourceProfile.fromConfigStrStrict unicode) "MICHI_RESOURCE_PROFILE")
      ((file.bind (·.resourceProfile)).map (ResourceProfile.fromConfigStr unicode)) .balanced
  streamProfile : cfg.streamProfile =
    pick (validProfile env (StreamProfile.fromConfigStrStrict unicode) "MICHI_STREAM_PROFILE")
      ((file.bind (·.streamProfile)).map (StreamProfile.fromConfigStr unicode)) .original
  formatPolicy : cfg.formatPolicy =
    pick (validProfile env (AudioFormatPolicy.fromConfigStrStrict unicode) "MICHI_FORMAT_POLICY")
      ((file.bind (·.formatPolicy)).map (AudioFormatPolicy.fromConfigStr unicode)) .losslessOnly
  maxRemoteBitrate : cfg.maxRemoteBitrate =
    pick ((env "MICHI_MAX_REMOTE_BITRATE").bind (parseUint 32)) (file.bind (·.maxRemoteBitrate)) 320000
  remoteSync : cfg.remoteSync =
    pick ((env "MICHI_REMOTE_SYNC").map (flag unicode)) (file.bind (·.remoteSync)) false
  language : cfg.language = pick (env "MICHI_LANG") (file.bind (·.language)) "en"
  ui : cfg.ui = pick none (file.bind (·.ui)) {}
  autoBackupEnabled : cfg.autoBackupEnabled =
    pick ((env "MICHI_AUTO_BACKUP").map (flag unicode)) (file.bind (·.autoBackupEnabled)) false
  backupMaxKeep : cfg.backupMaxKeep =
    pick ((env "MICHI_BACKUP_KEEP").bind (parseUint 32)) (file.bind (·.backupMaxKeep)) 7
  jobMaxConcurrent : cfg.jobMaxConcurrent =
    pick ((env "MICHI_MAX_JOBS").bind (parseUint 32)) (file.bind (·.jobMaxConcurrent)) 3
  reconnectDelayMax : cfg.reconnectDelayMax =
    pick ((env "MICHI_RECONNECT_MAX").bind (parseUint 32)) (file.bind (·.reconnectDelayMax)) 300
  opensubsonicEnabled : cfg.opensubsonicEnabled =
    pick ((env "MICHI_OPENSUBSONIC_ENABLED").map (flag unicode)) (file.bind (·.opensubsonicEnabled))
      false
  trustProxy : cfg.trustProxy =
    pick ((env "MICHI_TRUST_PROXY").map (flag unicode)) (file.bind (·.trustProxy)) false
  trustedProxies : cfg.trustedProxies =
    pick ((env "MICHI_TRUSTED_PROXIES").map (addresses parseIp)) (file.bind (·.trustedProxies))
      defaultProxies
  deploymentPlatform : cfg.deploymentPlatform =
    pick (validPlatform unicode env) (file.bind (·.deploymentPlatform)) "unknown"
  fail_closed :
    cfg.opensubsonicEnabled = true → cfg.authEnabled = true ∨ envBypass unicode env = true

/-! ## Where the stages disagree -/

/-- The variable of a profile is not set to a text that the strict reading refuses, unless the file has
no profile or the default. -/
def ProfileKept {α : Type} (strict : String → Except String α) (name : String) (key : Option α)
    (default : α) : Prop :=
  (env name).isSome = true → validProfile env strict name = none → key.getD default = default

/-- A token that both the environment and the file give is the same in both. -/
def TokenKept (var key : Option String) : Prop := ∀ v t, var = some v → key = some t → t = v

structure Agreeing : Prop where
  /-- The second name of the music paths is read before the file only. -/
  second_name : ∀ h paths, file = some h → env "MICHI_MUSIC_PATH" = none →
    validMusic env = some paths → (h.decode unicode).musicPaths = paths
  /-- An empty list or name in the file counts as absent. -/
  musicPaths : validMusic env = none → file.bind (·.musicPaths) ≠ some []
  syncName : env "MICHI_SYNC_NAME" = none → file.bind (·.syncName) ≠ some ""
  trustedProxies : env "MICHI_TRUSTED_PROXIES" = none → file.bind (·.trustedProxies) ≠ some []
  platform : env "MICHI_DEPLOYMENT_PLATFORM" = none → file.bind (·.deploymentPlatform) ≠ some ""
  /-- A blank platform is taken by the first stage. -/
  blank_platform : (env "MICHI_DEPLOYMENT_PLATFORM").isSome = true → validPlatform unicode env = none →
    ∃ k, file.bind (·.deploymentPlatform) = some k ∧ k ≠ "unknown"
  /-- The tokens and the flag of OpenSubsonic are not applied again after the file. -/
  listenbrainzToken :
    TokenKept (env "MICHI_LISTENBRAINZ_TOKEN") (file.bind (·.listenbrainzToken))
  lastfmToken : TokenKept (env "MICHI_LASTFM_TOKEN") (file.bind (·.lastfmToken))
  opensubsonic : ∀ h v, file = some h → env "MICHI_OPENSUBSONIC_ENABLED" = some v →
    h.opensubsonicEnabled.getD false = flag unicode v
  /-- A profile that is not valid counts as the default. -/
  resourceProfile : ProfileKept env (ResourceProfile.fromConfigStrStrict unicode)
    "MICHI_RESOURCE_PROFILE"
    ((file.bind (·.resourceProfile)).map (ResourceProfile.fromConfigStr unicode)) .balanced
  streamProfile : ProfileKept env (StreamProfile.fromConfigStrStrict unicode)
    "MICHI_STREAM_PROFILE"
    ((file.bind (·.streamProfile)).map (StreamProfile.fromConfigStr unicode)) .original
  formatPolicy : ProfileKept env (AudioFormatPolicy.fromConfigStrStrict unicode)
    "MICHI_FORMAT_POLICY"
    ((file.bind (·.formatPolicy)).map (AudioFormatPolicy.fromConfigStr unicode)) .losslessOnly
  /-- Authentication is checked before the file. -/
  fail_closed : file.bind (·.opensubsonicEnabled) = some true →
    envAuth env = true ∨ envBypass unicode env = true

/-! ## One field -/

def loaded : Config := (firstConfig parseIp unicode env).loadFileOverrides unicode file

def finalConfig : Config :=
  (loaded parseIp unicode env file).applyEnvOverrides parseIp unicode env

theorem pick_eq {α : Type} (var key : Option α) (default : α) :
    pick var key default = var.getD (key.getD default) := by
  cases var <;> rfl

theorem applied {α : Type} (var : Option α) {key : Option α} {stage default : α}
    (h : var = none → stage = key.getD default) : var.getD stage = pick var key default := by
  rw [pick_eq]
  cases var with
  | none => exact h rfl
  | some v => rfl

theorem or_or_iff {α : Type} (var key : Option α) :
    key.or var = var.or key ↔ ∀ v t, var = some v → key = some t → t = v := by
  cases var <;> cases key <;> simp [Option.or]

theorem checkEnv_ok (h : checkEnv unicode env = .ok ())
    (henabled : envOpensubsonic unicode env = true) :
    envAuth env = true ∨ envBypass unicode env = true := by
  by_contra hnot
  obtain ⟨hauth, hbypass⟩ := not_or.mp hnot
  simp only [checkEnv, henabled, hauth, hbypass, Bool.not_false, Bool.and_self, if_true] at h
  split_ifs at h

theorem fromEnv_eq_ok_iff (cfg : Config) : fromEnv parseIp unicode env file = .ok cfg ↔
    checkEnv unicode env = .ok () ∧ finalConfig parseIp unicode env file = cfg := by
  rw [fromEnv, map_eq_ok_iff]
  constructor
  · rintro ⟨_, hcheck, hcfg⟩
    exact ⟨hcheck, hcfg⟩
  · rintro ⟨hcheck, hcfg⟩
    exact ⟨(), hcheck, hcfg⟩

theorem profile_right_iff {α : Type} (strict : String → Except String α) (read : String → α)
    (default : α) (hread : ∀ v, read v = ((strict v).toOption).getD default) (name : String)
    (key : Option α) :
    ((env name).map read).getD (key.getD default) = pick (validProfile env strict name) key default ↔
      ProfileKept env strict name key default := by
  cases hv : env name with
  | none => simp [pick_eq, validProfile, ProfileKept, hv]
  | some v =>
    cases hs : (strict v).toOption with
    | none => simp [pick_eq, validProfile, ProfileKept, hv, hread, hs, eq_comm]
    | some p => simp [pick_eq, validProfile, ProfileKept, hv, hread, hs]

/-! ## The fields that may go wrong -/

theorem first_music : (firstConfig parseIp unicode env).musicPaths =
    (validMusic env).getD ["/music"] := by
  cases hv : envMusic env with
  | none =>
    have hdefault : listed "/music" = ["/music"] := by decide +kernel
    simp [firstConfig, validMusic, hv, hdefault]
  | some v => grind [listed, firstConfig, validMusic]

theorem loaded_music : (loaded parseIp unicode env file).musicPaths =
    match file with
    | none => (validMusic env).getD ["/music"]
    | some h => (h.decode unicode).musicPaths := by
  grind [first_music, loaded, Config.loadFileOverrides, ConfigHelper.decode_musicPaths_ne]

theorem final_music : (finalConfig parseIp unicode env file).musicPaths =
    if (env "MICHI_MUSIC_PATH").isSome then
      (validMusic env).getD (loaded parseIp unicode env file).musicPaths
    else (loaded parseIp unicode env file).musicPaths := by
  cases hv : env "MICHI_MUSIC_PATH" with
  | none => simp [finalConfig, Config.applyEnvOverrides, hv]
  | some v =>
    by_cases he : listed v = [] <;>
      simp [finalConfig, Config.applyEnvOverrides, validMusic, envMusic, hv, he, Option.filter]

theorem decode_music_eq_iff (h : ConfigHelper) :
    (h.decode unicode).musicPaths = h.musicPaths.getD ["/music"] ↔ h.musicPaths ≠ some [] := by
  grind [ConfigHelper.decode]

theorem music_right_iff : (finalConfig parseIp unicode env file).musicPaths =
      pick (validMusic env) (file.bind (·.musicPaths)) ["/music"] ↔
    (∀ h paths, file = some h → env "MICHI_MUSIC_PATH" = none → validMusic env = some paths →
      (h.decode unicode).musicPaths = paths) ∧
    (validMusic env = none → file.bind (·.musicPaths) ≠ some []) := by
  rw [final_music, loaded_music, pick_eq]
  cases file with
  | none => cases hm : validMusic env <;> simp
  | some h =>
    cases hm : validMusic env with
    | none => simpa using decode_music_eq_iff unicode h
    | some paths => cases hv : env "MICHI_MUSIC_PATH" <;> simp

theorem syncName_right_iff : (finalConfig parseIp unicode env file).syncName =
      pick (env "MICHI_SYNC_NAME") (file.bind (·.syncName)) "default" ↔
    (env "MICHI_SYNC_NAME" = none → file.bind (·.syncName) ≠ some "") := by
  rw [pick_eq]
  cases hv : env "MICHI_SYNC_NAME" with
  | some v => simp [finalConfig, Config.applyEnvOverrides, hv]
  | none =>
    cases file with
    | none =>
      simp [finalConfig, loaded, Config.applyEnvOverrides, Config.loadFileOverrides, firstConfig, hv]
    | some h =>
      cases hk : h.syncName with
      | none =>
        simp [finalConfig, loaded, Config.applyEnvOverrides, Config.loadFileOverrides,
          ConfigHelper.decode, hv, hk]
      | some k =>
        by_cases he : k = "" <;>
          simp [finalConfig, loaded, Config.applyEnvOverrides, Config.loadFileOverrides,
            ConfigHelper.decode, firstConfig, hv, hk, he]

/-- The proxies are right unless the file lists none. -/
theorem trustedProxies_right_iff : (finalConfig parseIp unicode env file).trustedProxies =
      pick ((env "MICHI_TRUSTED_PROXIES").map (addresses parseIp)) (file.bind (·.trustedProxies))
        defaultProxies ↔
    (env "MICHI_TRUSTED_PROXIES" = none → file.bind (·.trustedProxies) ≠ some []) := by
  have hne : defaultProxies ≠ [] := by simp [defaultProxies]
  rw [pick_eq]
  cases hv : env "MICHI_TRUSTED_PROXIES" with
  | some v => simp [finalConfig, Config.applyEnvOverrides, hv]
  | none =>
    cases file with
    | none =>
      simp [finalConfig, loaded, Config.applyEnvOverrides, Config.loadFileOverrides, firstConfig, hv]
    | some h =>
      cases hk : h.trustedProxies with
      | none =>
        simp [finalConfig, loaded, Config.applyEnvOverrides, Config.loadFileOverrides,
          ConfigHelper.decode, firstConfig, hv, hk]
      | some k =>
        by_cases he : k = [] <;>
          simp [finalConfig, loaded, Config.applyEnvOverrides, Config.loadFileOverrides,
            ConfigHelper.decode, firstConfig, hv, hk, he, hne]

theorem first_platform : (firstConfig parseIp unicode env).deploymentPlatform =
    if (env "MICHI_DEPLOYMENT_PLATFORM").isSome ∧ validPlatform unicode env = none then ""
    else (validPlatform unicode env).getD "unknown" := by
  have hempty : toLowercase unicode "" = "" := by simp [toLowercase]
  have hunknown : toLowercase unicode (trim "unknown") = "unknown" := by
    have htrim : trim "unknown" = "unknown" := by decide +kernel
    rw [htrim]
    rfl
  cases hv : env "MICHI_DEPLOYMENT_PLATFORM" with
  | none => simp [firstConfig, validPlatform, hv, hunknown]
  | some v =>
    grind [trim, firstConfig, validPlatform]

theorem final_platform : (finalConfig parseIp unicode env file).deploymentPlatform =
    (validPlatform unicode env).getD (loaded parseIp unicode env file).deploymentPlatform := by
  grind [trim, finalConfig, Config.applyEnvOverrides, validPlatform]

/-- The platform is right unless one is blank. -/
theorem platform_right_iff : (finalConfig parseIp unicode env file).deploymentPlatform =
      pick (validPlatform unicode env) (file.bind (·.deploymentPlatform)) "unknown" ↔
    (env "MICHI_DEPLOYMENT_PLATFORM" = none → file.bind (·.deploymentPlatform) ≠ some "") ∧
    ((env "MICHI_DEPLOYMENT_PLATFORM").isSome = true → validPlatform unicode env = none →
      ∃ k, file.bind (·.deploymentPlatform) = some k ∧ k ≠ "unknown") := by
  rw [final_platform, pick_eq]
  cases hvalid : validPlatform unicode env with
  | some v =>
    grind [validPlatform]
  | none =>
    have hfirst := first_platform parseIp unicode env
    rw [hvalid] at hfirst
    cases file with
    | none =>
      grind [loaded, Config.loadFileOverrides]
    | some h =>
      cases hk : h.deploymentPlatform with
      | none =>
        grind [loaded, Config.loadFileOverrides, ConfigHelper.decode]
      | some k =>
        by_cases hempty : k = ""
        · cases hv : env "MICHI_DEPLOYMENT_PLATFORM" <;>
            simp [loaded, Config.loadFileOverrides, ConfigHelper.decode, hfirst, hv, hk, hempty]
        · grind [loaded, Config.loadFileOverrides, ConfigHelper.decode]

theorem opensubsonic_right_iff : (finalConfig parseIp unicode env file).opensubsonicEnabled =
      pick ((env "MICHI_OPENSUBSONIC_ENABLED").map (flag unicode))
        (file.bind (·.opensubsonicEnabled)) false ↔
    ∀ h v, file = some h → env "MICHI_OPENSUBSONIC_ENABLED" = some v →
      h.opensubsonicEnabled.getD false = flag unicode v := by
  rw [pick_eq]
  cases file with
  | none =>
    simp [finalConfig, loaded, Config.applyEnvOverrides, Config.loadFileOverrides, firstConfig,
      envOpensubsonic]
  | some h =>
    cases env "MICHI_OPENSUBSONIC_ENABLED" <;>
      simp [finalConfig, loaded, Config.applyEnvOverrides, Config.loadFileOverrides,
        ConfigHelper.decode]

theorem fail_closed_iff (hcheck : checkEnv unicode env = .ok ()) :
    ((finalConfig parseIp unicode env file).opensubsonicEnabled = true →
      (finalConfig parseIp unicode env file).authEnabled = true ∨ envBypass unicode env = true) ↔
    (file.bind (·.opensubsonicEnabled) = some true →
      envAuth env = true ∨ envBypass unicode env = true) := by
  cases file with
  | none =>
    have hchecked := checkEnv_ok unicode env hcheck
    simpa [finalConfig, loaded, Config.applyEnvOverrides, Config.loadFileOverrides, firstConfig]
      using hchecked
  | some h =>
    cases hk : h.opensubsonicEnabled <;>
      simp [finalConfig, loaded, Config.applyEnvOverrides, Config.loadFileOverrides, firstConfig,
        ConfigHelper.decode, hk]

theorem token_right_iff (var key : Option String) :
    key.or var = var.or key ↔ TokenKept var key := or_or_iff var key

theorem resourceProfile_right_iff : (finalConfig parseIp unicode env file).resourceProfile =
      pick (validProfile env (ResourceProfile.fromConfigStrStrict unicode) "MICHI_RESOURCE_PROFILE")
        ((file.bind (·.resourceProfile)).map (ResourceProfile.fromConfigStr unicode)) .balanced ↔
    ProfileKept env (ResourceProfile.fromConfigStrStrict unicode) "MICHI_RESOURCE_PROFILE"
      ((file.bind (·.resourceProfile)).map (ResourceProfile.fromConfigStr unicode)) .balanced := by
  have hread (v : String) : ResourceProfile.fromConfigStr unicode v =
      (ResourceProfile.fromConfigStrStrict unicode v).toOption.getD .balanced := by
    unfold ResourceProfile.fromConfigStr
    cases ResourceProfile.fromConfigStrStrict unicode v <;> rfl
  rw [← profile_right_iff env _ _ _ hread]
  cases file <;> rfl

theorem streamProfile_right_iff : (finalConfig parseIp unicode env file).streamProfile =
      pick (validProfile env (StreamProfile.fromConfigStrStrict unicode) "MICHI_STREAM_PROFILE")
        ((file.bind (·.streamProfile)).map (StreamProfile.fromConfigStr unicode)) .original ↔
    ProfileKept env (StreamProfile.fromConfigStrStrict unicode) "MICHI_STREAM_PROFILE"
      ((file.bind (·.streamProfile)).map (StreamProfile.fromConfigStr unicode)) .original := by
  have hread (v : String) : StreamProfile.fromConfigStr unicode v =
      (StreamProfile.fromConfigStrStrict unicode v).toOption.getD .original := by
    unfold StreamProfile.fromConfigStr
    cases StreamProfile.fromConfigStrStrict unicode v <;> rfl
  rw [← profile_right_iff env _ _ _ hread]
  cases file <;> rfl

theorem formatPolicy_right_iff : (finalConfig parseIp unicode env file).formatPolicy =
      pick (validProfile env (AudioFormatPolicy.fromConfigStrStrict unicode) "MICHI_FORMAT_POLICY")
        ((file.bind (·.formatPolicy)).map (AudioFormatPolicy.fromConfigStr unicode)) .losslessOnly ↔
    ProfileKept env (AudioFormatPolicy.fromConfigStrStrict unicode) "MICHI_FORMAT_POLICY"
      ((file.bind (·.formatPolicy)).map (AudioFormatPolicy.fromConfigStr unicode)) .losslessOnly := by
  have hread (v : String) : AudioFormatPolicy.fromConfigStr unicode v =
      (AudioFormatPolicy.fromConfigStrStrict unicode v).toOption.getD .losslessOnly := by
    unfold AudioFormatPolicy.fromConfigStr
    cases AudioFormatPolicy.fromConfigStrStrict unicode v <;> rfl
  rw [← profile_right_iff env _ _ _ hread]
  cases file <;> rfl

theorem listenbrainzToken_right_iff : (finalConfig parseIp unicode env file).listenbrainzToken =
      (env "MICHI_LISTENBRAINZ_TOKEN").or (file.bind (·.listenbrainzToken)) ↔
    TokenKept (env "MICHI_LISTENBRAINZ_TOKEN") (file.bind (·.listenbrainzToken)) := by
  rw [← token_right_iff]
  cases file <;> rfl

theorem lastfmToken_right_iff : (finalConfig parseIp unicode env file).lastfmToken =
      (env "MICHI_LASTFM_TOKEN").or (file.bind (·.lastfmToken)) ↔
    TokenKept (env "MICHI_LASTFM_TOKEN") (file.bind (·.lastfmToken)) := by
  rw [← token_right_iff]
  cases file <;> rfl

theorem syncPeers_right : (finalConfig parseIp unicode env file).syncPeers =
    pick ((env "MICHI_SYNC_PEERS").map listed) (file.bind (·.syncPeers)) [] := by
  refine applied _ fun hv => ?_
  have hnone : env "MICHI_SYNC_PEERS" = none := Option.map_eq_none_iff.mp hv
  have hfirst : (firstConfig parseIp unicode env).syncPeers = [] := by
    have hlisted : listed "" = [] := by decide +kernel
    simp [firstConfig, hnone, hlisted]
  cases file with
  | none => simpa [loaded, Config.loadFileOverrides] using hfirst
  | some h =>
    grind [loaded, Config.loadFileOverrides, ConfigHelper.decode]

/-! ## All fields -/

variable {parseIp unicode env file}

/-- Every field of a configuration that starts has its right value, and OpenSubsonic is closed, exactly
where the environment and the file agree on what the stages treat differently. -/
theorem from_env_precedence_iff {cfg : Config} (hstart : fromEnv parseIp unicode env file = .ok cfg) :
    Precedence parseIp unicode env file cfg ↔ Agreeing unicode env file := by
  obtain ⟨hcheck, rfl⟩ := (fromEnv_eq_ok_iff parseIp unicode env file cfg).mp hstart
  constructor
  · intro h
    obtain ⟨hsecond, hmusic⟩ := (music_right_iff parseIp unicode env file).mp h.musicPaths
    obtain ⟨hplatform, hblank⟩ := (platform_right_iff parseIp unicode env file).mp h.deploymentPlatform
    exact {
      second_name := hsecond
      musicPaths := hmusic
      syncName := (syncName_right_iff parseIp unicode env file).mp h.syncName
      trustedProxies := (trustedProxies_right_iff parseIp unicode env file).mp h.trustedProxies
      platform := hplatform
      blank_platform := hblank
      listenbrainzToken :=
        (listenbrainzToken_right_iff parseIp unicode env file).mp h.listenbrainzToken
      lastfmToken := (lastfmToken_right_iff parseIp unicode env file).mp h.lastfmToken
      opensubsonic := (opensubsonic_right_iff parseIp unicode env file).mp h.opensubsonicEnabled
      resourceProfile := (resourceProfile_right_iff parseIp unicode env file).mp h.resourceProfile
      streamProfile := (streamProfile_right_iff parseIp unicode env file).mp h.streamProfile
      formatPolicy := (formatPolicy_right_iff parseIp unicode env file).mp h.formatPolicy
      fail_closed := (fail_closed_iff parseIp unicode env file hcheck).mp h.fail_closed }
  · intro h
    exact {
      -- the irregular fields, each by what the environment and the file agree on
      musicPaths := (music_right_iff parseIp unicode env file).mpr ⟨h.second_name, h.musicPaths⟩
      syncName := (syncName_right_iff parseIp unicode env file).mpr h.syncName
      trustedProxies := (trustedProxies_right_iff parseIp unicode env file).mpr h.trustedProxies
      deploymentPlatform :=
        (platform_right_iff parseIp unicode env file).mpr ⟨h.platform, h.blank_platform⟩
      listenbrainzToken :=
        (listenbrainzToken_right_iff parseIp unicode env file).mpr h.listenbrainzToken
      lastfmToken := (lastfmToken_right_iff parseIp unicode env file).mpr h.lastfmToken
      opensubsonicEnabled := (opensubsonic_right_iff parseIp unicode env file).mpr h.opensubsonic
      resourceProfile := (resourceProfile_right_iff parseIp unicode env file).mpr h.resourceProfile
      streamProfile := (streamProfile_right_iff parseIp unicode env file).mpr h.streamProfile
      formatPolicy := (formatPolicy_right_iff parseIp unicode env file).mpr h.formatPolicy
      fail_closed := (fail_closed_iff parseIp unicode env file hcheck).mpr h.fail_closed
      -- the others are applied last, or have no variable
      port := applied _ fun hv => by
        cases file <;> simp [loaded, Config.loadFileOverrides, firstConfig, ConfigHelper.decode, hv]
      syncPeers := syncPeers_right parseIp unicode env file
      scrobbleEnabled := applied _ fun hv => by
        cases file <;> simp [loaded, Config.loadFileOverrides, firstConfig, ConfigHelper.decode, hv]
      allowRegistration := applied _ fun hv => by
        cases file <;> simp [loaded, Config.loadFileOverrides, firstConfig, ConfigHelper.decode, hv]
      corsOrigin := by
        cases file <;> simp [finalConfig, loaded, Config.applyEnvOverrides,
          Config.loadFileOverrides, firstConfig, ConfigHelper.decode]
      devMode := applied _ fun hv => by
        cases file <;> simp [loaded, Config.loadFileOverrides, firstConfig, ConfigHelper.decode, hv]
      maxRemoteBitrate := applied _ fun _ => by cases file <;> rfl
      remoteSync := applied _ fun _ => by cases file <;> rfl
      language := applied _ fun _ => by cases file <;> rfl
      ui := by cases file <;> rfl
      autoBackupEnabled := applied _ fun _ => by cases file <;> rfl
      backupMaxKeep := applied _ fun _ => by cases file <;> rfl
      jobMaxConcurrent := applied _ fun _ => by cases file <;> rfl
      reconnectDelayMax := applied _ fun _ => by cases file <;> rfl
      trustProxy := applied _ fun hv => by
        cases file <;> simp [loaded, Config.loadFileOverrides, firstConfig, ConfigHelper.decode, hv] }

end

/-- A port in the environment and in the file, and a language in the file. -/
theorem from_env_precedence_iff_port :
    fromEnv (fun _ => none) id (fun name => if name = "MICHI_PORT" then some "8080" else none)
        (some { port := some 7000, language := some "de" }) =
      .ok { port := 8080, language := "de" } ∧
    Precedence (fun _ => none) id (fun name => if name = "MICHI_PORT" then some "8080" else none)
      (some { port := some 7000, language := some "de" }) { port := 8080, language := "de" } := by
  have hstart : fromEnv (fun _ => none) id
      (fun name => if name = "MICHI_PORT" then some "8080" else none)
      (some { port := some 7000, language := some "de" }) =
      .ok { port := 8080, language := "de" } := by decide +kernel
  refine ⟨hstart, (from_env_precedence_iff hstart).mpr ?_⟩
  constructor <;> simp [validMusic, envMusic, validPlatform, TokenKept, ProfileKept]

/-- The file opens OpenSubsonic without authentication, and its token replaces the variable's. -/
theorem file_after_checks :
    (∃ cfg, fromEnv (fun _ => none) id (fun _ => none)
        (some { opensubsonicEnabled := some true }) = .ok cfg ∧
      cfg.opensubsonicEnabled = true ∧ cfg.authEnabled = false ∧
      ¬ Precedence (fun _ => none) id (fun _ => none) (some { opensubsonicEnabled := some true }) cfg) ∧
    ∃ cfg, fromEnv (fun _ => none) id
        (fun name => if name = "MICHI_LASTFM_TOKEN" then some "new" else none)
        (some { lastfmToken := some "old" }) = .ok cfg ∧ cfg.lastfmToken = some "old" := by
  constructor
  · refine ⟨{ opensubsonicEnabled := true }, by decide +kernel, rfl, rfl, fun h => ?_⟩
    simpa [envBypass] using h.fail_closed rfl
  · exact ⟨{ lastfmToken := some "old" }, by decide +kernel, rfl⟩

end MichiServer.Settings
