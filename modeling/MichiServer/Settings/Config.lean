import MichiServer.Ingest.Fetch

/-!
# The configuration and its file

`Config` without the paths, the database, the version and the id of the server, and `config.json` as
`Serialize` writes it and `Deserialize` reads it: a key that is absent gives its default.
-/

namespace MichiServer.Settings

open MichiServer.Ingest MichiServer.Text

/-! ## Lower case and the three profiles -/

/-- `to_lowercase`: letter by letter where the text is ASCII, else by the tables of Unicode. -/
def toLowercase (unicode : String → String) (s : String) : String :=
  if s.toList.all fun c => c.toNat < 128 then String.ofList (s.toList.map Char.toLower)
  else unicode s

inductive ResourceProfile where
  | eco
  | balanced
  | performance
  | custom
deriving DecidableEq

inductive StreamProfile where
  | original
  | losslessCompatible
  | opusMobile96
  | opusMobile160
  | mp3Compatibility192
  | mp3Compatibility320
  | downsample2448
  | custom
deriving DecidableEq

inductive AudioFormatPolicy where
  | losslessOnly
  | standardOnly
  | directPlay
deriving DecidableEq

section

variable (unicode : String → String)

namespace ResourceProfile

def fromConfigStrStrict (s : String) : Except String ResourceProfile :=
  match toLowercase unicode s with
  | "eco" => .ok eco
  | "performance" => .ok performance
  | "balanced" => .ok balanced
  | "custom" => .ok custom
  | _ => .error "invalid resource_profile; allowed: eco, balanced, performance, custom"

def fromConfigStr (s : String) : ResourceProfile :=
  match fromConfigStrStrict unicode s with
  | .ok p => p
  | .error _ => balanced

protected def toString : ResourceProfile → String
  | eco => "eco"
  | balanced => "balanced"
  | performance => "performance"
  | custom => "custom"

theorem fromConfigStr_toString (p : ResourceProfile) :
    fromConfigStr unicode p.toString = p := by
  cases p <;> rfl

end ResourceProfile

namespace StreamProfile

def fromConfigStrStrict (s : String) : Except String StreamProfile :=
  match toLowercase unicode s with
  | "original" => .ok original
  | "lossless" => .ok losslessCompatible
  | "opus96" => .ok opusMobile96
  | "opus160" => .ok opusMobile160
  | "mp3192" => .ok mp3Compatibility192
  | "mp3320" => .ok mp3Compatibility320
  | "downsample" => .ok downsample2448
  | "custom" => .ok custom
  | _ => .error ("invalid stream_profile; allowed: original, lossless, opus96, opus160, mp3192, " ++
      "mp3320, downsample, custom")

def fromConfigStr (s : String) : StreamProfile :=
  match fromConfigStrStrict unicode s with
  | .ok p => p
  | .error _ => original

protected def toString : StreamProfile → String
  | original => "original"
  | losslessCompatible => "lossless"
  | opusMobile96 => "opus96"
  | opusMobile160 => "opus160"
  | mp3Compatibility192 => "mp3192"
  | mp3Compatibility320 => "mp3320"
  | downsample2448 => "downsample"
  | custom => "custom"

theorem fromConfigStr_toString (p : StreamProfile) :
    fromConfigStr unicode p.toString = p := by
  cases p <;> rfl

end StreamProfile

namespace AudioFormatPolicy

def fromConfigStrStrict (s : String) : Except String AudioFormatPolicy :=
  match toLowercase unicode s with
  | "lossless" => .ok losslessOnly
  | "standard" => .ok standardOnly
  | "direct" => .ok directPlay
  | _ => .error "invalid format_policy; allowed: lossless, standard, direct"

def fromConfigStr (s : String) : AudioFormatPolicy :=
  match fromConfigStrStrict unicode s with
  | .ok p => p
  | .error _ => losslessOnly

protected def toString : AudioFormatPolicy → String
  | losslessOnly => "lossless"
  | standardOnly => "standard"
  | directPlay => "direct"

theorem fromConfigStr_toString (p : AudioFormatPolicy) :
    fromConfigStr unicode p.toString = p := by
  cases p <;> rfl

end AudioFormatPolicy

end

/-! ## The configuration -/

structure UiConfig where
  theme : String := "dark"
  sidebarCollapsed : Bool := false
  coverArtEnabled : Bool := true
deriving DecidableEq

def defaultProxies : List IpAddr :=
  [.v4 (.new 127 0 0 1), .v6 (.new 0 0 0 0 0 0 0 1)]

/-- `Config`; the values given here are those that its decoder starts from. -/
structure Config where
  port : ℕ := 9090
  musicPaths : List String := ["/music"]
  syncPeers : List String := []
  syncName : String := "default"
  listenbrainzToken : Option String := none
  lastfmToken : Option String := none
  scrobbleEnabled : Bool := false
  authUsername : Option String := none
  authPassword : Option String := none
  authEnabled : Bool := false
  allowRegistration : Bool := false
  corsOrigin : Option String := none
  devMode : Bool := false
  resourceProfile : ResourceProfile := .balanced
  streamProfile : StreamProfile := .original
  formatPolicy : AudioFormatPolicy := .losslessOnly
  maxRemoteBitrate : ℕ := 320000
  remoteSync : Bool := false
  language : String := "en"
  ui : UiConfig := {}
  autoBackupEnabled : Bool := false
  backupMaxKeep : ℕ := 7
  jobMaxConcurrent : ℕ := 3
  reconnectDelayMax : ℕ := 300
  opensubsonicEnabled : Bool := false
  trustProxy : Bool := false
  trustedProxies : List IpAddr := defaultProxies
  deploymentPlatform : String := "unknown"
deriving DecidableEq

/-- `ConfigHelper`: the keys of `config.json`, each of which may be absent. -/
structure ConfigHelper where
  port : Option ℕ := none
  musicPaths : Option (List String) := none
  syncPeers : Option (List String) := none
  syncName : Option String := none
  listenbrainzToken : Option String := none
  lastfmToken : Option String := none
  scrobbleEnabled : Option Bool := none
  allowRegistration : Option Bool := none
  devMode : Option Bool := none
  resourceProfile : Option String := none
  streamProfile : Option String := none
  formatPolicy : Option String := none
  maxRemoteBitrate : Option ℕ := none
  remoteSync : Option Bool := none
  language : Option String := none
  ui : Option UiConfig := none
  autoBackupEnabled : Option Bool := none
  backupMaxKeep : Option ℕ := none
  jobMaxConcurrent : Option ℕ := none
  reconnectDelayMax : Option ℕ := none
  corsOrigin : Option String := none
  opensubsonicEnabled : Option Bool := none
  trustProxy : Option Bool := none
  trustedProxies : Option (List IpAddr) := none
  deploymentPlatform : Option String := none

/-- `Deserialize for Config`. An empty list of music paths counts as absent. -/
def ConfigHelper.decode (unicode : String → String) (h : ConfigHelper) : Config where
  deploymentPlatform := h.deploymentPlatform.getD "unknown"
  port := h.port.getD 9090
  musicPaths :=
    match h.musicPaths with
    | some v => if v.isEmpty then ["/music"] else v
    | none => ["/music"]
  syncPeers := h.syncPeers.getD []
  syncName := h.syncName.getD "default"
  listenbrainzToken := h.listenbrainzToken
  lastfmToken := h.lastfmToken
  scrobbleEnabled := h.scrobbleEnabled.getD false
  allowRegistration := h.allowRegistration.getD false
  devMode := h.devMode.getD false
  resourceProfile := (h.resourceProfile.map (ResourceProfile.fromConfigStr unicode)).getD .balanced
  streamProfile := (h.streamProfile.map (StreamProfile.fromConfigStr unicode)).getD .original
  formatPolicy := (h.formatPolicy.map (AudioFormatPolicy.fromConfigStr unicode)).getD .losslessOnly
  maxRemoteBitrate := h.maxRemoteBitrate.getD 320000
  remoteSync := h.remoteSync.getD false
  language := h.language.getD "en"
  ui := h.ui.getD {}
  autoBackupEnabled := h.autoBackupEnabled.getD false
  backupMaxKeep := h.backupMaxKeep.getD 7
  jobMaxConcurrent := h.jobMaxConcurrent.getD 3
  reconnectDelayMax := h.reconnectDelayMax.getD 300
  corsOrigin := h.corsOrigin
  opensubsonicEnabled := h.opensubsonicEnabled.getD false
  trustProxy := h.trustProxy.getD false
  trustedProxies := h.trustedProxies.getD defaultProxies

/-- `Serialize for Config`: the keys that are written. `opensubsonic_enabled` is not among them. -/
def Config.encode (c : Config) : ConfigHelper where
  port := some c.port
  musicPaths := some c.musicPaths
  syncPeers := some c.syncPeers
  syncName := some c.syncName
  listenbrainzToken := c.listenbrainzToken
  lastfmToken := c.lastfmToken
  scrobbleEnabled := some c.scrobbleEnabled
  allowRegistration := some c.allowRegistration
  devMode := some c.devMode
  resourceProfile := some c.resourceProfile.toString
  streamProfile := some c.streamProfile.toString
  formatPolicy := some c.formatPolicy.toString
  maxRemoteBitrate := some c.maxRemoteBitrate
  remoteSync := some c.remoteSync
  language := some c.language
  ui := some c.ui
  autoBackupEnabled := some c.autoBackupEnabled
  backupMaxKeep := some c.backupMaxKeep
  jobMaxConcurrent := some c.jobMaxConcurrent
  reconnectDelayMax := some c.reconnectDelayMax
  corsOrigin := c.corsOrigin
  trustProxy := some c.trustProxy
  trustedProxies := some c.trustedProxies
  deploymentPlatform := some c.deploymentPlatform

/-! ## What is written is read back -/

variable (unicode : String → String)

theorem ConfigHelper.decode_musicPaths_ne (h : ConfigHelper) : (h.decode unicode).musicPaths ≠ [] := by
  grind [ConfigHelper.decode]

def Config.persisted (c : Config) : Config :=
  { c with
    musicPaths := if c.musicPaths.isEmpty then ["/music"] else c.musicPaths
    authUsername := none
    authPassword := none
    authEnabled := false }

theorem Config.decode_encode (c : Config) :
    c.encode.decode unicode = { c.persisted with opensubsonicEnabled := false } := by
  simp [Config.encode, ConfigHelper.decode, Config.persisted,
    ResourceProfile.fromConfigStr_toString, StreamProfile.fromConfigStr_toString,
    AudioFormatPolicy.fromConfigStr_toString]

end MichiServer.Settings
