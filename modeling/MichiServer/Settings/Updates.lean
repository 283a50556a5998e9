import Mathlib.Data.List.Permutation
import MichiServer.Logic.Trace
import MichiServer.Settings.Config

/-!
# Updates of the settings

`update_settings_handler` checks a request, reads `config.json` whole, changes what the request sets and
writes it whole. A write empties the file before it fills it. Requests overlap in any order of their
reads and writes.
-/

namespace MichiServer.Settings

open MichiServer.Logic.Trace

/-! ## One request -/

structure UpdateSettingsBody where
  resourceProfile : Option String := none
  streamProfile : Option String := none
  formatPolicy : Option String := none
  language : Option String := none
  theme : Option String := none
  sidebarCollapsed : Option Bool := none
  coverArtEnabled : Option Bool := none
  autoBackupEnabled : Option Bool := none
  backupMaxKeep : Option ℕ := none
  jobMaxConcurrent : Option ℕ := none
  reconnectDelayMax : Option ℕ := none
  maxRemoteBitrate : Option ℕ := none
  remoteSync : Option Bool := none
  scrobbleEnabled : Option Bool := none
  devMode : Option Bool := none
  syncName : Option String := none
  syncPeers : Option (List String) := none
deriving DecidableEq

structure Url where
  scheme : String
  hostStr : Option String
  username : String
  password : Option String
deriving DecidableEq

structure ValidationError where
  message : String
  field : String
deriving DecidableEq

def checkRange (value : Option ℕ) (low high : ℕ) (message field : String) : Except ValidationError Unit :=
  if value.all fun v => low ≤ v && v ≤ high then .ok () else .error ⟨message, field⟩

def checkProfile {α : Type} (strict : String → Except String α) (field : String) :
    Option String → Except ValidationError (Option α)
  | none => .ok none
  | some v => ((strict v).map some).mapError fun e => ⟨e, field⟩

structure Profiles where
  resourceProfile : Option ResourceProfile
  streamProfile : Option StreamProfile
  formatPolicy : Option AudioFormatPolicy
deriving DecidableEq

section

variable (unicode : String → String) (parseUrl : String → Option Url)

def checkPeer (peer : String) : Except ValidationError Unit :=
  match parseUrl peer with
  | none => .error ⟨s!"invalid sync peer URL: '{peer}'", "sync_peers"⟩
  | some parsed =>
    if parsed.scheme ≠ "http" ∧ parsed.scheme ≠ "https" then
      .error ⟨"sync peer URL must use http or https scheme", "sync_peers"⟩
    else if parsed.hostStr.isNone then
      .error ⟨"sync peer URL must have a valid host", "sync_peers"⟩
    else if parsed.username ≠ "" ∨ parsed.password.isSome then
      .error ⟨"sync peer URL must not contain embedded credentials", "sync_peers"⟩
    else .ok ()

def validate (body : UpdateSettingsBody) : Except ValidationError Profiles := do
  let resourceProfile ← checkProfile (ResourceProfile.fromConfigStrStrict unicode)
    "resource_profile" body.resourceProfile
  let streamProfile ← checkProfile (StreamProfile.fromConfigStrStrict unicode)
    "stream_profile" body.streamProfile
  let formatPolicy ← checkProfile (AudioFormatPolicy.fromConfigStrStrict unicode)
    "format_policy" body.formatPolicy
  checkRange body.jobMaxConcurrent 1 32 "job_max_concurrent must be between 1 and 32"
    "job_max_concurrent"
  checkRange body.backupMaxKeep 1 100 "backup_max_keep must be between 1 and 100" "backup_max_keep"
  checkRange body.reconnectDelayMax 5 3600
    "reconnect_delay_max must be between 5 and 3600 seconds" "reconnect_delay_max"
  checkRange body.maxRemoteBitrate 32000 20000000
    "max_remote_bitrate must be between 32000 and 20000000 bps" "max_remote_bitrate"
  (body.syncPeers.getD []).forM (checkPeer parseUrl)
  pure ⟨resourceProfile, streamProfile, formatPolicy⟩

structure Accepted where
  body : UpdateSettingsBody
  profiles : Profiles
  checked : validate unicode parseUrl body = .ok profiles

variable {unicode parseUrl}

def Accepted.apply (r : Accepted unicode parseUrl) (cfg : Config) : Config :=
  { cfg with
    resourceProfile := r.profiles.resourceProfile.getD cfg.resourceProfile
    streamProfile := r.profiles.streamProfile.getD cfg.streamProfile
    formatPolicy := r.profiles.formatPolicy.getD cfg.formatPolicy
    language := r.body.language.getD cfg.language
    ui :=
      { theme := r.body.theme.getD cfg.ui.theme
        sidebarCollapsed := r.body.sidebarCollapsed.getD cfg.ui.sidebarCollapsed
        coverArtEnabled := r.body.coverArtEnabled.getD cfg.ui.coverArtEnabled }
    autoBackupEnabled := r.body.autoBackupEnabled.getD cfg.autoBackupEnabled
    backupMaxKeep := r.body.backupMaxKeep.getD cfg.backupMaxKeep
    jobMaxConcurrent := r.body.jobMaxConcurrent.getD cfg.jobMaxConcurrent
    reconnectDelayMax := r.body.reconnectDelayMax.getD cfg.reconnectDelayMax
    maxRemoteBitrate := r.body.maxRemoteBitrate.getD cfg.maxRemoteBitrate
    remoteSync := r.body.remoteSync.getD cfg.remoteSync
    scrobbleEnabled := r.body.scrobbleEnabled.getD cfg.scrobbleEnabled
    devMode := r.body.devMode.getD cfg.devMode
    syncName := r.body.syncName.getD cfg.syncName
    syncPeers := r.body.syncPeers.getD cfg.syncPeers }

end

/-! ## Overlapping requests -/

section

variable {unicode : String → String} {parseUrl : String → Option Url}

inductive Stage where
  | waiting
  | changed (cfg : Config)
  | emptied (cfg : Config)
  | saved
deriving DecidableEq

/-- A request that has read the file and not yet written it has the configuration it will write. -/
def Stage.pending : Stage → Option Config
  | changed cfg | emptied cfg => some cfg
  | waiting | saved => none

structure Request (unicode : String → String) (parseUrl : String → Option Url) where
  change : Accepted unicode parseUrl
  stage : Stage

/-- The configuration the server started with, what `config.json` decodes from, and the requests. -/
structure UpdateState (unicode : String → String) (parseUrl : String → Option Url) where
  config : Config
  file : Option ConfigHelper
  requests : List (Request unicode parseUrl)

inductive UpdateEvent where
  /-- `read_file_config`, and the changes. -/
  | read (i : ℕ)
  /-- `save_to_file`: the file is opened and emptied. -/
  | empty (i : ℕ)
  /-- `save_to_file`: the file is written. -/
  | write (i : ℕ)
deriving DecidableEq

namespace UpdateState

def readConfig (s : UpdateState unicode parseUrl) : Config :=
  (s.file.map (ConfigHelper.decode unicode)).getD s.config

def advance (s : UpdateState unicode parseUrl) (i : ℕ) (r : Request unicode parseUrl) (stage : Stage) :
    List (Request unicode parseUrl) :=
  s.requests.set i { r with stage }

def step (s : UpdateState unicode parseUrl) : UpdateEvent → UpdateState unicode parseUrl
  | .read i =>
    match s.requests[i]? with
    | some r =>
      match r.stage with
      | .waiting => { s with requests := s.advance i r (.changed (r.change.apply s.readConfig)) }
      | _ => s
    | none => s
  | .empty i =>
    match s.requests[i]? with
    | some r =>
      match r.stage with
      | .changed cfg => { s with file := none, requests := s.advance i r (.emptied cfg) }
      | _ => s
    | none => s
  | .write i =>
    match s.requests[i]? with
    | some r =>
      match r.stage with
      | .emptied cfg => { s with file := some cfg.encode, requests := s.advance i r .saved }
      | _ => s
    | none => s

def answered (s : UpdateState unicode parseUrl) : List (Accepted unicode parseUrl) :=
  s.requests.filterMap fun r => if r.stage = .saved then some r.change else none

def finished (s : UpdateState unicode parseUrl) : Prop := ∀ r ∈ s.requests, r.stage = .saved

end UpdateState

def before (config : Config) (file : Option ConfigHelper) (changes : List (Accepted unicode parseUrl)) :
    UpdateState unicode parseUrl :=
  ⟨config, file, changes.map fun change => ⟨change, .waiting⟩⟩

/-! ## What is to be kept -/

/-- The value that the last request of an order gives, or the one there was. -/
def lastSet {α : Type} (key : Accepted unicode parseUrl → Option α)
    (order : List (Accepted unicode parseUrl)) (kept : α) : α :=
  (order.reverse.findSome? key).getD kept

/-- Every field has what the last request of the order set, or is kept. -/
structure Ordered (order : List (Accepted unicode parseUrl)) (base final : Config) : Prop where
  resourceProfile : final.resourceProfile =
    lastSet (·.profiles.resourceProfile) order base.resourceProfile
  streamProfile : final.streamProfile = lastSet (·.profiles.streamProfile) order base.streamProfile
  formatPolicy : final.formatPolicy = lastSet (·.profiles.formatPolicy) order base.formatPolicy
  language : final.language = lastSet (·.body.language) order base.language
  theme : final.ui.theme = lastSet (·.body.theme) order base.ui.theme
  sidebarCollapsed : final.ui.sidebarCollapsed =
    lastSet (·.body.sidebarCollapsed) order base.ui.sidebarCollapsed
  coverArtEnabled : final.ui.coverArtEnabled =
    lastSet (·.body.coverArtEnabled) order base.ui.coverArtEnabled
  autoBackupEnabled : final.autoBackupEnabled =
    lastSet (·.body.autoBackupEnabled) order base.autoBackupEnabled
  backupMaxKeep : final.backupMaxKeep = lastSet (·.body.backupMaxKeep) order base.backupMaxKeep
  jobMaxConcurrent : final.jobMaxConcurrent =
    lastSet (·.body.jobMaxConcurrent) order base.jobMaxConcurrent
  reconnectDelayMax : final.reconnectDelayMax =
    lastSet (·.body.reconnectDelayMax) order base.reconnectDelayMax
  maxRemoteBitrate : final.maxRemoteBitrate =
    lastSet (·.body.maxRemoteBitrate) order base.maxRemoteBitrate
  remoteSync : final.remoteSync = lastSet (·.body.remoteSync) order base.remoteSync
  scrobbleEnabled : final.scrobbleEnabled =
    lastSet (·.body.scrobbleEnabled) order base.scrobbleEnabled
  devMode : final.devMode = lastSet (·.body.devMode) order base.devMode
  syncName : final.syncName = lastSet (·.body.syncName) order base.syncName
  syncPeers : final.syncPeers = lastSet (·.body.syncPeers) order base.syncPeers
  port : final.port = base.port
  musicPaths : final.musicPaths = base.musicPaths
  listenbrainzToken : final.listenbrainzToken = base.listenbrainzToken
  lastfmToken : final.lastfmToken = base.lastfmToken
  allowRegistration : final.allowRegistration = base.allowRegistration
  corsOrigin : final.corsOrigin = base.corsOrigin
  opensubsonicEnabled : final.opensubsonicEnabled = base.opensubsonicEnabled
  trustProxy : final.trustProxy = base.trustProxy
  trustedProxies : final.trustedProxies = base.trustedProxies
  deploymentPlatform : final.deploymentPlatform = base.deploymentPlatform

def Config.written (unicode : String → String) (c : Config) : Config := c.encode.decode unicode

/-- What the settings are before any request: those of the file, or what the start's would be written
as where there is none. -/
def baseConfig (unicode : String → String) (config : Config) (file : Option ConfigHelper) : Config :=
  (file.map (ConfigHelper.decode unicode)).getD (config.written unicode)

/-- The file holds the settings of some order of the requests, and is left alone if there is none. -/
def Kept (config : Config) (file : Option ConfigHelper) (changes : List (Accepted unicode parseUrl))
    (final : Option ConfigHelper) : Prop :=
  if changes = [] then final = file
  else ∃ order h, order.Perm changes ∧ final = some h ∧
    Ordered order (baseConfig unicode config file) (h.decode unicode)

section Kept

variable (unicode)

theorem written_eq (c : Config) :
    c.written unicode = { c.persisted with opensubsonicEnabled := false } := Config.decode_encode unicode c

theorem written_decode {h : ConfigHelper} (hoff : (h.decode unicode).opensubsonicEnabled = false) :
    (h.decode unicode).written unicode = h.decode unicode := by
  have hpaths := h.decode_musicPaths_ne unicode
  generalize hc : h.decode unicode = c at hoff hpaths
  have hauth : c.authUsername = none ∧ c.authPassword = none ∧ c.authEnabled = false := by
    subst hc
    exact ⟨rfl, rfl, rfl⟩
  rw [written_eq, Config.persisted]
  cases c
  simp_all

end Kept

theorem Accepted.written_apply (r : Accepted unicode parseUrl) (c : Config) :
    (r.apply c).written unicode = r.apply (c.written unicode) := by
  simp [written_eq, Config.persisted, Accepted.apply]

theorem foldl_field {α : Type} (get : Config → α) (key : Accepted unicode parseUrl → Option α)
    (h : ∀ c r, get (Accepted.apply r c) = (key r).getD (get c))
    (order : List (Accepted unicode parseUrl)) (base : Config) :
    get (order.foldl (fun c r => r.apply c) base) = lastSet key order (get base) := by
  induction order generalizing base with
  | nil => rfl
  | cons r rest ih =>
    grind [lastSet]

theorem foldl_kept {α : Type} (get : Config → α)
    (h : ∀ c (r : Accepted unicode parseUrl), get (Accepted.apply r c) = get c)
    (order : List (Accepted unicode parseUrl)) (base : Config) :
    get (order.foldl (fun c r => r.apply c) base) = get base := by
  induction order generalizing base with
  | nil => rfl
  | cons r rest ih => rw [List.foldl_cons, ih, h]

/-- Requests applied one after the other are in that order. -/
theorem ordered_foldl (order : List (Accepted unicode parseUrl)) (base : Config) :
    Ordered order base (order.foldl (fun c r => r.apply c) base) where
  resourceProfile := foldl_field _ _ (fun _ _ => rfl) order base
  streamProfile := foldl_field _ _ (fun _ _ => rfl) order base
  formatPolicy := foldl_field _ _ (fun _ _ => rfl) order base
  language := foldl_field _ _ (fun _ _ => rfl) order base
  theme := foldl_field (·.ui.theme) _ (fun _ _ => rfl) order base
  sidebarCollapsed := foldl_field (·.ui.sidebarCollapsed) _ (fun _ _ => rfl) order base
  coverArtEnabled := foldl_field (·.ui.coverArtEnabled) _ (fun _ _ => rfl) order base
  autoBackupEnabled := foldl_field _ _ (fun _ _ => rfl) order base
  backupMaxKeep := foldl_field _ _ (fun _ _ => rfl) order base
  jobMaxConcurrent := foldl_field _ _ (fun _ _ => rfl) order base
  reconnectDelayMax := foldl_field _ _ (fun _ _ => rfl) order base
  maxRemoteBitrate := foldl_field _ _ (fun _ _ => rfl) order base
  remoteSync := foldl_field _ _ (fun _ _ => rfl) order base
  scrobbleEnabled := foldl_field _ _ (fun _ _ => rfl) order base
  devMode := foldl_field _ _ (fun _ _ => rfl) order base
  syncName := foldl_field _ _ (fun _ _ => rfl) order base
  syncPeers := foldl_field _ _ (fun _ _ => rfl) order base
  port := foldl_kept _ (fun _ _ => rfl) order base
  musicPaths := foldl_kept _ (fun _ _ => rfl) order base
  listenbrainzToken := foldl_kept _ (fun _ _ => rfl) order base
  lastfmToken := foldl_kept _ (fun _ _ => rfl) order base
  allowRegistration := foldl_kept _ (fun _ _ => rfl) order base
  corsOrigin := foldl_kept _ (fun _ _ => rfl) order base
  opensubsonicEnabled := foldl_kept _ (fun _ _ => rfl) order base
  trustProxy := foldl_kept _ (fun _ _ => rfl) order base
  trustedProxies := foldl_kept _ (fun _ _ => rfl) order base
  deploymentPlatform := foldl_kept _ (fun _ _ => rfl) order base

/-! ## Runs -/

/-- A request reads only while no other is between its read and its write, and only a file that leaves
OpenSubsonic off. -/
def UpdateEvent.Careful (s : UpdateState unicode parseUrl) : UpdateEvent → Prop
  | .read i =>
    ∀ r ∈ s.requests[i]?, r.stage = .waiting →
      (∀ other ∈ s.requests, other.stage.pending = none) ∧
      ∀ h ∈ s.file, (h.decode unicode).opensubsonicEnabled = false
  | .empty _ | .write _ => True

def settingsAfter (config : Config) (file : Option ConfigHelper)
    (order : List (Accepted unicode parseUrl)) : Config :=
  order.foldl (fun c r => r.apply c) (baseConfig unicode config file)

/-- At most one request is between its read and its write. It will write its change of the settings
after those that are answered, and unless the file is empty it holds these. -/
structure UpdateInv (config : Config) (file : Option ConfigHelper)
    (changes : List (Accepted unicode parseUrl)) (s : UpdateState unicode parseUrl) : Prop where
  started : s.config = config
  same_changes : s.requests.map (·.change) = changes
  alone : ∀ (i j : ℕ) (r r' : Request unicode parseUrl) cfg cfg', s.requests[i]? = some r →
    s.requests[j]? = some r' → r.stage.pending = some cfg → r'.stage.pending = some cfg' → i = j
  serial : ∃ order, order.Perm s.answered ∧
    (∀ r ∈ s.requests, ∀ cfg, r.stage.pending = some cfg →
      cfg.written unicode = r.change.apply (settingsAfter config file order)) ∧
    ((∀ r ∈ s.requests, ∀ cfg, r.stage ≠ .emptied cfg) →
      if order = [] then s.file = file
      else ∃ h, s.file = some h ∧ h.decode unicode = settingsAfter config file order)

namespace UpdateState

variable {s : UpdateState unicode parseUrl} {i : ℕ} {r : Request unicode parseUrl}

theorem requests_perm (hr : s.requests[i]? = some r) :
    s.requests.Perm (r :: s.requests.eraseIdx i) := by
  obtain ⟨hi, rfl⟩ := List.getElem?_eq_some_iff.mp hr
  exact (List.getElem_cons_eraseIdx_perm hi).symm

theorem advance_perm (hr : s.requests[i]? = some r) (stage : Stage) :
    (s.advance i r stage).Perm ({ r with stage } :: s.requests.eraseIdx i) :=
  List.set_perm_cons_eraseIdx (List.getElem?_eq_some_iff.mp hr).1 _

theorem answered_advance (hr : s.requests[i]? = some r) (hstage : r.stage ≠ .saved) {stage : Stage}
    (hnext : stage ≠ .saved) {file : Option ConfigHelper} :
    (answered { s with file, requests := s.advance i r stage }).Perm s.answered := by
  refine ((advance_perm hr stage).filterMap _).trans ?_
  refine .trans ?_ ((requests_perm hr).filterMap _).symm
  simp [hstage, hnext]

theorem answered_saved (hr : s.requests[i]? = some r) (hstage : r.stage ≠ .saved)
    {file : Option ConfigHelper} :
    (answered { s with file, requests := s.advance i r .saved }).Perm (r.change :: s.answered) := by
  refine ((advance_perm hr .saved).filterMap _).trans ?_
  simp only [List.filterMap_cons, if_true]
  refine .cons _ (.trans ?_ ((requests_perm hr).filterMap _).symm)
  simp [hstage]

theorem changes_advance (hr : s.requests[i]? = some r) (stage : Stage) :
    (s.advance i r stage).map (·.change) = s.requests.map (·.change) := by
  refine List.ext_getElem? fun j => ?_
  grind [advance]

end UpdateState

namespace UpdateInv

variable {config : Config} {file : Option ConfigHelper} {changes : List (Accepted unicode parseUrl)}
  {s : UpdateState unicode parseUrl} {i : ℕ} {r : Request unicode parseUrl}

theorem start : UpdateInv config file changes (before config file changes) where
  started := rfl
  same_changes := by simp [before, Function.comp_def]
  alone i j r r' cfg cfg' hr _ hcfg _ := by
    have hmem := List.mem_of_getElem? hr
    simp only [before, List.mem_map] at hmem
    obtain ⟨change, -, rfl⟩ := hmem
    cases hcfg
  serial := by
    refine ⟨[], by simp [UpdateState.answered, before], fun r hr cfg hcfg => ?_, fun _ => rfl⟩
    obtain ⟨change, -, rfl⟩ := List.mem_map.mp hr
    cases hcfg

/-- What is read while no other request is under way is what was written. -/
theorem read_written (hinv : UpdateInv config file changes s)
    (hidle : ∀ other ∈ s.requests, other.stage.pending = none)
    (hoff : ∀ h ∈ s.file, (h.decode unicode).opensubsonicEnabled = false)
    {order : List (Accepted unicode parseUrl)}
    (hfile : (∀ r ∈ s.requests, ∀ cfg, r.stage ≠ .emptied cfg) →
      if order = [] then s.file = file
      else ∃ h, s.file = some h ∧ h.decode unicode = settingsAfter config file order) :
    s.readConfig.written unicode = settingsAfter config file order := by
  have hheld := hfile fun r hr cfg hcfg => by
    have hnone := hidle r hr
    rw [hcfg] at hnone
    cases hnone
  split at hheld
  next horder =>
    subst horder
    rw [UpdateState.readConfig, settingsAfter, List.foldl_nil, baseConfig, ← hheld, hinv.started]
    cases hf : s.file with
    | none => rfl
    | some h => exact written_decode unicode (hoff h hf)
  next _ =>
    grind [UpdateState.readConfig, written_decode]

theorem forall_advance {P : Request unicode parseUrl → Prop} (h : ∀ r ∈ s.requests, P r) {stage : Stage}
    (hr : P { r with stage }) : ∀ r' ∈ s.advance i r stage, P r' := by
  intro r' hr'
  rcases List.mem_or_eq_of_mem_set hr' with hmem | rfl
  · exact h r' hmem
  · exact hr

theorem alone_advance {stage : Stage}
    (hothers : ∀ j r' cfg, s.requests[j]? = some r' → r'.stage.pending = some cfg → j = i) :
    ∀ (j k : ℕ) (r₁ r₂ : Request unicode parseUrl) cfg cfg', (s.advance i r stage)[j]? = some r₁ →
      (s.advance i r stage)[k]? = some r₂ → r₁.stage.pending = some cfg →
      r₂.stage.pending = some cfg' → j = k := by
  grind [Request, UpdateState.advance]

theorem read (hinv : UpdateInv config file changes s) (hr : s.requests[i]? = some r)
    (hstage : r.stage = .waiting) (hidle : ∀ other ∈ s.requests, other.stage.pending = none)
    (hoff : ∀ h ∈ s.file, (h.decode unicode).opensubsonicEnabled = false) :
    UpdateInv config file changes
      { s with requests := s.advance i r (.changed (r.change.apply s.readConfig)) } := by
  obtain ⟨order, hperm, hpending, hfile⟩ := hinv.serial
  have hothers : ∀ j r' cfg, s.requests[j]? = some r' → r'.stage.pending = some cfg → j = i := by
    grind
  refine ⟨hinv.started, (UpdateState.changes_advance hr _).trans hinv.same_changes,
    alone_advance hothers, order, ?_, ?_, fun _ => hfile fun r' hr' cfg hcfg => ?_⟩
  · exact hperm.trans (UpdateState.answered_advance hr (by simp [hstage]) (by simp)).symm
  · refine forall_advance hpending fun cfg hcfg => ?_
    cases hcfg
    rw [Accepted.written_apply, hinv.read_written hidle hoff hfile]
  · have hnone := hidle r' hr'
    rw [hcfg] at hnone
    cases hnone

theorem empty (hinv : UpdateInv config file changes s) (hr : s.requests[i]? = some r) {cfg : Config}
    (hstage : r.stage = .changed cfg) :
    UpdateInv config file changes { s with file := none, requests := s.advance i r (.emptied cfg) } := by
  obtain ⟨order, hperm, hpending, -⟩ := hinv.serial
  have hcfg : r.stage.pending = some cfg := by rw [hstage]; rfl
  refine ⟨hinv.started, (UpdateState.changes_advance hr _).trans hinv.same_changes,
    alone_advance fun j r' cfg' hj hcfg' => hinv.alone j i r' r cfg' cfg hj hr hcfg' hcfg,
    order, ?_, ?_, fun hnone => ?_⟩
  · exact hperm.trans (UpdateState.answered_advance hr (by simp [hstage]) (by simp)).symm
  · refine forall_advance hpending fun cfg' hcfg' => ?_
    cases hcfg'
    exact hpending r (List.mem_of_getElem? hr) cfg hcfg
  · -- the file is empty while the request is at this stage
    have hi := (List.getElem?_eq_some_iff.mp hr).1
    exact absurd rfl (hnone _ (List.mem_set hi _) cfg)

/-- A write keeps the invariant. -/
theorem write (hinv : UpdateInv config file changes s) (hr : s.requests[i]? = some r) {cfg : Config}
    (hstage : r.stage = .emptied cfg) :
    UpdateInv config file changes
      { s with file := some cfg.encode, requests := s.advance i r .saved } := by
  obtain ⟨order, hperm, hpending, -⟩ := hinv.serial
  have hcfg : r.stage.pending = some cfg := by rw [hstage]; rfl
  have hothers : ∀ j r' cfg, s.requests[j]? = some r' → r'.stage.pending = some cfg → j = i :=
    fun j r' cfg' hj hcfg' => hinv.alone j i r' r cfg' cfg hj hr hcfg' hcfg
  have hwritten := hpending r (List.mem_of_getElem? hr) cfg hcfg
  refine ⟨hinv.started, (UpdateState.changes_advance hr _).trans hinv.same_changes,
    alone_advance hothers, order ++ [r.change], ?_, ?_, fun _ => ?_⟩
  · refine .trans ?_ (UpdateState.answered_saved hr (by simp [hstage])).symm
    exact (List.perm_append_singleton _ _).trans (hperm.cons _)
  · -- no other request is pending
    intro r' hr' cfg' hcfg'
    obtain ⟨j, hj⟩ := List.getElem?_of_mem hr'
    rw [UpdateState.advance, List.getElem?_set] at hj
    split at hj
    next hij =>
      split at hj
      · cases hj
        cases hcfg'
      · cases hj
    next hij => exact absurd (hothers j r' cfg' hj hcfg').symm hij
  · rw [if_neg (by simp)]
    refine ⟨_, rfl, ?_⟩
    rw [settingsAfter, List.foldl_append, List.foldl_cons, List.foldl_nil]
    exact hwritten

theorem step (hinv : UpdateInv config file changes s) (e : UpdateEvent) (hcareful : e.Careful s) :
    UpdateInv config file changes (s.step e) := by
  cases e with
  | read i =>
    simp only [UpdateState.step]
    split
    next r hr =>
      split
      next hstage =>
        obtain ⟨hidle, hoff⟩ := hcareful r hr hstage
        exact hinv.read hr hstage hidle hoff
      next _ => exact hinv
    next _ => exact hinv
  | empty i =>
    simp only [UpdateState.step]
    split
    next r hr =>
      split
      next cfg hstage => exact hinv.empty hr hstage
      next _ => exact hinv
    next _ => exact hinv
  | write i =>
    simp only [UpdateState.step]
    split
    next r hr =>
      split
      next cfg hstage => exact hinv.write hr hstage
      next _ => exact hinv
    next _ => exact hinv

/-- When all have finished, the file keeps what each has set. -/
theorem kept (hinv : UpdateInv config file changes s) (hfinished : s.finished) :
    Kept config file changes s.file := by
  obtain ⟨order, hperm, -, hfile⟩ := hinv.serial
  have hheld := hfile fun r hr cfg hcfg => by
    rw [hfinished r hr] at hcfg
    cases hcfg
  have hall : s.answered = changes := by
    rw [← hinv.same_changes, UpdateState.answered, ← List.filterMap_eq_map]
    refine List.filterMap_congr fun r hr => ?_
    rw [if_pos (hfinished r hr)]
    rfl
  rw [hall] at hperm
  rw [Kept]
  split
  next hnil =>
    subst hnil
    rwa [if_pos hperm.eq_nil] at hheld
  next hne =>
    rw [if_neg fun horder => hne (by subst horder; exact hperm.nil_eq.symm)] at hheld
    obtain ⟨h, hsome, hsettings⟩ := hheld
    exact ⟨order, h, hperm, hsome, hsettings ▸ ordered_foldl order _⟩

end UpdateInv

/-- Requests that are answered are kept, in a run in which none reads while another is between its
read and its write, nor reads a file that enables OpenSubsonic. -/
theorem updates_kept (config : Config) (file : Option ConfigHelper)
    (changes : List (Accepted unicode parseUrl)) (events : List UpdateEvent)
    (hcareful : Obeys UpdateState.step (fun s e => e.Careful s) (before config file changes) events)
    (hfinished : (run UpdateState.step (before config file changes) events).finished) :
    Kept config file changes (run UpdateState.step (before config file changes) events).file := by
  have hinv : UpdateInv config file changes (run UpdateState.step (before config file changes) events) :=
    run_invariant (fun _ e h => h.step e) UpdateInv.start hcareful
  exact hinv.kept hfinished

end

def toGerman : Accepted id (fun _ => none) := ⟨{ language := some "de" }, ⟨none, none, none⟩, rfl⟩

def toLight : Accepted id (fun _ => none) := ⟨{ theme := some "light" }, ⟨none, none, none⟩, rfl⟩

/-- Two requests, one after the other. -/
theorem updates_kept_in_turn :
    Kept {} (some { port := some 8000 }) [toGerman, toLight]
      (run UpdateState.step (before {} (some { port := some 8000 }) [toGerman, toLight])
        [.read 1, .empty 1, .write 1, .read 0, .empty 0, .write 0]).file := by
  refine updates_kept {} _ _ _ ?_ ?_
  · simp [Obeys, UpdateEvent.Careful, UpdateState.step, before, UpdateState.advance, Stage.pending,
      ConfigHelper.decode, Config.encode]
  · simp [run, UpdateState.finished, UpdateState.step, before, UpdateState.advance]

/-- One request turns OpenSubsonic off; of two that read the same file one is lost; and one that reads
while the other writes replaces the file by the settings of the start. -/
theorem updates_lost :
    ¬ Kept {} (some { opensubsonicEnabled := some true }) [toGerman]
      (run UpdateState.step (before {} (some { opensubsonicEnabled := some true }) [toGerman])
        [.read 0, .empty 0, .write 0]).file ∧
    ¬ Kept {} (some {}) [toGerman, toLight]
      (run UpdateState.step (before {} (some {}) [toGerman, toLight])
        [.read 0, .read 1, .empty 0, .write 0, .empty 1, .write 1]).file ∧
    ¬ Kept {} (some { port := some 8000 }) [toGerman, toLight]
      (run UpdateState.step (before {} (some { port := some 8000 }) [toGerman, toLight])
        [.read 0, .empty 0, .read 1, .write 0, .empty 1, .write 1]).file := by
  refine ⟨fun h => ?_, fun h => ?_, fun h => ?_⟩
  · rw [Kept, if_neg (by simp)] at h
    obtain ⟨order, file, -, hfile, hordered⟩ := h
    cases hfile
    exact absurd hordered.opensubsonicEnabled (by decide +kernel)
  · rw [Kept, if_neg (by simp)] at h
    obtain ⟨order, file, hperm, hfile, hordered⟩ := h
    cases hfile
    have hlanguage := hordered.language
    rcases List.mem_permutations'.mpr hperm with _ | ⟨_, _ | ⟨_, hnil⟩⟩
    · exact absurd hlanguage (by decide +kernel)
    · exact absurd hlanguage (by decide +kernel)
    · cases hnil
  · rw [Kept, if_neg (by simp)] at h
    obtain ⟨order, file, -, hfile, hordered⟩ := h
    cases hfile
    exact absurd hordered.port (by decide +kernel)

end MichiServer.Settings
