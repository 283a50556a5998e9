import MichiServer.Basic
import MichiServer.Interleave.Pool

/-!
# The tokens of paired devices

The token store keeps the hashes of the tokens in memory; `link_devices` keeps one row for each device,
with the hash of its first token. A refresh validates, revokes and stores, and a revocation writes the
row and then clears the store: each access is a step of its own. The load at start stores nothing.

The world keeps beside them what each token was issued with, which devices were revoked by a call that
has returned, and for which refresh tokens a new pair was returned.
-/

namespace MichiServer.Link

open Interleave

inductive TokenType where
  | device
  | refresh
deriving DecidableEq

structure TokenEntry where
  deviceId : Uuid
  tokenType : TokenType
  expiresAt : DateTime

inductive LinkError where
  | invalidToken
  | tokenExpired

structure LinkDevice where
  deviceId : Uuid
  tokenHash : String
  revoked : Bool

/-- How long a token is good for: `chrono::Duration::days(7)`, in seconds. -/
def tokenLifetime : ℤ := 7 * 86400

structure LinkWorld where
  byHash : String → Option TokenEntry := fun _ => none
  linkDevices : List LinkDevice := []
  issued : String → Option TokenEntry := fun _ => none
  revoked : List Uuid := []
  refreshed : List String := []

namespace LinkWorld

variable (w : LinkWorld)

def storeHash (tokenHash : String) (tokenType : TokenType) (deviceId : Uuid) (now : DateTime) :
    LinkWorld :=
  { w with
    byHash := fun h =>
      if h = tokenHash then some ⟨deviceId, tokenType, now + tokenLifetime⟩ else w.byHash h }

def store (tokenHash : String) (tokenType : TokenType) (deviceId : Uuid) (now : DateTime) :
    LinkWorld :=
  { w.storeHash tokenHash tokenType deviceId now with
    issued := fun h =>
      if h = tokenHash then some ⟨deviceId, tokenType, now + tokenLifetime⟩ else w.issued h }

def validate (tokenHash : String) (expectedType : TokenType) (now : DateTime) :
    Except LinkError Uuid :=
  match w.byHash tokenHash with
  | some entry =>
    if entry.tokenType ≠ expectedType then .error .invalidToken
    else if entry.expiresAt > now then .ok entry.deviceId
    else .error .tokenExpired
  | none => .error .invalidToken

def keep (kept : String → TokenEntry → Bool) : LinkWorld :=
  { w with byHash := fun h => (w.byHash h).filter (kept h) }

def revokeLinkDevice (deviceId : Uuid) : LinkWorld :=
  { w with
    linkDevices := w.linkDevices.map fun d =>
      if d.deviceId = deviceId then { d with revoked := true } else d }

end LinkWorld

inductive LinkTask where
  | validate (token : String) (expectedType : TokenType)
  | refresh (refreshToken : String) (reqDeviceId : Option Uuid)
  | refreshRevoke (refreshToken : String) (deviceId : Uuid)
  | refreshStoreDevice (refreshToken : String) (deviceId : Uuid)
  | refreshStoreRefresh (refreshToken : String) (deviceId : Uuid)
  | revokeDevice (deviceId : Uuid)
  | revokeAllByDevice (deviceId : Uuid)
  | pair (withRefresh : Bool)
  | pairStoreDevice (deviceId : Uuid) (tokenHash : String) (withRefresh : Bool)
  | pairStoreRefresh (deviceId : Uuid)
  | loadTokensFromDb

/-- A call that arrives: the validation of a request, `link_token_refresh`, `link_devices_revoke`,
`link_pair_confirm` (with a refresh token) or the claim of a QR code (without), and the load at start. -/
inductive LinkCall where
  | validate (token : String) (expectedType : TokenType)
  | linkTokenRefresh (refreshToken : String) (reqDeviceId : Option Uuid)
  | linkDevicesRevoke (deviceId : Uuid)
  | pair (withRefresh : Bool)
  | loadTokensFromDb

/-- What a step meets: the clock, whether the database answers, and what it draws. -/
structure LinkEnv where
  now : DateTime := 0
  database : Bool := true
  deviceId : Uuid := 0
  token : String := ""

/-- What happens beside the calls: `cleanup`, and a restart of the process. -/
inductive LinkTick where
  | cleanup (now : DateTime)
  | restart

namespace LinkTask

def enter : LinkCall → LinkTask
  | .validate token expectedType => .validate token expectedType
  | .linkTokenRefresh refreshToken reqDeviceId => .refresh refreshToken reqDeviceId
  | .linkDevicesRevoke deviceId => .revokeDevice deviceId
  | .pair withRefresh => .pair withRefresh
  | .loadTokensFromDb => .loadTokensFromDb

def step (hashToken : String → String) :
    LinkTask → LinkEnv → LinkWorld → List LinkTask × LinkWorld
  | .validate _ _, _, w => ([], w)
  | .refresh refreshToken reqDeviceId, env, w =>
    match w.validate (hashToken refreshToken) .refresh env.now with
    | .ok deviceId =>
      if reqDeviceId.all (· = deviceId) then ([.refreshRevoke refreshToken deviceId], w)
      else ([], w)  -- `DEVICE_MISMATCH`
    | .error _ => ([], w)
  | .refreshRevoke refreshToken deviceId, _, w =>
    ([.refreshStoreDevice refreshToken deviceId],
      w.keep fun h _ => h != hashToken refreshToken)
  | .refreshStoreDevice refreshToken deviceId, env, w =>
    ([.refreshStoreRefresh refreshToken deviceId],
      w.store (hashToken env.token) .device deviceId env.now)
  | .refreshStoreRefresh refreshToken deviceId, env, w =>
    ([], { w.store (hashToken env.token) .refresh deviceId env.now with
      refreshed := hashToken refreshToken :: w.refreshed })
  | .revokeDevice deviceId, env, w =>
    -- no row is `NOT_FOUND`
    if env.database ∧ ∃ d ∈ w.linkDevices, d.deviceId = deviceId then
      ([.revokeAllByDevice deviceId], w.revokeLinkDevice deviceId)
    else ([], w)
  | .revokeAllByDevice deviceId, _, w =>
    ([], { w.keep fun _ entry => entry.deviceId != deviceId with
      revoked := deviceId :: w.revoked })
  | .pair withRefresh, env, w =>
    if env.database ∧ ∀ d ∈ w.linkDevices, d.deviceId ≠ env.deviceId then
      ([.pairStoreDevice env.deviceId (hashToken env.token) withRefresh],
        { w with linkDevices := w.linkDevices ++ [⟨env.deviceId, hashToken env.token, false⟩] })
    else ([], w)
  | .pairStoreDevice deviceId tokenHash withRefresh, env, w =>
    (if withRefresh then [.pairStoreRefresh deviceId] else [],
      w.store tokenHash .device deviceId env.now)
  | .pairStoreRefresh deviceId, env, w =>
    ([], w.store (hashToken env.token) .refresh deviceId env.now)
  -- the column `device_id` has the 36 bytes of the id's text, and `row.get::<Uuid>` takes 16: where
  -- there is a row it panics at the first one, before `has_hash` and `store_hash`, and the task ends
  | .loadTokensFromDb, _, w => ([], w)

end LinkTask

def LinkWorld.tick : LinkTick → LinkWorld → LinkWorld
  | .cleanup now, w => w.keep fun _ entry => entry.expiresAt > now
  | .restart, w => w.keep fun _ _ => false

def linkMachine (hashToken : String → String) :
    Machine LinkCall LinkTask LinkEnv LinkTick LinkWorld where
  enter := LinkTask.enter
  step := LinkTask.step hashToken
  tick := LinkWorld.tick

abbrev LinkPool := Pool LinkTask LinkWorld

abbrev LinkMove := PoolMove LinkCall LinkEnv LinkTick

def noDeviceYet : LinkPool := ⟨[], {}⟩

/-! ## What the calls promise -/

namespace LinkTask

/-- The device is not one whose revocation has returned, and the token is used before the expiry it was
issued with. -/
def Acceptable (w : LinkWorld) (tokenHash : String) (now : DateTime) (deviceId : Uuid) : Prop :=
  deviceId ∉ w.revoked ∧ ∀ entry ∈ w.issued tokenHash, now < entry.expiresAt

/-- A validation answers only with what is acceptable, and a refresh returns a pair only for a refresh
token that none was returned for. -/
def Keeps (hashToken : String → String) : LinkTask → LinkEnv → LinkWorld → Prop
  | .validate token expectedType, env, w =>
    ∀ deviceId ∈ (w.validate (hashToken token) expectedType env.now).toOption,
      Acceptable w (hashToken token) env.now deviceId
  | .refresh refreshToken _, env, w =>
    ∀ deviceId ∈ (w.validate (hashToken refreshToken) .refresh env.now).toOption,
      Acceptable w (hashToken refreshToken) env.now deviceId
  | .refreshStoreRefresh refreshToken _, _, w => hashToken refreshToken ∉ w.refreshed
  | _, _, _ => True

/-- The step stores a token only while the revocation of its device has not returned, and one whose
hash nothing has; a refresh revokes a token that is still in the store. -/
def Safe (hashToken : String → String) : LinkTask → LinkEnv → LinkWorld → Prop
  | .refreshRevoke refreshToken _, _, w => w.byHash (hashToken refreshToken) ≠ none
  | .refreshStoreDevice _ deviceId, env, w | .refreshStoreRefresh _ deviceId, env, w
  | .pairStoreRefresh deviceId, env, w =>
    deviceId ∉ w.revoked ∧ w.issued (hashToken env.token) = none ∧
      ∀ d ∈ w.linkDevices, d.tokenHash ≠ hashToken env.token
  | .pairStoreDevice deviceId _ _, _, w => deviceId ∉ w.revoked
  | .pair _, env, w => w.issued (hashToken env.token) = none
  | _, _, _ => True

instance (w : LinkWorld) (tokenHash : String) (now : DateTime) (deviceId : Uuid) :
    Decidable (Acceptable w tokenHash now deviceId) :=
  inferInstanceAs (Decidable (_ ∧ _))

instance (hashToken : String → String) (t : LinkTask) (env : LinkEnv) (w : LinkWorld) :
    Decidable (t.Keeps hashToken env w) := by
  cases t <;> unfold Keeps <;> infer_instance

instance (hashToken : String → String) (t : LinkTask) (env : LinkEnv) (w : LinkWorld) :
    Decidable (t.Safe hashToken env w) := by
  cases t <;> unfold Safe <;> infer_instance

end LinkTask

def KeepsPromise (hashToken : String → String) (p : LinkPool) : LinkMove → Prop
  | .act i env => ∀ t ∈ p.tasks[i]?, t.Keeps hashToken env p.world
  | _ => True

def SafeMove (hashToken : String → String) (p : LinkPool) : LinkMove → Prop
  | .act i env => ∀ t ∈ p.tasks[i]?, t.Safe hashToken env p.world
  | _ => True

instance (hashToken : String → String) (p : LinkPool) (move : LinkMove) :
    Decidable (KeepsPromise hashToken p move) := by
  cases move <;> unfold KeepsPromise <;> infer_instance

instance (hashToken : String → String) (p : LinkPool) (move : LinkMove) :
    Decidable (SafeMove hashToken p move) := by
  cases move <;> unfold SafeMove <;> infer_instance

end MichiServer.Link
