import MichiServer.Accounts.Revocation

/-!
# A revoked login session

In a run that puts a session into the cache only while its token is not revoked, and that changes a
password only while no session of the user is cached, no call of `extract_user_id` that begins after a
revocation accepts a revoked token. Without the condition it can, as a run shows.
-/

namespace MichiServer.Accounts

open Interleave

/-! ## The condition -/

/-- A step writes a session to the cache only while its token is not revoked, changes a password only
while no session of the user is cached, and draws a token whose hash no issued token has. -/
def SessionTask.Safe (hashToken : String → String) : SessionTask → SessionEnv → SessionWorld → Prop
  | .insertStored _ token _ _, _, w | .insertCreated token _, _, w => token ∉ w.revoked
  | .updateUserPasswordAndRevokeSessions userId, _, w =>
    ∀ p ∈ w.issued, p.2 = userId → w.sessions p.1 = none
  | .createSession _, env, w => ∀ p ∈ w.issued, hashToken p.1 ≠ hashToken env.token
  | _, _, _ => True

def SafeMove (hashToken : String → String) (p : LoginPool) : LoginMove → Prop
  | .act i env => ∀ t ∈ p.tasks[i]?, t.Safe hashToken env p.world
  | _ => True

/-- The step of a run does not accept a token that was revoked when the call began. -/
def RefusesRevoked (p : LoginPool) : LoginMove → Prop
  | .act i env => ∀ t ∈ p.tasks[i]?, ¬ t.acceptsRevoked env p.world
  | _ => True

instance (hashToken : String → String) (t : SessionTask) (env : SessionEnv) (w : SessionWorld) :
    Decidable (t.Safe hashToken env w) := by
  cases t <;> unfold SessionTask.Safe <;> infer_instance

instance (hashToken : String → String) (p : LoginPool) (move : LoginMove) :
    Decidable (SafeMove hashToken p move) := by
  cases move <;> unfold SafeMove <;> infer_instance

instance (p : LoginPool) (move : LoginMove) : Decidable (RefusesRevoked p move) := by
  cases move <;> unfold RefusesRevoked <;> infer_instance

/-! ## The invariant -/

variable {hashToken : String → String} {w w' : SessionWorld}

namespace SessionWorld

variable (hashToken w)

def Owned (tokenHash : String) (userId : Uuid) : Prop :=
  ∃ t, (t, userId) ∈ w.issued ∧ hashToken t = tokenHash

def Gone (token : String) : Prop :=
  (∃ userId, (token, userId) ∈ w.issued) ∧ w.authSessions (hashToken token) = none

structure Inv : Prop where
  issued_apart : ∀ p ∈ w.issued, ∀ q ∈ w.issued, hashToken p.1 = hashToken q.1 → p = q
  row_owned : ∀ h row, w.authSessions h = some row → w.Owned hashToken h row.userId
  cached_owned : ∀ t data, w.sessions t = some data → w.Owned hashToken (hashToken t) data.userId
  revoked_gone : ∀ t ∈ w.revoked, w.Gone hashToken t ∧ w.sessions t = none

structure Later (w w' : SessionWorld) : Prop where
  issued : ∀ p ∈ w.issued, p ∈ w'.issued
  gone : ∀ t, w.Gone hashToken t → w'.Gone hashToken t

variable {hashToken w}

theorem Later.refl : Later hashToken w w := ⟨fun _ h => h, fun _ h => h⟩

theorem Later.owned (h : Later hashToken w w') {tokenHash : String} {userId : Uuid}
    (howned : w.Owned hashToken tokenHash userId) : w'.Owned hashToken tokenHash userId := by
  obtain ⟨t, ht, hhash⟩ := howned
  exact ⟨t, h.issued _ ht, hhash⟩

variable {token : String} {scope : RevokeScope}

theorem Inv.user_eq (h : w.Inv hashToken) {userId u : Uuid}
    (htoken : (token, u) ∈ w.issued) (howned : w.Owned hashToken (hashToken token) userId) :
    userId = u := by
  obtain ⟨t, ht, hhash⟩ := howned
  exact congrArg Prod.snd (h.issued_apart _ ht _ htoken hhash)

/-! ### What each change keeps -/

theorem later_keepRows (keep : String → AuthSession → Bool) :
    Later hashToken w (w.keepRows keep) where
  issued _ h := h
  gone t h := ⟨h.1, by simp only [keepRows, h.2, Option.filter_none]⟩

theorem later_keepCached (keep : String → SessionData → Bool) :
    Later hashToken w (w.keepCached keep) :=
  ⟨fun _ h => h, fun _ h => h⟩

theorem Inv.keepRows (h : w.Inv hashToken) (keep : String → AuthSession → Bool) :
    (w.keepRows keep).Inv hashToken where
  issued_apart := h.issued_apart
  row_owned _ _ hrow := h.row_owned _ _ (Option.filter_eq_some_iff.mp hrow).1
  cached_owned := h.cached_owned
  revoked_gone t ht := ⟨(later_keepRows keep).gone t (h.revoked_gone t ht).1, (h.revoked_gone t ht).2⟩

theorem Inv.keepCached (h : w.Inv hashToken) (keep : String → SessionData → Bool) :
    (w.keepCached keep).Inv hashToken where
  issued_apart := h.issued_apart
  row_owned := h.row_owned
  cached_owned t data hdata := h.cached_owned _ _ (Option.filter_eq_some_iff.mp hdata).1
  revoked_gone t ht :=
    ⟨(h.revoked_gone t ht).1, by
      simp only [SessionWorld.keepCached, (h.revoked_gone t ht).2, Option.filter_none]⟩

theorem Inv.insertCached (h : w.Inv hashToken) {data : SessionData}
    (howned : w.Owned hashToken (hashToken token) data.userId) (htoken : token ∉ w.revoked) :
    (w.insertCached token data).Inv hashToken where
  issued_apart := h.issued_apart
  row_owned := h.row_owned
  cached_owned t d hd := by
    simp only [SessionWorld.insertCached] at hd
    split at hd
    next heq =>
      cases hd
      rw [heq]
      exact howned
    · exact h.cached_owned t d hd
  revoked_gone t ht := by
    have hne : t ≠ token := fun heq => htoken (heq ▸ ht)
    refine ⟨(h.revoked_gone t ht).1, ?_⟩
    simp only [SessionWorld.insertCached, if_neg hne]
    exact (h.revoked_gone t ht).2

theorem later_issue {row : AuthSession}
    (hfresh : ∀ p ∈ w.issued, hashToken p.1 ≠ hashToken token) :
    Later hashToken w (w.issue hashToken token row) where
  issued _ h := List.mem_cons_of_mem _ h
  gone t h := by
    obtain ⟨⟨u, hu⟩, hrow⟩ := h
    refine ⟨⟨u, List.mem_cons_of_mem _ hu⟩, ?_⟩
    simp only [issue, if_neg (hfresh _ hu)]
    exact hrow

theorem Inv.issue (h : w.Inv hashToken) {row : AuthSession}
    (hfresh : ∀ p ∈ w.issued, hashToken p.1 ≠ hashToken token) :
    (w.issue hashToken token row).Inv hashToken where
  issued_apart p hp q hq hhash := by
    rcases List.mem_cons.mp hp with rfl | hp <;> rcases List.mem_cons.mp hq with rfl | hq
    · rfl
    · exact absurd hhash.symm (hfresh q hq)
    · exact absurd hhash (hfresh p hp)
    · exact h.issued_apart p hp q hq hhash
  row_owned tokenHash r hr := by
    simp only [SessionWorld.issue] at hr
    split at hr
    next heq =>
      cases hr
      exact ⟨token, List.mem_cons_self, heq.symm⟩
    · exact (later_issue hfresh).owned (h.row_owned tokenHash r hr)
  cached_owned t data hdata := (later_issue hfresh).owned (h.cached_owned t data hdata)
  revoked_gone t ht := ⟨(later_issue hfresh).gone t (h.revoked_gone t ht).1, (h.revoked_gone t ht).2⟩

theorem Inv.revoke (h : w.Inv hashToken) {tokens : List String}
    (hgone : ∀ t ∈ tokens, w.Gone hashToken t ∧ w.sessions t = none) :
    (w.revoke tokens).Inv hashToken where
  issued_apart := h.issued_apart
  row_owned := h.row_owned
  cached_owned := h.cached_owned
  revoked_gone t ht := (List.mem_append.mp ht).elim (hgone t) (h.revoked_gone t)

theorem Later.revoke (h : Later hashToken w w') (tokens : List String) :
    Later hashToken w (w'.revoke tokens) :=
  ⟨h.issued, h.gone⟩

theorem mem_doomed :
    token ∈ w.doomed scope ↔ ∃ u, (token, u) ∈ w.issued ∧ scope.covers token u = true := by
  simp [doomed]

theorem Inv.gone_of_doomed (h : w.Inv hashToken)
    (htoken : token ∈ w.doomed scope) : (w.deleteRows hashToken scope).Gone hashToken token := by
  obtain ⟨u, hu, hcovers⟩ := mem_doomed.mp htoken
  refine ⟨⟨u, hu⟩, ?_⟩
  simp only [deleteRows, SessionWorld.keepRows, Option.filter_eq_none_iff]
  intro row hrow
  have huser := h.user_eq hu (h.row_owned _ _ hrow)
  rw [huser, RevokeScope.coversRow_of_covers hcovers]
  exact Bool.false_ne_true

theorem Inv.uncached_of_covers (h : w.Inv hashToken) {u : Uuid}
    (hu : (token, u) ∈ w.issued) (hcovers : scope.covers token u = true) :
    (w.removeCached scope).sessions token = none := by
  simp only [removeCached, SessionWorld.keepCached, Option.filter_eq_none_iff]
  intro data hdata
  rw [h.user_eq hu (h.cached_owned _ _ hdata), hcovers]
  exact Bool.false_ne_true

end SessionWorld

/-! ## The tasks -/

def SessionTask.Good (hashToken : String → String) : SessionTask → SessionWorld → Prop
  | .userOfCached wasRevoked _ _, _ => wasRevoked = false
  | .userOfStored wasRevoked token userId _, w | .insertStored wasRevoked token userId _, w =>
    wasRevoked = false ∧ w.Owned hashToken (hashToken token) userId
  | .getAuthSession wasRevoked token, w => wasRevoked = true → w.Gone hashToken token
  | .insertCreated token userId, w => w.Owned hashToken (hashToken token) userId
  | .removeCached scope doomed, w =>
    ∀ t ∈ doomed, w.Gone hashToken t ∧ ∃ u, (t, u) ∈ w.issued ∧ scope.covers t u = true
  | _, _ => True

namespace SessionTask

open SessionWorld

variable {t : SessionTask}

theorem Good.later (h : t.Good hashToken w) (hw : Later hashToken w w') :
    t.Good hashToken w' := by
  cases t with
  | userOfCached => exact h
  | userOfStored | insertStored => exact ⟨h.1, hw.owned h.2⟩
  | getAuthSession => exact fun hrevoked => hw.gone _ (h hrevoked)
  | insertCreated => exact hw.owned h
  | removeCached scope doomed =>
    intro t ht
    obtain ⟨hgone, u, hu, hcovers⟩ := h t ht
    exact ⟨hw.gone t hgone, u, hw.issued _ hu, hcovers⟩
  | extractUserId | deleteAuthSession | createSession | deleteRows
  | updateUserPasswordAndRevokeSessions => trivial

theorem not_cached_of_revoked (h : w.Inv hashToken) {token : String} (htoken : token ∈ w.revoked)
    (instant : DateTime) : w.cachedUserId token instant = none := by
  rw [Sessions.cachedUserId, (h.revoked_gone token htoken).2]
  rfl

/-- What a safe step of a call does: it keeps the invariant and what is known of the others, and
something is known of what it becomes. -/
structure Steps (hashToken : String → String) (w : SessionWorld)
    (r : List SessionTask × SessionWorld) : Prop where
  inv : r.2.Inv hashToken
  later : Later hashToken w r.2
  good : ∀ t ∈ r.1, t.Good hashToken r.2

theorem Steps.stay (h : w.Inv hashToken) {tasks : List SessionTask}
    (hgood : ∀ t ∈ tasks, t.Good hashToken w) : Steps hashToken w (tasks, w) :=
  ⟨h, Later.refl, hgood⟩

theorem Steps.none (h : w.Inv hashToken) : Steps hashToken w ([], w) :=
  .stay h fun _ ht => nomatch ht

theorem Steps.one (h : w.Inv hashToken) (hgood : t.Good hashToken w) :
    Steps hashToken w ([t], w) :=
  .stay h fun _ ht => by
    rw [List.mem_singleton.mp ht]
    exact hgood

/-- A safe step keeps what holds of the tables and of the cache, and leaves the task good. -/
theorem steps_of_safe {env : SessionEnv} (h : w.Inv hashToken)
    (hgood : t.Good hashToken w) (hsafe : t.Safe hashToken env w) :
    Steps hashToken w (t.step hashToken env w) := by
  cases t with
  | extractUserId token =>
    simp only [step]
    split
    next userId hcached =>
      -- a revoked token is not in the cache
      refine Steps.one h (decide_eq_false fun htoken => ?_)
      rw [not_cached_of_revoked h htoken] at hcached
      cases hcached
    · refine Steps.one h fun htoken => ?_
      exact (h.revoked_gone token (of_decide_eq_true htoken)).1
  | userOfCached wasRevoked token userId =>
    simp only [step]
    split
    · exact Steps.none h
    · exact Steps.one h trivial
  | getAuthSession wasRevoked token =>
    simp only [step]
    split
    next row hrow =>
      split
      · refine Steps.one h ⟨?_, h.row_owned _ _ hrow⟩
        -- the row was there, so the token was not gone
        cases wasRevoked with
        | false => rfl
        | true => rw [(hgood rfl).2] at hrow; cases hrow
      · exact Steps.none h
    · exact Steps.none h
  | userOfStored wasRevoked token userId remaining =>
    simp only [step]
    split
    · exact Steps.one h hgood
    · exact Steps.one h trivial
  | insertStored wasRevoked token userId remaining =>
    exact ⟨h.insertCached hgood.2 hsafe, ⟨fun _ hp => hp, fun _ ht => ht⟩, fun _ ht => nomatch ht⟩
  | deleteAuthSession tokenHash =>
    simp only [step]
    split
    · exact ⟨h.keepRows _, later_keepRows _, fun _ ht => nomatch ht⟩
    · exact Steps.none h
  | createSession userId =>
    simp only [step]
    split
    · refine ⟨h.issue hsafe, later_issue hsafe, fun t ht => ?_⟩
      rw [List.mem_singleton.mp ht]
      exact ⟨env.token, List.mem_cons_self, rfl⟩
    · exact Steps.none h
  | insertCreated token userId =>
    exact ⟨h.insertCached hgood hsafe, ⟨fun _ hp => hp, fun _ ht => ht⟩, fun _ ht => nomatch ht⟩
  | deleteRows scope =>
    simp only [step]
    split
    · refine ⟨h.keepRows _, later_keepRows _, fun t ht => ?_⟩
      rw [List.mem_singleton.mp ht]
      exact fun token htoken => ⟨h.gone_of_doomed htoken, mem_doomed.mp htoken⟩
    · exact Steps.none h
  | removeCached scope doomed =>
    refine ⟨(h.keepCached _).revoke fun t ht => ?_, (later_keepCached _).revoke doomed,
      fun _ ht => nomatch ht⟩
    obtain ⟨hgone, u, hu, hcovers⟩ := hgood t ht
    exact ⟨hgone, h.uncached_of_covers hu hcovers⟩
  | updateUserPasswordAndRevokeSessions userId =>
    simp only [step]
    split
    · refine ⟨(h.keepRows _).revoke fun t ht => ⟨h.gone_of_doomed ht, ?_⟩,
        (later_keepRows _).revoke _, fun _ ht => nomatch ht⟩
      obtain ⟨u, hu, hcovers⟩ := mem_doomed.mp ht
      exact hsafe (t, u) hu (eq_of_beq hcovers)
    · exact Steps.none h

theorem not_acceptsRevoked {env : SessionEnv} (hgood : t.Good hashToken w) :
    ¬ t.acceptsRevoked env w := by
  cases t with
  | userOfCached =>
    intro haccepts
    cases hgood.symm.trans haccepts.1
  | insertStored =>
    intro haccepts
    cases hgood.1.symm.trans haccepts
  | extractUserId | getAuthSession | userOfStored | deleteAuthSession | createSession
  | insertCreated | deleteRows | removeCached | updateUserPasswordAndRevokeSessions =>
    exact id

end SessionTask

/-! ## Every run -/

def sessionInvariant (hashToken : String → String) : Invariant SessionTask SessionWorld where
  Inv w := w.Inv hashToken
  Good t w := t.Good hashToken w
  Apart _ _ := True
  apart_symm _ _ _ := trivial

theorem good_enter (call : SessionCall) (w : SessionWorld) :
    (SessionTask.enter call).Good hashToken w := by
  cases call <;> trivial

theorem tick_kept (tick : SessionTick) (h : w.Inv hashToken) :
    (w.tick tick).Inv hashToken ∧ SessionWorld.Later hashToken w (w.tick tick) := by
  cases tick with
  | cleanupCached => exact ⟨h.keepCached _, SessionWorld.later_keepCached _⟩
  | cleanupExpiredAuthSessions => exact ⟨h.keepRows _, SessionWorld.later_keepRows _⟩
  | restart => exact ⟨h.keepCached _, SessionWorld.later_keepCached _⟩
  | setUsers users =>
    have hkept := h.keepRows fun _ row => row.userId ∈ users
    have hlater : SessionWorld.Later hashToken w _ :=
      SessionWorld.later_keepRows fun _ row => row.userId ∈ users
    exact ⟨⟨hkept.issued_apart, hkept.row_owned, hkept.cached_owned, hkept.revoked_gone⟩,
      ⟨hlater.issued, hlater.gone⟩⟩

theorem session_preserved (hashToken : String → String) :
    (sessionInvariant hashToken).Preserved (sessionMachine hashToken) (SafeMove hashToken) where
  enter call w _ := ⟨good_enter call w, fun _ => trivial⟩
  self p i env t ht hsafe hinv hgood := by
    have hsteps := SessionTask.steps_of_safe hinv hgood (hsafe t ht)
    exact ⟨hsteps.inv, hsteps.good, List.pairwise_of_forall fun _ _ => trivial⟩
  other p i env t u ht _ hsafe hinv hgood hu _ := by
    have hsteps := SessionTask.steps_of_safe hinv hgood (hsafe t ht)
    exact ⟨SessionTask.Good.later hu hsteps.later, fun _ _ => trivial⟩
  tick tick w hinv := by
    obtain ⟨hinv', hlater⟩ := tick_kept tick hinv
    exact ⟨hinv', fun u hu => SessionTask.Good.later hu hlater⟩

theorem noSessionYet_holds (users : List Uuid) :
    (sessionInvariant hashToken).Holds (noSessionYet users) := by
  refine ⟨⟨?_, ?_, ?_, ?_⟩, ?_, List.Pairwise.nil⟩ <;> simp [noSessionYet]

/-- **Finality.** In every run of safe steps, no call of `extract_user_id` that begins when its token is
revoked accepts it. -/
theorem revoked_session_stays_revoked (hashToken : String → String) (users : List Uuid)
    (moves : List LoginMove)
    (hmoves : (noSessionYet users).Obeys (sessionMachine hashToken) (SafeMove hashToken) moves) :
    (noSessionYet users).Obeys (sessionMachine hashToken) RefusesRevoked moves := by
  refine (session_preserved hashToken).obeys (fun p move hp _ => ?_) (noSessionYet_holds users) hmoves
  cases move with
  | act i env =>
    exact fun t ht => SessionTask.not_acceptsRevoked (hp.2.1 t (List.mem_of_getElem? ht))
  | arrive | drop | tick => trivial

def loggedOut : List LoginMove :=
  [.arrive (.createSession 1), .act 0 { token := "token" }, .act 0 {},
    .arrive (.extractUserId "token"), .act 0 {}, .act 0 {},
    .arrive (.invalidate "token"), .act 0 {}, .act 0 {},
    .arrive (.extractUserId "token"), .act 0 {}, .act 0 {}]

/-- A session is created, used and invalidated; then its token is refused. -/
theorem logged_out_stays_out :
    (noSessionYet [1]).Obeys (sessionMachine id) (SafeMove id) loggedOut ∧
      (noSessionYet [1]).Obeys (sessionMachine id) RefusesRevoked loggedOut :=
  have hsafe : (noSessionYet [1]).Obeys (sessionMachine id) (SafeMove id) loggedOut := by
    decide +kernel
  ⟨hsafe, revoked_session_stays_revoked id [1] loggedOut hsafe⟩

/-- After a restart a call reads the row, `invalidate` runs and returns, and the call puts the session
into the cache. -/
def lateInsertion : List LoginMove :=
  [.arrive (.createSession 1), .act 0 { token := "token" }, .act 0 {}, .tick .restart,
    .arrive (.extractUserId "token"), .act 0 {}, .act 0 {}, .act 0 {},
    .arrive (.invalidate "token"), .act 1 {}, .act 1 {}, .act 0 {},
    .arrive (.extractUserId "token"), .act 0 {}, .act 0 {}]

def passwordChanged : List LoginMove :=
  [.arrive (.createSession 1), .act 0 { token := "token" }, .act 0 {},
    .arrive (.updateUserPasswordAndRevokeSessions 1), .act 0 {},
    .arrive (.extractUserId "token"), .act 0 {}, .act 0 {}]

/-- **The race, and the cache that is left.** In both runs a call that begins after the revocation is
accepted from the cache. -/
theorem revoked_session_accepted :
    ¬ (noSessionYet [1]).Obeys (sessionMachine id) RefusesRevoked lateInsertion ∧
      ¬ (noSessionYet [1]).Obeys (sessionMachine id) RefusesRevoked passwordChanged := by
  decide +kernel

end MichiServer.Accounts
