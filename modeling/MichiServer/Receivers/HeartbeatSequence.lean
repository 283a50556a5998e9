import MichiServer.Receivers.Sessions

/-!
# The numbers of heartbeats

`heartbeat` of the session manager, which the supervisor of a session calls and so does
`/receivers/:id/heartbeat`. It reads the session's record, makes a client whose counter starts at the
count on record, and sends the next number; when the receiver answers 401 it authenticates and sends
the number after that. The count on record goes up by one when an answer is good, whatever session
the record is of by then, and by nothing when there is none.

The model is of the calls for one receiver. The manager's other tasks are met in what they do to the
record; what has been sent is kept in the order of sending, with the session it was sent in.
-/

namespace MichiServer.Receivers

open MichiServer.Interleave

structure SentHeartbeat where
  session : ℕ
  sequence : ℕ

structure HeartbeatWorld where
  state : ReceiverState
  sent : List SentHeartbeat := []

structure HeartbeatClient where
  session : ℕ
  activeSessionId : String
  activeSessionToken : Option String
  heartbeatSequence : ℕ

/-- The client for a record: its counter starts at the count on record. -/
def HeartbeatClient.ofSession (sess : Owned ReceiverActiveSession) : HeartbeatClient where
  session := sess.session
  activeSessionId := sess.value.receiverSessionId
  activeSessionToken := sess.value.sessionToken
  heartbeatSequence := sess.value.heartbeatSequence

def HeartbeatClient.advance (client : HeartbeatClient) : HeartbeatClient :=
  { client with heartbeatSequence := client.heartbeatSequence + 1 }

inductive HeartbeatCall where
  | readEntry
  | readSession
  | send (client : HeartbeatClient)
  | requesting (client : HeartbeatClient)
  | authenticate (client : HeartbeatClient)
  | sendAgain (client : HeartbeatClient)
  | requestingAgain (client : HeartbeatClient)
  | count
  | returned (result : Except ReceiverClientError Unit)

/-- `heartbeat` of the client, as far as its request: the next number is sent. -/
def HeartbeatWorld.send (w : HeartbeatWorld) (client : HeartbeatClient) : HeartbeatWorld :=
  { w with sent := w.sent ++ [⟨client.session, client.advance.heartbeatSequence⟩] }

def HeartbeatWorld.count (w : HeartbeatWorld) : HeartbeatWorld :=
  { w with state := { w.state with activeSession := w.state.activeSession.map fun s =>
      ⟨s.session, { s.value with heartbeatSequence := s.value.heartbeatSequence + 1 }⟩ } }

def heartbeatCallStep (env : TaskEnv) (w : HeartbeatWorld) :
    HeartbeatCall → HeartbeatCall × HeartbeatWorld
  | .readEntry =>
    match w.state.registry with
    | none => (.returned (.error (.offline ("receiver not found: " ++ w.state.receiverId))), w)
    | some _ => (.readSession, w)
  | .readSession =>
    match w.state.activeSession with
    | none =>
      (.returned (.error (.protocol "NoActiveSession: cannot heartbeat without active session")), w)
    | some sess => (.send (.ofSession sess), w)
  | .send client => (.requesting client.advance, w.send client)
  | .requesting client =>
    match env.response with
    | .ok () => (.count, w)
    | .error .unauthorized => (.authenticate client, w)
    | .error e => (.returned (.error e), w)
  | .authenticate client =>
    if env.authenticated then (.sendAgain client, w)
    else (.returned (.error .unauthorized), w)
  | .sendAgain client => (.requestingAgain client.advance, w.send client)
  | .requestingAgain _ =>
    match env.response with
    | .ok () => (.count, w)
    | .error e => (.returned (.error e), w)
  | .count => (.returned (.ok ()), w.count)
  | .returned r => (.returned r, w)

/-- What the manager's other tasks do to the record and the registry meanwhile. -/
inductive SessionChange where
  | start (negotiated : NegotiatedReceiverSession)
  | closing
  | failed
  | remove
  | registry (change : RegistryChange)

def SessionChange.apply (w : ReceiverState) : SessionChange → ReceiverState
  | .start n => (startStep n {} w .insertSession).2
  | .closing => (stopStep {} w .markClosing).2
  | .failed => (stopStep {} w (.markFailed "")).2
  | .remove => (stopStep {} w .removeSession).2
  | .registry change => sessionManager.tick change w

def heartbeatCalls : Machine Unit HeartbeatCall TaskEnv SessionChange HeartbeatWorld where
  enter _ := .readEntry
  step call env w :=
    let r := heartbeatCallStep env w call
    ([r.1], r.2)
  tick change w := { w with state := change.apply w.state }

abbrev HeartbeatPool := Pool HeartbeatCall HeartbeatWorld

abbrev HeartbeatMove := PoolMove Unit TaskEnv SessionChange

def HeartbeatPool.idle (receiverId : String) (registered : Bool) : HeartbeatPool where
  tasks := []
  world := { state := (SessionPool.idle receiverId registered).world }

/-! ## Numbers that increase -/

def Increasing (sent : List SentHeartbeat) : Prop :=
  sent.Pairwise fun a b => a.session = b.session → a.sequence < b.sequence

def SentUpTo (sent : List SentHeartbeat) (session bound : ℕ) : Prop :=
  ∀ m ∈ sent, m.session = session → m.sequence ≤ bound

instance (sent : List SentHeartbeat) : Decidable (Increasing sent) :=
  inferInstanceAs (Decidable (List.Pairwise _ sent))

instance (sent : List SentHeartbeat) (session bound : ℕ) : Decidable (SentUpTo sent session bound) :=
  inferInstanceAs (Decidable (∀ m ∈ sent, _))

theorem increasing_concat {sent : List SentHeartbeat} {session n : ℕ} :
    Increasing (sent ++ [⟨session, n + 1⟩]) ↔ Increasing sent ∧ SentUpTo sent session n := by
  simp only [Increasing, SentUpTo, List.pairwise_append, List.pairwise_singleton, List.mem_singleton,
    forall_eq, true_and, Nat.lt_succ_iff]

theorem SentUpTo.concat {sent : List SentHeartbeat} {session bound : ℕ} {m : SentHeartbeat}
    (h : SentUpTo sent session bound) (hm : m.session = session → m.sequence ≤ bound) :
    SentUpTo (sent ++ [m]) session bound := by
  intro a ha hsession
  rcases List.mem_append.mp ha with hold | hnew
  · exact h a hold hsession
  · cases List.mem_singleton.mp hnew
    exact hm hsession

/-! ## Reading in turn -/

def HeartbeatCall.sender : HeartbeatCall → Option HeartbeatClient
  | .send client => some client
  | .requesting client => some client
  | .authenticate client => some client
  | .sendAgain client => some client
  | _ => none

/-- A call reads the record of a session in turn: the count on record is not behind what was sent in the
session, and no other call may still send in it. -/
structure ReadsInTurn (p : HeartbeatPool) (sess : Owned ReceiverActiveSession) : Prop where
  counted : SentUpTo p.world.sent sess.session sess.value.heartbeatSequence
  alone : ∀ u ∈ p.tasks, ∀ c ∈ u.sender, c.session ≠ sess.session

def InTurn (p : HeartbeatPool) : HeartbeatMove → Prop
  | .act i _ => ∀ t ∈ p.tasks[i]?, t = .readSession → ∀ sess ∈ p.world.state.activeSession,
      ReadsInTurn p sess
  | _ => True

def NoRead (p : HeartbeatPool) : HeartbeatMove → Prop
  | .act i _ => ∀ t ∈ p.tasks[i]?, t ≠ .readSession
  | _ => True

/-- What is known of the calls: nothing above a client's counter was sent in its session, and no two
calls may still send in one session. -/
def numbering : Invariant HeartbeatCall HeartbeatWorld where
  Inv w := Increasing w.sent
  Good t w := ∀ c ∈ t.sender, SentUpTo w.sent c.session c.heartbeatSequence
  Apart t u := ∀ c ∈ t.sender, ∀ d ∈ u.sender, c.session ≠ d.session
  apart_symm _ _ h c hc d hd heq := h d hd c hc heq.symm

variable {p : HeartbeatPool} {t u : HeartbeatCall} {env : TaskEnv} {w : HeartbeatWorld}

/-- What a step of a call does to the number and to what was sent. -/
theorem heartbeatCallStep_cases (env : TaskEnv) (w : HeartbeatWorld) (t : HeartbeatCall) :
    let r := heartbeatCallStep env w t
    (∃ c ∈ t.sender, r.2.sent = w.sent ++ [⟨c.session, c.heartbeatSequence + 1⟩] ∧
      ∀ d ∈ r.1.sender, d = c.advance) ∨
    (r.2.sent = w.sent ∧ ∀ d ∈ r.1.sender, d ∈ t.sender ∨
      t = .readSession ∧ ∃ sess ∈ w.state.activeSession, d = .ofSession sess) := by
  cases t with
  | readEntry =>
    grind [heartbeatCallStep, HeartbeatCall.sender]
  | readSession =>
    grind [heartbeatCallStep, HeartbeatCall.sender]
  | send client =>
    exact .inl ⟨client, rfl, rfl, fun d hd => (Option.mem_some_iff.mp hd).symm⟩
  | requesting client =>
    right
    simp only [heartbeatCallStep]
    split <;> simp [HeartbeatCall.sender]
  | authenticate client =>
    right
    simp only [heartbeatCallStep]
    split <;> simp [HeartbeatCall.sender]
  | sendAgain client =>
    exact .inl ⟨client, rfl, rfl, fun d hd => nomatch hd⟩
  | requestingAgain client =>
    right
    simp only [heartbeatCallStep]
    split <;> simp [HeartbeatCall.sender]
  | count => exact .inr ⟨rfl, fun d hd => nomatch hd⟩
  | returned r => exact .inr ⟨rfl, fun d hd => nomatch hd⟩

/-- Each move in turn keeps the numbers rising. -/
theorem numbering_preserved : numbering.Preserved heartbeatCalls InTurn where
  enter _ _ _ := ⟨(fun _ hc => nomatch hc), (fun _ _ hc => nomatch hc)⟩
  tick _ _ hinv := ⟨hinv, fun _ hgood => hgood⟩
  self p i env t ht hturn hinv hgood := by
    have hsingle : (heartbeatCalls.step t env p.world).1.Pairwise numbering.Apart :=
      List.pairwise_singleton ..
    rcases heartbeatCallStep_cases env p.world t with ⟨c, hc, hsent, hnext⟩ | ⟨hsent, hnext⟩
    · have hupto := hgood c hc
      refine ⟨?_, fun t' ht' d hd => ?_, hsingle⟩
      · change Increasing (heartbeatCallStep env p.world t).2.sent
        rw [hsent]
        exact increasing_concat.mpr ⟨hinv, hupto⟩
      · cases List.mem_singleton.mp ht'
        cases hnext d hd
        change SentUpTo (heartbeatCallStep env p.world t).2.sent c.session (c.heartbeatSequence + 1)
        rw [hsent]
        refine SentUpTo.concat (fun m hm hsession => ?_) fun _ => Nat.le_refl _
        have hle := hupto m hm hsession
        omega
    · refine ⟨?_, fun t' ht' d hd => ?_, hsingle⟩
      · change Increasing (heartbeatCallStep env p.world t).2.sent
        rw [hsent]
        exact hinv
      · cases List.mem_singleton.mp ht'
        change SentUpTo (heartbeatCallStep env p.world t).2.sent d.session d.heartbeatSequence
        rw [hsent]
        rcases hnext d hd with hold | ⟨hread, sess, hsess, rfl⟩
        · exact hgood d hold
        · exact (hturn t ht hread sess hsess).counted
  other p i env t u ht hu hturn hinv hgood hgood' hapart := by
    rcases heartbeatCallStep_cases env p.world t with ⟨c, hc, hsent, hnext⟩ | ⟨hsent, hnext⟩
    · refine ⟨fun d hd => ?_, fun t' ht' d hd e he => ?_⟩
      · change SentUpTo (heartbeatCallStep env p.world t).2.sent d.session d.heartbeatSequence
        rw [hsent]
        exact (hgood' d hd).concat fun heq => absurd heq (hapart c hc d hd)
      · cases List.mem_singleton.mp ht'
        cases hnext d hd
        exact hapart c hc e he
    · refine ⟨fun d hd => ?_, fun t' ht' d hd e he => ?_⟩
      · change SentUpTo (heartbeatCallStep env p.world t).2.sent d.session d.heartbeatSequence
        rw [hsent]
        exact hgood' d hd
      · cases List.mem_singleton.mp ht'
        rcases hnext d hd with hold | ⟨hread, sess, hsess, rfl⟩
        · exact hapart d hold e he
        · exact ((hturn t ht hread sess hsess).alone u hu e he).symm

variable {move : HeartbeatMove} {i : ℕ} {c : HeartbeatClient}

theorem InTurn.of_no_read (h : NoRead p move) : InTurn p move := by
  cases move with
  | act i env => exact fun t ht hread => absurd hread (h t ht)
  | arrive | drop | tick => trivial

/-! ## Reading out of turn -/

theorem step_call (h : p.tasks[i]? = some t) :
    p.step heartbeatCalls (.act i env) =
      ⟨p.tasks.set i (heartbeatCallStep env p.world t).1, (heartbeatCallStep env p.world t).2⟩ := by
  have hlt : i < p.tasks.length := (List.getElem?_eq_some_iff.mp h).1
  simp only [Pool.step, h, heartbeatCalls]
  rw [List.set_eq_take_append_cons_drop, if_pos hlt, List.append_assoc, List.singleton_append]

/-- The call goes on by itself, reading no record, until it has sent the next number of its client. -/
def SendsNext (p : HeartbeatPool) (i : ℕ) (c : HeartbeatClient) : Prop :=
  ∃ moves t', p.Obeys heartbeatCalls NoRead moves ∧ p.run heartbeatCalls moves =
    ⟨p.tasks.set i t', p.world.send c⟩

theorem no_read_act (h : p.tasks[i]? = some t) (hread : t ≠ .readSession) :
    NoRead p (.act i env) := by
  intro t' ht'
  rw [h] at ht'
  cases ht'
  exact hread

theorem SendsNext.step (h : p.tasks[i]? = some t)
    (hread : t ≠ .readSession) (hstep : heartbeatCallStep env p.world t = (u, p.world))
    (hnext : SendsNext ⟨p.tasks.set i u, p.world⟩ i c) : SendsNext p i c := by
  obtain ⟨moves, t', hunread, hrun⟩ := hnext
  have hmove : p.step heartbeatCalls (.act i env) = ⟨p.tasks.set i u, p.world⟩ := by
    rw [step_call h, hstep]
  refine ⟨.act i env :: moves, t', ⟨no_read_act h hread, ?_⟩, ?_⟩
  · rw [hmove]
    exact hunread
  · rw [Pool.run, Logic.Trace.run, List.foldl_cons, hmove]
    exact hrun.trans (by rw [List.set_set])

theorem sends_next_of_send (h : p.tasks[i]? = some t)
    (hread : t ≠ .readSession) (hstep : heartbeatCallStep {} p.world t = (u, p.world.send c)) :
    SendsNext p i c := by
  refine ⟨[.act i {}], u, ⟨no_read_act h hread, trivial⟩, ?_⟩
  rw [Pool.run, Logic.Trace.run, List.foldl_cons, List.foldl_nil, step_call h, hstep]

theorem set_call (h : p.tasks[i]? = some t) (u : HeartbeatCall) :
    (p.tasks.set i u)[i]? = some u :=
  List.getElem?_set_self (List.getElem?_eq_some_iff.mp h).1

/-- The call that is at its sending is the next to send. -/
theorem sends_next (h : p.tasks[i]? = some t) (hc : c ∈ t.sender) :
    SendsNext p i c := by
  have hagain {q : HeartbeatPool} (hq : q.tasks[i]? = some (.sendAgain c)) : SendsNext q i c :=
    sends_next_of_send hq (by simp) rfl
  have hauthenticate {q : HeartbeatPool} (hq : q.tasks[i]? = some (.authenticate c)) :
      SendsNext q i c := by
    have hstep : heartbeatCallStep { authenticated := true } q.world (.authenticate c) =
        (.sendAgain c, q.world) := rfl
    exact .step hq (by simp) hstep (hagain (set_call hq _))
  cases t with
  | send client =>
    cases Option.mem_some_iff.mp hc
    exact sends_next_of_send h (by simp) rfl
  | requesting client =>
    cases Option.mem_some_iff.mp hc
    have hstep : heartbeatCallStep { response := .error .unauthorized } p.world
        (.requesting c) = (.authenticate c, p.world) := rfl
    exact .step h (by simp) hstep (hauthenticate (set_call h _))
  | authenticate client =>
    cases Option.mem_some_iff.mp hc
    exact hauthenticate h
  | sendAgain client =>
    cases Option.mem_some_iff.mp hc
    exact hagain h
  | readEntry | readSession | requestingAgain _ | count | returned _ => cases hc

/-- The numbers increase however the calls go on that have read their records. -/
def Settled (p : HeartbeatPool) : Prop :=
  ∀ after, p.Obeys heartbeatCalls NoRead after →
    Increasing (p.run heartbeatCalls after).world.sent

theorem Settled.run {moves : List HeartbeatMove} (hp : Settled p)
    (hmoves : p.Obeys heartbeatCalls NoRead moves) : Settled (p.run heartbeatCalls moves) := by
  intro after hafter
  have hall := hp (moves ++ after) (Logic.Trace.obeys_append_iff.mpr ⟨hmoves, hafter⟩)
  rwa [Pool.run, Logic.Trace.run_append] at hall

theorem Settled.sent_up_to (hp : Settled p) (h : p.tasks[i]? = some t) (hc : c ∈ t.sender) :
    SentUpTo p.world.sent c.session c.heartbeatSequence := by
  obtain ⟨moves, t', hunread, hrun⟩ := sends_next h hc
  have hincreasing := hp moves hunread
  rw [hrun] at hincreasing
  exact (increasing_concat.mp hincreasing).2

theorem Settled.apart {i j : ℕ} {c d : HeartbeatClient} (hp : Settled p) (hij : i ≠ j)
    (h : p.tasks[i]? = some t) (hc : c ∈ t.sender) (h' : p.tasks[j]? = some u)
    (hd : d ∈ u.sender) : c.session ≠ d.session := by
  have hlater {i j : ℕ} {t u : HeartbeatCall} {c d : HeartbeatClient} (hij : i ≠ j)
      (h : p.tasks[i]? = some t) (hc : c ∈ t.sender) (h' : p.tasks[j]? = some u)
      (hd : d ∈ u.sender) (heq : c.session = d.session) :
      c.heartbeatSequence + 1 ≤ d.heartbeatSequence := by
    obtain ⟨moves, t', hunread, hrun⟩ := sends_next h hc
    have hstill : (p.tasks.set i t')[j]? = some u := by rw [List.getElem?_set_ne hij, h']
    have hnext := hp.run hunread
    rw [hrun] at hnext
    exact hnext.sent_up_to hstill hd ⟨c.session, c.heartbeatSequence + 1⟩
      (List.mem_append_right _ (List.mem_singleton_self _)) heq
  grind

theorem settled_iff : Settled p ↔ numbering.Holds p := by
  constructor
  · intro hp
    refine ⟨hp [] trivial, fun t ht c hc => ?_, List.pairwise_iff_getElem.mpr ?_⟩
    · obtain ⟨i, hi⟩ := List.mem_iff_getElem?.mp ht
      exact hp.sent_up_to hi hc
    · intro i j hi hj hij c hc d hd
      exact hp.apart (Nat.ne_of_lt hij) (List.getElem?_eq_getElem hi) hc (List.getElem?_eq_getElem hj) hd
  · intro hp after hunread
    have hholds : numbering.Holds (p.run heartbeatCalls after) :=
      Logic.Trace.run_invariant
        (fun _ _ h hmove => numbering_preserved.step h (InTurn.of_no_read hmove)) hp hunread
    exact hholds.1

/-- A move after which the numbers rise was in turn. -/
theorem in_turn_of_settled (h : Settled (p.step heartbeatCalls move)) :
    InTurn p move := by
  cases move with
  | arrive | drop | tick => trivial
  | act i env =>
    rintro t ht rfl sess hsess
    have hi : p.tasks[i]? = some .readSession := ht
    have hread : heartbeatCallStep env p.world .readSession =
        (.send (.ofSession sess), p.world) := by
      grind [heartbeatCallStep]
    rw [step_call hi, hread] at h
    have hsender : HeartbeatClient.ofSession sess ∈
        (HeartbeatCall.send (.ofSession sess)).sender := rfl
    refine ⟨h.sent_up_to (set_call hi _) hsender, fun u hu c hc heq => ?_⟩
    obtain ⟨j, hj⟩ := List.mem_iff_getElem?.mp hu
    have hij : i ≠ j := by
      rintro rfl
      rw [hi] at hj
      cases hj
      cases hc
    have hstill : (p.tasks.set i (.send (.ofSession sess)))[j]? = some u := by
      rw [List.getElem?_set_ne hij, hj]
    exact h.apart hij (set_call hi _) hsender hstill hc heq.symm

theorem settled_step_iff (hp : Settled p) :
    Settled (p.step heartbeatCalls move) ↔ InTurn p move :=
  ⟨in_turn_of_settled, fun hturn =>
    settled_iff.mpr (numbering_preserved.step (settled_iff.mp hp) hturn)⟩

/-! ## Every run -/

theorem settled_idle (receiverId : String) (registered : Bool) :
    Settled (HeartbeatPool.idle receiverId registered) :=
  settled_iff.mpr ⟨.nil, (fun _ ht => nomatch ht), .nil⟩

/-- **When the numbers of heartbeats increase.** In every run of heartbeats of a receiver, with any
answers and any changes of its session: the numbers sent in each session increase strictly at each
point of the run, and go on to however the calls go on that have read their records, exactly when every
record is read in turn. -/
theorem numbers_increase_iff (receiverId : String) (registered : Bool)
    (moves : List HeartbeatMove) :
    (∀ before, before <+: moves →
      let p := (HeartbeatPool.idle receiverId registered).run heartbeatCalls before
      ∀ after, p.Obeys heartbeatCalls NoRead after →
        Increasing (p.run heartbeatCalls after).world.sent) ↔
      (HeartbeatPool.idle receiverId registered).Obeys heartbeatCalls InTurn moves :=
  Logic.Trace.invariant_along_iff (fun _ _ hp => settled_step_iff hp)
    (settled_idle receiverId registered) moves

/-- A session is started; its first heartbeat is answered with 401, sent again, and counted once. Then
another heartbeat reads the record and sends. -/
def repeatingRun : List HeartbeatMove :=
  [.tick (.start ⟨"session", "token", 30⟩), .arrive (), .act 0 {}, .act 0 {}, .act 0 {},
    .act 0 { response := .error .unauthorized }, .act 0 { authenticated := true }, .act 0 {},
    .act 0 {}, .act 0 {}, .arrive (), .act 1 {}, .act 1 {}, .act 1 {}]

/-- The second heartbeat sends the number that the first was sent again with. -/
theorem retried_number_repeats :
    ¬ ∀ receiverId registered moves, Increasing
      ((HeartbeatPool.idle receiverId registered).run heartbeatCalls moves).world.sent := by
  intro h
  have hrun := h "receiver" true repeatingRun
  revert hrun
  decide

end MichiServer.Receivers
