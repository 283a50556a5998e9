import MichiServer.Connect.Resolver
import MichiServer.Receivers.Registry

/-!
# The discovery bridge

`ReceiverDiscoveryBridge`: the task that carries what the presence store hears into the receiver
registry. It reads the store's events one by one. An operation sends its events after it has let go of
the store's lock, except the sweep, which sends under it. The channel keeps 256 events for a reader
that is behind and drops the oldest; the reader is told of it the next time it asks, and the bridge
then goes through the records that are active instead.
-/

namespace MichiServer.Receivers

open Connect

/-- The id an entry is known under: its michi id, or its receiver id while it has none. -/
def knownAs (e : ReceiverRegistryEntry) : String := e.michiId.getD e.receiverId

/-! ## One event -/

def targetPresence (presenceSource : ScentPresenceSource) (verified : Bool) : ReceiverPresence :=
  if presenceSource = .whiskerSigned ∧ verified = true then .verifiedOnline else .provisionalMdns

def reconcileRecord (reg : ReceiverRegistry) (record : ScentRecord) : ReceiverRegistry :=
  if !record.verified ∧ record.presenceSource ≠ .mdnsProvisional then reg
  else if !isStreamService record.service ∨ !hasAudioRole record.roles then reg
  else
    match record.baseUrl with
    | none => reg
    | some baseUrl =>
      let presence := targetPresence record.presenceSource record.verified
      match reg.getMut record.michiId with
      | some _ => reg.modify record.michiId fun entry => { entry with baseUrl, presence }
      | none =>
        match reg.receivers.find? fun entry =>
          entry.receiverId = record.deviceId ∨ entry.receiverId = record.michiId with
        | some found => reg.updateAll (fun entry => entry.receiverId = found.receiverId)
            fun entry => { entry with michiId := some record.michiId, baseUrl, presence }
        | none => reg.add {
            receiverId := record.michiId
            michiId := some record.michiId
            baseUrl, presence }

def handleEvent (reg : ReceiverRegistry) : ScentEvent → ReceiverRegistry
  | .discovered record => reconcileRecord reg record
  | .updated record => reconcileRecord reg record
  | .endpointChanged michiId _ new presenceSource verified =>
    reg.modify michiId fun entry =>
      { entry with baseUrl := new, presence := targetPresence presenceSource verified }
  | .offline michiId => reg.modify michiId fun entry => { entry with presence := .offline }

/-! ## What an event says -/

def Shown (record : ScentRecord) : Prop :=
  (record.verified = true ∨ record.presenceSource = .mdnsProvisional) ∧
    isStreamService record.service = true ∧ hasAudioRole record.roles = true

instance (record : ScentRecord) : Decidable (Shown record) := inferInstanceAs (Decidable (_ ∧ _))

def newBaseUrl : ScentEvent → Option Url
  | .discovered record => if Shown record then record.baseUrl else none
  | .updated record => if Shown record then record.baseUrl else none
  | .endpointChanged _ _ new _ _ => some new
  | .offline _ => none

def newPresence : ScentEvent → Option ReceiverPresence
  | .discovered record =>
    if Shown record ∧ record.baseUrl ≠ none then
      some (targetPresence record.presenceSource record.verified) else none
  | .updated record =>
    if Shown record ∧ record.baseUrl ≠ none then
      some (targetPresence record.presenceSource record.verified) else none
  | .endpointChanged _ _ _ presenceSource verified => some (targetPresence presenceSource verified)
  | .offline _ => some .offline

/-- The other id by which an event may find its entry: the device id of its record. -/
def secondId : ScentEvent → String
  | .discovered record => record.deviceId
  | .updated record => record.deviceId
  | .endpointChanged michiId .. => michiId
  | .offline michiId => michiId

def showing (presence : ReceiverPresence) (baseUrl : Option Url) (e : ReceiverRegistryEntry) :
    ReceiverRegistryEntry :=
  { e with presence, baseUrl := baseUrl.getD e.baseUrl }

inductive Handled (reg : ReceiverRegistry) (ev : ScentEvent) : ReceiverRegistry → Prop where
  /-- It says nothing, or it is about an entry that is not there. -/
  | unchanged (h : newPresence ev = none ∧ newBaseUrl ev = none ∨
      reg.getMut ev.subject = none) : Handled reg ev reg
  /-- The entry that its id finds is written. -/
  | written (presence : ReceiverPresence) (hpresence : newPresence ev = some presence)
      (e : ReceiverRegistryEntry) (hget : reg.getMut ev.subject = some e) :
      Handled reg ev (reg.updateAll (fun a => a.receiverId = e.receiverId)
        (showing presence (newBaseUrl ev)))
  /-- The id finds nothing, and an entry that is under the device id takes it. -/
  | adopted (presence : ReceiverPresence) (hpresence : newPresence ev = some presence)
      (baseUrl : Url) (hbase : newBaseUrl ev = some baseUrl)
      (hget : reg.getMut ev.subject = none) (e : ReceiverRegistryEntry) (he : e ∈ reg.receivers)
      (hid : e.receiverId = secondId ev) :
      Handled reg ev (reg.updateAll (fun a => a.receiverId = e.receiverId) fun a =>
        { a with michiId := some ev.subject, baseUrl, presence })
  /-- There is no such entry, and one is made. -/
  | projected (presence : ReceiverPresence) (hpresence : newPresence ev = some presence)
      (baseUrl : Url) (hbase : newBaseUrl ev = some baseUrl)
      (hget : reg.getMut ev.subject = none) :
      Handled reg ev (reg.add {
        receiverId := ev.subject, michiId := some ev.subject, baseUrl, presence })

theorem modify_of_getMut {reg : ReceiverRegistry} {id : String} {e : ReceiverRegistryEntry}
    (h : reg.getMut id = some e) (f : ReceiverRegistryEntry → ReceiverRegistryEntry) :
    reg.modify id f = reg.updateAll (fun a => a.receiverId = e.receiverId) f := by
  rw [ReceiverRegistry.modify, h]

theorem modify_of_none {reg : ReceiverRegistry} {id : String} (h : reg.getMut id = none)
    (f : ReceiverRegistryEntry → ReceiverRegistryEntry) : reg.modify id f = reg := by
  rw [ReceiverRegistry.modify, h]

/-- What the registry is after a record that was discovered or updated. -/
theorem handled_record (reg : ReceiverRegistry) {record : ScentRecord} {ev : ScentEvent}
    (hev : ev = .discovered record ∨ ev = .updated record) :
    Handled reg ev (reconcileRecord reg record) := by
  have hpresence : newPresence ev = if Shown record ∧ record.baseUrl ≠ none then
      some (targetPresence record.presenceSource record.verified) else none := by
    obtain rfl | rfl := hev <;> rfl
  have hbase : newBaseUrl ev = if Shown record then record.baseUrl else none := by
    obtain rfl | rfl := hev <;> rfl
  have hsubject : ev.subject = record.michiId := by obtain rfl | rfl := hev <;> rfl
  have hsecond : secondId ev = record.deviceId := by obtain rfl | rfl := hev <;> rfl
  unfold reconcileRecord
  split
  · next hquiet =>
    have hhidden : ¬ Shown record := fun h => h.1.elim (by simpa using hquiet.1) hquiet.2
    exact .unchanged (.inl ⟨by simp [hpresence, hhidden], by simp [hbase, hhidden]⟩)
  next hsource =>
  split
  · next hother =>
    have hhidden : ¬ Shown record := fun h => hother.elim (by simp [h.2.1]) (by simp [h.2.2])
    exact .unchanged (.inl ⟨by simp [hpresence, hhidden], by simp [hbase, hhidden]⟩)
  next hkind =>
  have hshown : Shown record := by
    refine ⟨?_, ?_, ?_⟩
    · grind
    · simpa using (not_or.mp hkind).1
    · simpa using (not_or.mp hkind).2
  split
  · next hnone => exact .unchanged (.inl ⟨by simp [hpresence, hnone], by simp [hbase, hnone]⟩)
  next baseUrl hsome =>
  have hbase' : newBaseUrl ev = some baseUrl := by simp [hbase, hshown, hsome]
  have hpresence' : newPresence ev =
      some (targetPresence record.presenceSource record.verified) := by
    simp [hpresence, hshown, hsome]
  dsimp only
  split
  · next e hget =>
    rw [← hsubject] at hget ⊢
    rw [modify_of_getMut hget]
    have hwritten := Handled.written _ hpresence' e hget
    rw [hbase'] at hwritten
    exact hwritten
  next hget =>
  rw [← hsubject] at hget ⊢
  split
  · next found hfound =>
    have hids := List.find?_some hfound
    have hmem := List.mem_of_find?_eq_some hfound
    simp only [decide_eq_true_eq] at hids
    have hkey := (Option.or_eq_none_iff.mp hget).1
    have hother := List.find?_eq_none.mp hkey found hmem
    simp only [decide_eq_true_eq] at hother
    exact .adopted _ hpresence' baseUrl hbase' hget found hmem
      ((hids.resolve_right hother).trans hsecond.symm)
  · exact .projected _ hpresence' baseUrl hbase' hget

/-- What the registry is after each event. -/
theorem handleEvent_cases (reg : ReceiverRegistry) (ev : ScentEvent) :
    Handled reg ev (handleEvent reg ev) := by
  cases ev with
  | discovered record => exact handled_record reg (.inl rfl)
  | updated record => exact handled_record reg (.inr rfl)
  | endpointChanged michiId old new presenceSource verified =>
    cases hget : reg.getMut michiId with
    | none =>
      rw [handleEvent, modify_of_none hget]
      exact .unchanged (.inr hget)
    | some e =>
      rw [handleEvent, modify_of_getMut hget]
      exact .written _ rfl e hget
  | offline michiId =>
    cases hget : reg.getMut michiId with
    | none =>
      rw [handleEvent, modify_of_none hget]
      exact .unchanged (.inr hget)
    | some e =>
      rw [handleEvent, modify_of_getMut hget]
      exact .written _ rfl e hget

/-! ## The bridge beside the tasks of the store -/

structure Discovery where
  scent : ScentStore
  /-- What a sweep has yet to send; it holds the store's lock until it has. -/
  sweeping : List ScentEvent
  /-- What the other operations have yet to send: they have let go of the lock. -/
  unsent : List ScentEvent
  subscribed : Bool
  channel : List ScentEvent
  /-- Events were dropped since the bridge last asked for one. -/
  lagged : Bool
  /-- The bridge is about to list the active records. -/
  snapshotDue : Bool
  /-- The rest of the listing it goes through. -/
  todo : List ScentRecord
  registry : ReceiverRegistry

def scentEventChannelCapacity : ℕ := 256

inductive DiscoveryMove where
  /-- An operation of a task, under the store's lock. -/
  | call (c : ScentCall)
  /-- A task sends its event. -/
  | send (i : ℕ)
  /-- The sweep sends the next of its events. -/
  | sweepSend
  /-- The bridge subscribes to the events. -/
  | subscribe
  /-- The bridge goes on; `now` is the instant at which it lists what is active. -/
  | goOn (now : Instant)
  /-- `authenticate_receiver` has been answered, and writes the entry. -/
  | authenticated (receiverId token : String) (michiId : Option String)

namespace Discovery

def start (registry : ReceiverRegistry) : Discovery :=
  ⟨.new, [], [], false, [], false, false, [], registry⟩

/-- What the bridge has yet to handle, in the order in which it comes to it. -/
def pending (w : Discovery) : List ScentEvent :=
  w.todo.map .updated ++ (w.channel ++ (w.sweeping ++ w.unsent))

def publish (w : Discovery) (ev : ScentEvent) : Discovery :=
  if !w.subscribed then w
  else if w.channel.length < scentEventChannelCapacity then
    { w with channel := w.channel ++ [ev] }
  else { w with channel := w.channel.tail ++ [ev], lagged := true }

def authenticate (token : String) (michiId : Option String) (entry : ReceiverRegistryEntry) :
    ReceiverRegistryEntry :=
  { entry with
    token := some token
    paired := true
    authenticated := true
    presence := .verifiedOnline
    michiId := michiId.or entry.michiId }

theorem knownAs_authenticate (token : String) {michiId : Option String}
    {e : ReceiverRegistryEntry} (h : michiId = none ∨ michiId = some (knownAs e)) :
    knownAs (authenticate token michiId e) = knownAs e := by
  obtain rfl | rfl := h <;> rfl

/-- What the bridge handles next, of the listing or of the channel: a record of the listing is
reconciled as one that was updated. -/
def next (w : Discovery) : Option ScentEvent :=
  if !w.subscribed ∨ w.snapshotDue then none
  else
    match w.todo with
    | record :: _ => some (.updated record)
    | [] => if w.lagged then none else w.channel.head?

def bridge (w : Discovery) (now : Instant) : Discovery :=
  if !w.subscribed then w
  else if w.snapshotDue then
    -- the listing waits for the lock that a sweep holds
    if w.sweeping ≠ [] then w
    else { w with snapshotDue := false, todo := w.scent.listActiveAt now }
  else
    match w.todo with
    | record :: todo => { w with todo, registry := reconcileRecord w.registry record }
    | [] =>
      if w.lagged then { w with lagged := false, snapshotDue := true }
      else
        match w.channel with
        | ev :: channel => { w with channel, registry := handleEvent w.registry ev }
        | [] => w

def step (w : Discovery) : DiscoveryMove → Discovery
  | .call ⟨op, now⟩ =>
    if w.sweeping ≠ [] then w
    else if op = .checkExpirations then
      { w with scent := op.apply now w.scent, sweeping := op.events now w.scent }
    else { w with scent := op.apply now w.scent, unsent := w.unsent ++ op.events now w.scent }
  | .send i =>
    match w.unsent[i]? with
    | some ev => { w with unsent := w.unsent.eraseIdx i }.publish ev
    | none => w
  | .sweepSend =>
    match w.sweeping with
    | ev :: sweeping => { w with sweeping }.publish ev
    | [] => w
  | .subscribe =>
    if w.subscribed then w else { w with subscribed := true, snapshotDue := true }
  | .goOn now => w.bridge now
  | .authenticated receiverId token michiId =>
    { w with registry := w.registry.modify receiverId (authenticate token michiId) }

/-! ## What a turn does -/

def Lists (w : Discovery) : Prop :=
  w.subscribed = true ∧ w.snapshotDue = true ∧ w.sweeping = []

instance (w : Discovery) : Decidable w.Lists := inferInstanceAs (Decidable (_ ∧ _))

inductive Turn (w : Discovery) (now : Instant) : Discovery → Prop where
  | idle (hlists : ¬ w.Lists) (hnext : w.next = none) : Turn w now w
  | listed (hlists : w.Lists) :
      Turn w now { w with snapshotDue := false, todo := w.scent.listActiveAt now }
  | reconciled (record : ScentRecord) (todo : List ScentRecord) (hdue : w.snapshotDue = false)
      (htodo : w.todo = record :: todo) (hnext : w.next = some (.updated record)) :
      Turn w now { w with todo, registry := handleEvent w.registry (.updated record) }
  | told (hdue : w.snapshotDue = false) (htodo : w.todo = []) (hlagged : w.lagged = true)
      (hnext : w.next = none) :
      Turn w now { w with lagged := false, snapshotDue := true }
  | received (ev : ScentEvent) (channel : List ScentEvent) (hdue : w.snapshotDue = false)
      (hchannel : w.channel = ev :: channel) (htodo : w.todo = []) (hnext : w.next = some ev) :
      Turn w now { w with channel, registry := handleEvent w.registry ev }

/-- One turn of the bridge: an event is taken, or the list of the active ones. -/
theorem turn (w : Discovery) (now : Instant) : Turn w now (w.bridge now) := by
  unfold bridge
  split
  · next hsub => exact .idle (fun h => by simp [h.1] at hsub) (by simp [next, hsub])
  next hsub =>
  have hsubscribed : w.subscribed = true := by simpa using hsub
  split
  · next hdue =>
    split
    · next hheld => exact .idle (fun h => hheld h.2.2) (by simp [next, hdue])
    · next hsweeping => exact .listed ⟨hsubscribed, hdue, not_not.mp hsweeping⟩
  next hnot =>
  have hdue : w.snapshotDue = false := by simpa using hnot
  have hlists : ¬ w.Lists := fun h => hnot h.2.1
  split
  · next record todo htodo =>
    exact .reconciled record todo hdue htodo (by simp [next, hsubscribed, hdue, htodo])
  next htodo =>
  split
  · next hlagged => exact .told hdue htodo hlagged (by simp [next, htodo, hlagged])
  next hlagged =>
  split
  · next ev channel hchannel =>
    exact .received ev channel hdue hchannel htodo
      (by simp [next, hsubscribed, hdue, htodo, hlagged, hchannel])
  · next hchannel => exact .idle hlists (by simp [next, htodo, hlagged, hchannel])

theorem publish_cases (w : Discovery) (ev : ScentEvent) :
    (w.subscribed = false ∧ w.publish ev = w) ∨
    (w.subscribed = true ∧ w.publish ev = { w with channel := w.channel ++ [ev] }) ∨
    (w.subscribed = true ∧ w.channel ≠ [] ∧
      w.publish ev = { w with channel := w.channel.tail ++ [ev], lagged := true }) := by
  grind [publish, next, scentEventChannelCapacity]

section Pending

variable {w : Discovery}

theorem mem_pending_publish {ev ev' : ScentEvent} (h : ev' ∈ (w.publish ev).pending) :
    ev' ∈ w.pending ∨ ev' = ev := by
  obtain ⟨-, hsame⟩ | ⟨-, hsame⟩ | ⟨-, -, hsame⟩ := w.publish_cases ev
  · exact .inl (hsame ▸ h)
  · grind [Discovery.pending]
  · rw [hsame] at h
    have htail := fun x => List.mem_of_mem_tail (a := x) (l := w.channel)
    grind [Discovery.pending]

theorem scent_publish (ev : ScentEvent) : (w.publish ev).scent = w.scent := by
  obtain ⟨-, hsame⟩ | ⟨-, hsame⟩ | ⟨-, -, hsame⟩ := w.publish_cases ev <;> rw [hsame]

theorem mem_pending_of_next {ev : ScentEvent} (h : w.next = some ev) : ev ∈ w.pending := by
  unfold Discovery.next at h
  split at h
  · cases h
  simp only [Discovery.pending, List.mem_append]
  split at h
  · next record todo htodo =>
    cases h
    exact .inl (by simp [htodo])
  · split at h
    · cases h
    · exact .inr (.inl (List.mem_of_head? h))

theorem registry_bridge (w : Discovery) (now : Instant) :
    (w.bridge now).registry = w.registry ∨
      ∃ ev, w.next = some ev ∧ Handled w.registry ev (w.bridge now).registry := by
  have hturn := w.turn now
  generalize w.bridge now = w' at hturn ⊢
  cases hturn with
  | idle => exact .inl rfl
  | listed => exact .inl rfl
  | reconciled record todo _ _ hnext => exact .inr ⟨_, hnext, handleEvent_cases _ _⟩
  | told => exact .inl rfl
  | received ev channel _ _ _ hnext => exact .inr ⟨ev, hnext, handleEvent_cases _ _⟩

end Pending

end Discovery

end MichiServer.Receivers
