import MichiServer.Logic.Lastly
import MichiServer.Receivers.Effects

/-!
# Whether the registry comes to show the store

When the store has stopped changing and the bridge has handled what was on its way, an entry shows what
was last said of its record. That is what the record is, as long as the events of a record leave in the
order of its writes, what was dropped can be made up for by the listing of the active records, and
nobody else writes what the entry shows.

Two things are followed beside the state: the ids whose record has been taken into the registry, and
the ids of which an event was dropped since the last listing.
-/

namespace MichiServer.Receivers

open Connect Logic

structure Projecting where
  discovery : Discovery
  /-- The ids of which a record has been written into an entry. -/
  projected : List String
  /-- The ids of which an event was dropped since the active records were last listed. -/
  lost : List String

def Discovery.dropped (w : Discovery) : List ScentEvent :=
  if w.subscribed ∧ ¬ w.channel.length < scentEventChannelCapacity then w.channel.head?.toList
  else []

def Discovery.Publishes (w : Discovery) : DiscoveryMove → Bool
  | .send i => w.unsent[i]?.isSome
  | .sweepSend => !w.sweeping.isEmpty
  | _ => false

def newlyProjected (w : Discovery) : DiscoveryMove → List String
  | .goOn now =>
    match w.next with
    | some ev =>
      if (newBaseUrl ev).isSome ∧ ((w.bridge now).registry.getMut ev.subject).isSome then
        [ev.subject] else []
    | none => []
  | _ => []

def stillLost (w : Projecting) (mv : DiscoveryMove) : List String :=
  if w.discovery.Publishes mv then w.discovery.dropped.map ScentEvent.subject ++ w.lost
  else
    match mv with
    | .goOn _ => if w.discovery.Lists then [] else w.lost
    | _ => w.lost

def projectStep (w : Projecting) (mv : DiscoveryMove) : Projecting where
  discovery := w.discovery.step mv
  projected := newlyProjected w.discovery mv ++ w.projected
  lost := stillLost w mv

def Projecting.start (registry : ReceiverRegistry) : Projecting := ⟨.start registry, [], []⟩

def Quiet (w : Discovery) : Prop :=
  w.pending = [] ∧ w.lagged = false ∧ w.snapshotDue = false

instance (w : Discovery) : Decidable (Quiet w) := inferInstanceAs (Decidable (_ ∧ _))

/-- Every entry that was projected from a record has the presence and the address of the record. -/
def Converged (w : Projecting) : Prop :=
  Quiet w.discovery → ∀ x ∈ w.projected, ∃ r ∈ w.discovery.scent.get x,
    ∃ e ∈ w.discovery.registry.getMut x,
      e.presence = shownPresence r ∧ some e.baseUrl = r.baseUrl

instance (w : Projecting) : Decidable (Converged w) :=
  inferInstanceAs (Decidable (_ → ∀ x ∈ w.projected, ∃ r ∈ w.discovery.scent.get x,
    ∃ e ∈ w.discovery.registry.getMut x, _))

/-- A listing takes only records that are flagged online, and has a record for every entry that an
event of was lost. -/
def Listed (w : Projecting) (now : Instant) : Prop :=
  (∀ r ∈ w.discovery.scent.listActiveAt now, r.online = true) ∧
    ∀ x ∈ w.lost, x ∈ w.projected → ∃ r ∈ w.discovery.scent.listActiveAt now, r.michiId = x

instance (w : Projecting) (now : Instant) : Decidable (Listed w now) :=
  inferInstanceAs (Decidable (_ ∧ _))

/-- The entry that an event finds is known as its subject; an entry that it finds by its device id is
not one that shows another record. -/
def Recognised (w : Projecting) (ev : ScentEvent) : Prop :=
  (∀ e ∈ w.discovery.registry.getMut ev.subject, knownAs e = ev.subject) ∧
    (w.discovery.registry.getMut ev.subject = none →
      ∀ e ∈ w.discovery.registry.receivers, e.receiverId = secondId ev →
        knownAs e ∉ w.projected)

instance (w : Projecting) (ev : ScentEvent) : Decidable (Recognised w ev) :=
  inferInstanceAs (Decidable (_ ∧ _))

def Orderly (w : Projecting) : DiscoveryMove → Prop
  | .call ⟨op, now⟩ => OfStream op ∧ Noticed w.discovery.scent now op ∧
      ∀ ev ∈ w.discovery.unsent, touches w.discovery.scent now ev.subject op = false
  | .goOn now => (w.discovery.Lists → Listed w now) ∧
      ∀ ev ∈ w.discovery.next, Recognised w ev
  | .authenticated receiverId _ michiId =>
    ∀ e ∈ w.discovery.registry.getMut receiverId,
      (michiId = none ∨ michiId = some (knownAs e)) ∧
        (knownAs e ∈ w.projected → ∀ r ∈ w.discovery.scent.get (knownAs e),
          shownPresence r = .verifiedOnline)
  | _ => True

instance (w : Projecting) (mv : DiscoveryMove) : Decidable (Orderly w mv) := by
  cases mv <;> simp only [Orderly] <;> infer_instance

/-! ## What is said last -/

def presenceOf (x : String) (ev : ScentEvent) : Option ReceiverPresence :=
  if ev.subject = x then newPresence ev else none

def addressOf (x : String) (ev : ScentEvent) : Option Url :=
  if ev.subject = x then newBaseUrl ev else none

def Agrees (x : String) (r : ScentRecord) (queue : List ScentEvent) : Prop :=
  (∀ p, lastly (presenceOf x) queue = some p → p = shownPresence r) ∧
    ∀ u, lastly (addressOf x) queue = some u → some u = r.baseUrl

def Shows (x : String) (r : ScentRecord) (e : ReceiverRegistryEntry) (queue : List ScentEvent) :
    Prop :=
  (lastly (presenceOf x) queue = none → e.presence = shownPresence r) ∧
    (lastly (addressOf x) queue = none → some e.baseUrl = r.baseUrl)

def Discovery.queue (w : Discovery) : List ScentEvent := w.channel ++ (w.sweeping ++ w.unsent)

theorem Discovery.pending_eq (w : Discovery) :
    w.pending = w.todo.map ScentEvent.updated ++ w.queue := rfl

section Lastly

variable {x : String} {ev : ScentEvent} {queue rest : List ScentEvent} {r : ScentRecord}
  {e : ReceiverRegistryEntry}

theorem presenceOf_ne (h : ev.subject ≠ x) : presenceOf x ev = none := if_neg h

theorem addressOf_ne (h : ev.subject ≠ x) : addressOf x ev = none := if_neg h

def SaySame (x : String) (queue rest : List ScentEvent) : Prop :=
  lastly (presenceOf x) rest = lastly (presenceOf x) queue ∧
    lastly (addressOf x) rest = lastly (addressOf x) queue

theorem SaySame.agrees (h : SaySame x queue rest) (ha : Agrees x r queue) : Agrees x r rest :=
  ⟨fun p hp => ha.1 p (h.1 ▸ hp), fun u hu => ha.2 u (h.2 ▸ hu)⟩

theorem SaySame.shows (h : SaySame x queue rest) (hs : Shows x r e queue) : Shows x r e rest :=
  ⟨fun hp => hs.1 (h.1 ▸ hp), fun hu => hs.2 (h.2 ▸ hu)⟩

theorem SaySame.append_left (h : SaySame x queue rest) (before : List ScentEvent) :
    SaySame x (before ++ queue) (before ++ rest) := by
  refine ⟨?_, ?_⟩
  · rw [lastly_append, lastly_append, h.1]
  · rw [lastly_append, lastly_append, h.2]

theorem saySame_cons (h : ev.subject ≠ x) : SaySame x (ev :: queue) queue := by
  refine ⟨?_, ?_⟩
  · rw [lastly_cons, presenceOf_ne h, Option.or_none]
  · rw [lastly_cons, addressOf_ne h, Option.or_none]

theorem Agrees.of_cons (h : Agrees x r (ev :: queue)) : Agrees x r queue :=
  ⟨fun p hp => h.1 p (lastly_of_tail hp), fun u hu => h.2 u (lastly_of_tail hu)⟩

/-- To take an event out of turn says the same, where it is the only one of its subject. -/
theorem saySame_moved {before after : List ScentEvent} (x : String)
    (halone : ((before ++ ev :: after).map ScentEvent.subject).Nodup) :
    SaySame x (queue ++ (before ++ ev :: after)) ((queue ++ [ev]) ++ (before ++ after)) := by
  have hothers : ∀ ev' ∈ before ++ after, ev'.subject ≠ ev.subject := by
    grind
  have hmoved : ∀ {β : Type} (f : ScentEvent → Option β),
      (∀ ev', f ev' ≠ none → ev'.subject = x) →
      lastly f ((queue ++ [ev]) ++ (before ++ after)) =
        lastly f (queue ++ (before ++ ev :: after)) := by
    intro β f hf
    simp only [lastly_append, lastly_cons, lastly_nil, Option.none_or]
    by_cases hev : f ev = none
    · rw [hev, Option.none_or, Option.or_none]
    · have hsilent : lastly f (before ++ after) = none := by
        refine lastly_eq_none_iff.mpr fun ev' hev' => ?_
        grind
      grind [lastly_append]
  refine ⟨hmoved _ fun ev' h => ?_, hmoved _ fun ev' h => ?_⟩
  · by_contra hne
    exact h (presenceOf_ne hne)
  · by_contra hne
    exact h (addressOf_ne hne)

end Lastly

/-! ## The entry of a peer -/

section Entry

variable {reg reg' : ReceiverRegistry} {ev : ScentEvent} {x : String} {e : ReceiverRegistryEntry}

/-- An event of another subject leaves the entry that is found. -/
theorem getMut_handled_of_ne (h : Handled reg ev reg') (hx : ev.subject ≠ x)
    (hget : reg.getMut x = some e) (hknown : knownAs e = x)
    (hself : ∀ e' ∈ reg.getMut ev.subject, knownAs e' = ev.subject)
    (hsecond : reg.getMut ev.subject = none →
      ∀ e' ∈ reg.receivers, e'.receiverId = secondId ev → knownAs e' ≠ x) :
    reg'.getMut x = some e := by
  have hmem := ReceiverRegistry.mem_of_getMut hget
  have hapart : ∀ {e'}, e' ∈ reg.receivers → knownAs e' ≠ x → e.receiverId ≠ e'.receiverId := by
    grind [ReceiverRegistry.eq_of_receiverId]
  cases h with
  | unchanged => exact hget
  | written presence hpresence found hfound =>
    have he' := ReceiverRegistry.mem_of_getMut hfound
    have hne : knownAs found ≠ x := fun hsame => hx ((hself found hfound).symm.trans hsame)
    exact ReceiverRegistry.getMut_update_of_ne he' hget (hapart he' hne) id
  | adopted presence hpresence baseUrl hbase hnone found hfound hid =>
    grind [ReceiverRegistry.getMut_update_of_ne]
  | projected presence hpresence baseUrl hbase hnone =>
    rw [ReceiverRegistry.getMut_add_of_ne (Option.or_eq_none_iff.mp hnone).1 (Ne.symm hx)
      fun hsame => hx (Option.some.inj hsame)]
    exact hget

/-- The entry that is found after an event is that of its subject, and shows what it says. -/
theorem getMut_handled (h : Handled reg ev reg') (hget : reg'.getMut ev.subject = some e)
    (hself : ∀ e' ∈ reg.getMut ev.subject, knownAs e' = ev.subject) :
    knownAs e = ev.subject ∧ (∀ p, newPresence ev = some p → e.presence = p) ∧
      (∀ u, newBaseUrl ev = some u → e.baseUrl = u) ∧
      (newBaseUrl ev = none → ∃ old, reg.getMut ev.subject = some old ∧
        e.baseUrl = old.baseUrl ∧ (newPresence ev = none → e.presence = old.presence)) := by
  cases h with
  | unchanged hquiet =>
    grind
  | written presence hpresence found hfound =>
    rw [ReceiverRegistry.getMut_update_self hfound (.inr rfl)] at hget
    cases hget
    refine ⟨hself found hfound, fun p hp => Option.some.inj (hpresence.symm.trans hp),
      fun u hu => ?_, fun hnone => ⟨found, hfound, ?_, fun hno => ?_⟩⟩
    · simp only [showing, hu, Option.getD_some]
    · simp only [showing, hnone, Option.getD_none]
    · rw [hpresence] at hno
      cases hno
  | adopted presence hpresence baseUrl hbase hnone found hfound hid =>
    rw [ReceiverRegistry.getMut_update_of_none hfound hnone rfl] at hget
    cases hget
    refine ⟨rfl, fun p hp => Option.some.inj (hpresence.symm.trans hp),
      fun u hu => Option.some.inj (hbase.symm.trans hu), fun hno => ?_⟩
    rw [hbase] at hno
    cases hno
  | projected presence hpresence baseUrl hbase hnone =>
    cases ReceiverRegistry.getMut_add_self.symm.trans hget
    refine ⟨rfl, fun p hp => Option.some.inj (hpresence.symm.trans hp),
      fun u hu => Option.some.inj (hbase.symm.trans hu), fun hno => ?_⟩
    rw [hbase] at hno
    cases hno

theorem getMut_handled_isSome (h : Handled reg ev reg') (hget : reg.getMut ev.subject = some e) :
    ∃ e', reg'.getMut ev.subject = some e' := by
  cases h with
  | unchanged => exact ⟨e, hget⟩
  | written presence hpresence found hfound =>
    exact ⟨_, ReceiverRegistry.getMut_update_self hfound (.inr rfl)⟩
  | adopted presence hpresence baseUrl hbase hnone => rw [hnone] at hget; cases hget
  | projected presence hpresence baseUrl hbase hnone => rw [hnone] at hget; cases hget

/-- An authentication of another receiver leaves the entry that is found. -/
theorem getMut_authenticated {receiverId : String} (token : String) {michiId : Option String}
    (hget : reg.getMut x = some e) (hknown : knownAs e = x)
    (hid : ∀ found ∈ reg.getMut receiverId, michiId = none ∨ michiId = some (knownAs found)) :
    (reg.modify receiverId (Discovery.authenticate token michiId)).getMut x = some e ∨
    (reg.getMut receiverId = some e ∧
      (reg.modify receiverId (Discovery.authenticate token michiId)).getMut x =
        some (Discovery.authenticate token michiId e)) := by
  cases hfound : reg.getMut receiverId with
  | none =>
    rw [modify_of_none hfound]
    exact .inl hget
  | some found =>
    have hmem := ReceiverRegistry.mem_of_getMut hfound
    have hkeeps := hid found hfound
    rw [modify_of_getMut hfound]
    by_cases hsame : e.receiverId = found.receiverId
    · obtain rfl := ReceiverRegistry.eq_of_receiverId (ReceiverRegistry.mem_of_getMut hget) hmem
        hsame
      refine .inr ⟨rfl, ReceiverRegistry.getMut_update_self hget ?_⟩
      obtain rfl | rfl := hkeeps
      · exact .inr rfl
      · cases hmichi : e.michiId with
        | none => exact .inl (by rw [← hknown, knownAs, hmichi, Option.getD_none])
        | some y => exact .inr (by simp [Discovery.authenticate, knownAs, hmichi])
    · refine .inl (ReceiverRegistry.getMut_update_of_ne hmem hget hsame fun hx => ?_)
      obtain rfl | rfl := hkeeps
      · exact hx
      · -- the entry takes the id it is known as; without a michi id that is its key
        have hfinds : knownAs found = x := Option.some.inj hx
        cases hmichi : found.michiId with
        | none =>
          grind [knownAs, ReceiverRegistry.entry_of_mem, ReceiverRegistry.getMut_of_entry]
        | some y => rw [← hfinds, knownAs, hmichi, Option.getD_some]

end Entry

/-! ## The invariant -/

structure ProjectInv (w : Projecting) : Prop where
  sound : StoreSound w.discovery.scent
  /-- The events that are not in the channel are about different peers. -/
  alone : ((w.discovery.sweeping ++ w.discovery.unsent).map ScentEvent.subject).Nodup
  based : ∀ ev ∈ w.discovery.pending, newBaseUrl ev ≠ none →
    ∃ r, w.discovery.scent.get ev.subject = some r ∧ r.baseUrl ≠ none
  queued : ∀ x r, w.discovery.scent.get x = some r → r.baseUrl ≠ none →
    Agrees x r w.discovery.queue
  whole : ∀ x r, w.discovery.scent.get x = some r → r.baseUrl ≠ none → x ∉ w.lost →
    Agrees x r w.discovery.pending
  known : ∀ x ∈ w.projected, ∃ r, w.discovery.scent.get x = some r ∧ r.baseUrl ≠ none ∧
    ∃ e, w.discovery.registry.getMut x = some e ∧ knownAs e = x ∧
      (x ∉ w.lost → Shows x r e w.discovery.pending)
  /-- What was lost is made up for before the bridge is quiet. -/
  behind : w.lost ≠ [] → w.discovery.lagged = true ∨ w.discovery.snapshotDue = true
  waiting : w.discovery.snapshotDue = true → w.discovery.todo = []
  early : w.discovery.subscribed = false → w.discovery.channel = [] ∧ w.discovery.todo = [] ∧
    w.projected = [] ∧ w.lost = []

/-! ### An operation -/

section Call

variable {x : String} {ev : ScentEvent} {before events after : List ScentEvent} {r r' : ScentRecord}
  {e : ReceiverRegistryEntry}

theorem Agrees.congr (h : Agrees x r before) (hpresence : shownPresence r' = shownPresence r)
    (hbase : r'.baseUrl = r.baseUrl) : Agrees x r' before :=
  ⟨fun p hp => hpresence ▸ h.1 p hp, fun u hu => hbase ▸ h.2 u hu⟩

theorem Shows.congr (h : Shows x r e before) (hpresence : shownPresence r' = shownPresence r)
    (hbase : r'.baseUrl = r.baseUrl) : Shows x r' e before :=
  ⟨fun hp => hpresence ▸ h.1 hp, fun hu => hbase ▸ h.2 hu⟩

theorem saySame_inserted (h : ∀ ev ∈ events, ev.subject ≠ x) :
    SaySame x (before ++ after) (before ++ (events ++ after)) := by
  have hsilent : ∀ {β : Type} (f : ScentEvent → Option β),
      (∀ ev', ev'.subject ≠ x → f ev' = none) → lastly f (events ++ after) = lastly f after := by
    intro β f hf
    rw [lastly_append, lastly_eq_none_iff.mpr fun ev hev => hf ev (h ev hev), Option.or_none]
  exact SaySame.append_left ⟨hsilent _ fun _ => presenceOf_ne, hsilent _ fun _ => addressOf_ne⟩ before

theorem lastly_inserted {β : Type} {f : ScentEvent → Option β}
    (hf : ∀ ev', ev'.subject ≠ x → f ev' = none) (hev : ev ∈ events)
    (honly : ∀ ev' ∈ events, ev'.subject = x → ev' = ev) (hafter : ∀ ev' ∈ after, ev'.subject ≠ x) :
    lastly f (before ++ (events ++ after)) = (f ev).or (lastly f (before ++ after)) := by
  have hsilent : lastly f after = none :=
    lastly_eq_none_iff.mpr fun ev' hev' => hf ev' (hafter ev' hev')
  have htells : lastly f events = f ev := by
    grind [lastly_of_mem]
  simp only [lastly_append, hsilent, htells, Option.none_or]

variable {old new : Option ScentRecord}

/-- What a call sends agrees with the record it leaves. -/
theorem agrees_effect (heffect : Effect x old new events)
    (hafter : ∀ ev ∈ events, ev.subject = x → ∀ ev' ∈ after, ev'.subject ≠ x)
    (hagrees : ∀ r, old = some r → r.baseUrl ≠ none → Agrees x r (before ++ after))
    (hnew : new = some r') (hbase : r'.baseUrl ≠ none) :
    Agrees x r' (before ++ (events ++ after)) := by
  cases heffect with
  | silent hevents hshown =>
    rw [hnew, Option.map_some] at hshown
    obtain ⟨r, hold, hsame⟩ := Option.map_eq_some_iff.mp hshown.symm
    obtain ⟨hpresence, haddress⟩ := Prod.mk.injEq .. ▸ hsame
    have hbase' : r.baseUrl ≠ none := haddress ▸ hbase
    exact ((saySame_inserted hevents).agrees (hagrees r hold hbase')).congr hpresence.symm
      haddress.symm
  | told r'' hnew' ev hev hsubject honly hkeeps hbrings hpresence haddress =>
    cases hnew.symm.trans hnew'
    have hrest := hafter ev hev hsubject
    refine ⟨fun p hp => ?_, fun u hu => ?_⟩
    · rw [lastly_inserted (fun _ => presenceOf_ne) hev honly hrest, presenceOf, if_pos hsubject,
        hpresence hbase, Option.some_or] at hp
      exact (Option.some.inj hp).symm
    · rw [lastly_inserted (fun _ => addressOf_ne) hev honly hrest, addressOf, if_pos hsubject] at hu
      obtain htells | ⟨hquiet, hkept⟩ := haddress hbase
      · obtain ⟨v, hv⟩ := Option.ne_none_iff_exists'.mp hbase
        rw [htells, hv, Option.some_or] at hu
        rw [hv, hu]
      · rw [hquiet, Option.none_or] at hu
        obtain ⟨r, hold, hsame⟩ := Option.bind_eq_some_iff.mp
          (hkept.trans (Option.ne_none_iff_exists'.mp hbase).choose_spec)
        have hold' : r.baseUrl = r'.baseUrl := by rw [← hkept, hold, Option.bind_some]
        exact ((hagrees r hold (hold' ▸ hbase)).2 u hu).trans hold'

theorem base_effect (heffect : Effect x old new events)
    (hold : old = some r) (hbase : r.baseUrl ≠ none) :
    ∃ r', new = some r' ∧ r'.baseUrl ≠ none := by
  cases heffect with
  | silent hevents hshown =>
    rw [hold, Option.map_some] at hshown
    obtain ⟨r', hnew, hsame⟩ := Option.map_eq_some_iff.mp hshown
    grind
  | told r' hnew ev hev hsubject honly hkeeps => exact ⟨r', hnew, hkeeps r hold hbase⟩

/-- An entry that shows the record will show what the call leaves of it. -/
theorem shows_effect (heffect : Effect x old new events)
    (hafter : ∀ ev ∈ events, ev.subject = x → ∀ ev' ∈ after, ev'.subject ≠ x)
    (hold : old = some r) (hbase : r.baseUrl ≠ none) (hnew : new = some r')
    (h : Shows x r e (before ++ after)) : Shows x r' e (before ++ (events ++ after)) := by
  cases heffect with
  | silent hevents hshown =>
    rw [hold, hnew, Option.map_some, Option.map_some] at hshown
    obtain ⟨hpresence, haddress⟩ := Prod.mk.injEq .. ▸ Option.some.inj hshown
    exact ((saySame_inserted hevents).shows h).congr hpresence haddress
  | told r'' hnew' ev hev hsubject honly hkeeps hbrings hpresence haddress =>
    cases hnew.symm.trans hnew'
    have hbase' := hkeeps r hold hbase
    have hrest := hafter ev hev hsubject
    refine ⟨fun hp => ?_, fun hu => ?_⟩
    · rw [lastly_inserted (fun _ => presenceOf_ne) hev honly hrest, presenceOf, if_pos hsubject,
        hpresence hbase', Option.some_or] at hp
      cases hp
    · rw [lastly_inserted (fun _ => addressOf_ne) hev honly hrest, addressOf, if_pos hsubject] at hu
      obtain htells | ⟨hquiet, hkept⟩ := haddress hbase'
      · grind
      · rw [hquiet, Option.none_or] at hu
        rw [h.2 hu, ← hkept, hold, Option.bind_some]

/-- A call of the store keeps the invariant, where nothing behind it in the queue is touched. -/
theorem inv_call (before after : List ScentEvent) {w : Projecting} {d : Discovery} {op : ScentOp}
    {now : Instant} (h : ProjectInv w)
    (hsends : Sends w.discovery.scent op now) (hqueue : w.discovery.queue = before ++ after)
    (hafter : ∀ ev ∈ after, touches w.discovery.scent now ev.subject op = false)
    (hscent : d.scent = op.apply now w.discovery.scent)
    (hqueue' : d.queue = before ++ (op.events now w.discovery.scent ++ after))
    (halone : ((d.sweeping ++ d.unsent).map ScentEvent.subject).Nodup)
    (hregistry : d.registry = w.discovery.registry) (htodo : d.todo = w.discovery.todo)
    (hchannel : d.channel = w.discovery.channel) (hlagged : d.lagged = w.discovery.lagged)
    (hdue : d.snapshotDue = w.discovery.snapshotDue)
    (hsubscribed : d.subscribed = w.discovery.subscribed) :
    ProjectInv ⟨d, w.projected, w.lost⟩ := by
  have hrest : ∀ x, ∀ ev ∈ op.events now w.discovery.scent, ev.subject = x →
      ∀ ev' ∈ after, ev'.subject ≠ x := by
    rintro x ev hev rfl ev' hev' hsame
    have htouched := hsends.touched ev hev
    rw [← hsame, hafter ev' hev'] at htouched
    cases htouched
  have hpending : w.discovery.pending = (w.discovery.todo.map .updated ++ before) ++ after := by
    rw [Discovery.pending_eq, hqueue, List.append_assoc]
  have hpending' : d.pending = (w.discovery.todo.map .updated ++ before) ++
      (op.events now w.discovery.scent ++ after) := by
    rw [Discovery.pending_eq, hqueue', htodo, List.append_assoc]
  constructor
  case sound => exact hscent ▸ hsends.sound
  case alone => exact halone
  case based =>
    intro ev hev hnew
    simp only [hscent]
    rw [hpending'] at hev
    have hcase : ev ∈ w.discovery.pending ∨ ev ∈ op.events now w.discovery.scent := by
      rw [hpending]
      simp only [List.mem_append] at hev ⊢
      tauto
    obtain hold | hsent := hcase
    · obtain ⟨r, hr, hbase⟩ := h.based ev hold hnew
      exact base_effect (hsends.effect ev.subject) hr hbase
    · cases hsends.effect ev.subject with
      | silent hevents => exact absurd rfl (hevents ev hsent)
      | told r' hnew' ev' hev' hsubject honly hkeeps hbrings =>
        grind
  case queued =>
    intro x r' hr' hbase
    simp only [hqueue', hscent] at hr' ⊢
    refine agrees_effect (hsends.effect x) (hrest x) (fun r hr hbase' => ?_) hr' hbase
    exact hqueue ▸ h.queued x r hr hbase'
  case whole =>
    intro x r' hr' hbase hlost
    simp only [hpending', hscent] at hr' ⊢
    refine agrees_effect (hsends.effect x) (hrest x) (fun r hr hbase' => ?_) hr' hbase
    exact hpending ▸ h.whole x r hr hbase' hlost
  case known =>
    intro x hx
    obtain ⟨r, hr, hbase, e, he, hknown, hshows⟩ := h.known x hx
    obtain ⟨r', hr', hbase'⟩ := base_effect (hsends.effect x) hr hbase
    refine ⟨r', by rw [hscent]; exact hr', hbase', e, by rw [hregistry]; exact he, hknown, ?_⟩
    intro hlost
    rw [hpending']
    exact shows_effect (hsends.effect x) (hrest x) hr hbase hr' (hpending ▸ hshows hlost)
  case behind => simpa only [hlagged, hdue] using h.behind
  case waiting => simpa only [hdue, htodo] using h.waiting
  case early => simpa only [hsubscribed, hchannel, htodo] using h.early

end Call

/-! ### An event that is sent -/

section Publish

variable {w : Projecting} {ev : ScentEvent} {before after sweeping unsent : List ScentEvent}

theorem saySame_sent (h : ProjectInv w)
    (hrest : w.discovery.sweeping ++ w.discovery.unsent = before ++ ev :: after) (x : String) :
    SaySame x w.discovery.queue ((w.discovery.channel ++ [ev]) ++ (before ++ after)) := by
  have halone := h.alone
  grind [Discovery.queue, saySame_moved]

theorem alone_sent (h : ProjectInv w)
    (hrest : w.discovery.sweeping ++ w.discovery.unsent = before ++ ev :: after)
    (hrest' : sweeping ++ unsent = before ++ after) :
    ((sweeping ++ unsent).map ScentEvent.subject).Nodup := by
  have halone := h.alone
  rw [hrest] at halone
  rw [hrest']
  exact halone.sublist (((List.sublist_cons_self ev after).append_left before).map _)

theorem pending_sent (hrest : w.discovery.sweeping ++ w.discovery.unsent = before ++ ev :: after) :
    ev ∈ w.discovery.pending ∧ ∀ ev' ∈ before ++ after, ev' ∈ w.discovery.pending := by
  grind [Discovery.pending_eq, Discovery.queue]

/-- An event that nobody is subscribed to keeps the invariant. -/
theorem inv_unheard (h : ProjectInv w)
    (hrest : w.discovery.sweeping ++ w.discovery.unsent = before ++ ev :: after)
    (hrest' : sweeping ++ unsent = before ++ after) (hnot : w.discovery.subscribed = false) :
    ProjectInv ⟨{ w.discovery with sweeping, unsent }, w.projected, w.lost⟩ := by
  obtain ⟨hchannel, htodo, hprojected, hlost⟩ := h.early hnot
  have hagrees : ∀ x r, w.discovery.scent.get x = some r → r.baseUrl ≠ none →
      Agrees x r (before ++ after) := by
    intro x r hr hbase
    have hsent := (saySame_sent h hrest x).agrees (h.queued x r hr hbase)
    rw [hchannel] at hsent
    exact hsent.of_cons
  have hqueue : Discovery.queue { w.discovery with sweeping, unsent } = before ++ after := by
    rw [Discovery.queue, hchannel, hrest', List.nil_append]
  have hpending : Discovery.pending { w.discovery with sweeping, unsent } = before ++ after := by
    grind [Discovery.pending_eq]
  constructor
  case sound => exact h.sound
  case alone => exact alone_sent h hrest hrest'
  case based =>
    intro ev' hev' hnew
    exact h.based ev' ((pending_sent hrest).2 ev' (hpending ▸ hev')) hnew
  case queued => exact fun x r hr hbase => hqueue ▸ hagrees x r hr hbase
  case whole => exact fun x r hr hbase _ => hpending ▸ hagrees x r hr hbase
  case known =>
    grind
  case behind => exact h.behind
  case waiting => exact h.waiting
  case early => exact h.early

/-- So does an event that is sent. -/
theorem inv_sent (h : ProjectInv w)
    (hrest : w.discovery.sweeping ++ w.discovery.unsent = before ++ ev :: after)
    (hrest' : sweeping ++ unsent = before ++ after) (hsubscribed : w.discovery.subscribed = true) :
    ProjectInv ⟨{ w.discovery with sweeping, unsent, channel := w.discovery.channel ++ [ev] },
      w.projected, w.lost⟩ := by
  have hsame := saySame_sent h hrest
  have hqueue : Discovery.queue { w.discovery with
      sweeping, unsent, channel := w.discovery.channel ++ [ev] } =
      (w.discovery.channel ++ [ev]) ++ (before ++ after) := by
    rw [Discovery.queue, hrest']
  have hpending : ∀ x, SaySame x w.discovery.pending (Discovery.pending { w.discovery with
      sweeping, unsent, channel := w.discovery.channel ++ [ev] }) := by
    intro x
    rw [Discovery.pending_eq, Discovery.pending_eq, hqueue]
    exact (hsame x).append_left _
  constructor
  case sound => exact h.sound
  case alone => exact alone_sent h hrest hrest'
  case based =>
    intro ev' hev' hnew
    refine h.based ev' ?_ hnew
    rw [Discovery.pending_eq, hqueue] at hev'
    obtain ⟨hev, hothers⟩ := pending_sent hrest
    obtain htodo | (hchannel | hself) | hother :
        ev' ∈ w.discovery.todo.map .updated ∨ (ev' ∈ w.discovery.channel ∨ ev' = ev) ∨
          ev' ∈ before ++ after := by
      simpa only [List.mem_append, List.mem_singleton] using hev'
    · exact List.mem_append_left _ htodo
    · exact List.mem_append_right _ (List.mem_append_left _ hchannel)
    · exact hself ▸ hev
    · exact hothers ev' hother
  case queued => exact fun x r hr hbase => hqueue ▸ (hsame x).agrees (h.queued x r hr hbase)
  case whole => exact fun x r hr hbase hlost => (hpending x).agrees (h.whole x r hr hbase hlost)
  case known =>
    intro x hx
    obtain ⟨r, hr, hbase, e, he, hknown, hshows⟩ := h.known x hx
    exact ⟨r, hr, hbase, e, he, hknown, fun hlost => (hpending x).shows (hshows hlost)⟩
  case behind => exact h.behind
  case waiting => exact h.waiting
  case early =>
    grind

/-- So does an event that is sent over a full channel, as the loss is noted. -/
theorem inv_dropped {oldest : ScentEvent} {channel : List ScentEvent} (h : ProjectInv w)
    (hrest : w.discovery.sweeping ++ w.discovery.unsent = before ++ ev :: after)
    (hrest' : sweeping ++ unsent = before ++ after) (hsubscribed : w.discovery.subscribed = true)
    (hchannel : w.discovery.channel = oldest :: channel) :
    ProjectInv ⟨{ w.discovery with sweeping, unsent, channel := channel ++ [ev], lagged := true },
      w.projected, oldest.subject :: w.lost⟩ := by
  have hsame : ∀ x, SaySame x w.discovery.queue
      (oldest :: ((channel ++ [ev]) ++ (before ++ after))) := by
    grind [saySame_sent]
  have hqueue : Discovery.queue { w.discovery with
      sweeping, unsent, channel := channel ++ [ev], lagged := true } =
      (channel ++ [ev]) ++ (before ++ after) := by
    rw [Discovery.queue, hrest']
  have hpending : ∀ x, x ≠ oldest.subject → SaySame x w.discovery.pending
      (Discovery.pending { w.discovery with
        sweeping, unsent, channel := channel ++ [ev], lagged := true }) := by
    intro x hx
    rw [Discovery.pending_eq, Discovery.pending_eq, hqueue]
    have hdropped : SaySame x (oldest :: ((channel ++ [ev]) ++ (before ++ after)))
        ((channel ++ [ev]) ++ (before ++ after)) := saySame_cons (Ne.symm hx)
    exact SaySame.append_left ⟨hdropped.1.trans (hsame x).1, hdropped.2.trans (hsame x).2⟩ _
  constructor
  case sound => exact h.sound
  case alone => exact alone_sent h hrest hrest'
  case based =>
    intro ev' hev' hnew
    refine h.based ev' ?_ hnew
    rw [Discovery.pending_eq, hqueue] at hev'
    obtain ⟨hev, hothers⟩ := pending_sent hrest
    obtain htodo | (hkept | hself) | hother :
        ev' ∈ w.discovery.todo.map .updated ∨ (ev' ∈ channel ∨ ev' = ev) ∨
          ev' ∈ before ++ after := by
      simpa only [List.mem_append, List.mem_singleton] using hev'
    · exact List.mem_append_left _ htodo
    · refine List.mem_append_right _ (List.mem_append_left _ ?_)
      exact hchannel ▸ List.mem_cons_of_mem _ hkept
    · exact hself ▸ hev
    · exact hothers ev' hother
  case queued =>
    exact fun x r hr hbase => hqueue ▸ ((hsame x).agrees (h.queued x r hr hbase)).of_cons
  case whole =>
    intro x r hr hbase hlost
    obtain ⟨hne, hlost⟩ := not_or.mp (List.mem_cons.not.mp hlost)
    exact (hpending x hne).agrees (h.whole x r hr hbase hlost)
  case known =>
    intro x hx
    obtain ⟨r, hr, hbase, e, he, hknown, hshows⟩ := h.known x hx
    refine ⟨r, hr, hbase, e, he, hknown, fun hlost => ?_⟩
    obtain ⟨hne, hlost⟩ := not_or.mp (List.mem_cons.not.mp hlost)
    exact (hpending x hne).shows (hshows hlost)
  case behind => exact fun _ => .inl rfl
  case waiting => exact h.waiting
  case early =>
    grind

theorem inv_publish (before after sweeping unsent : List ScentEvent) (h : ProjectInv w)
    (hrest : w.discovery.sweeping ++ w.discovery.unsent = before ++ ev :: after)
    (hrest' : sweeping ++ unsent = before ++ after) :
    ProjectInv ⟨Discovery.publish { w.discovery with sweeping, unsent } ev, w.projected,
      w.discovery.dropped.map ScentEvent.subject ++ w.lost⟩ := by
  unfold Discovery.dropped
  by_cases hsubscribed : w.discovery.subscribed = true
  · by_cases hroom : w.discovery.channel.length < scentEventChannelCapacity
    · grind [Discovery.publish, inv_sent]
    · have hpublish : Discovery.publish { w.discovery with sweeping, unsent } ev =
          { w.discovery with
            sweeping, unsent, channel := w.discovery.channel.tail ++ [ev], lagged := true } := by
        simp [Discovery.publish, hsubscribed, hroom]
      rw [hpublish, if_pos ⟨hsubscribed, hroom⟩]
      cases hchannel : w.discovery.channel with
      | nil => simp [hchannel, scentEventChannelCapacity] at hroom
      | cons oldest channel => exact inv_dropped h hrest hrest' hsubscribed hchannel
  · grind [Discovery.publish, inv_unheard]

end Publish

/-! ### A turn of the bridge -/

section Turn

variable {w : Projecting} {ev : ScentEvent} {x : String} {r : ScentRecord}

variable {now : Instant} {before after : List ScentEvent} {e : ReceiverRegistryEntry}

theorem get_of_listed {s : ScentStore} (h : StoreSound s)
    (hr : r ∈ s.listActiveAt now) : s.get r.michiId = some r := by
  obtain ⟨x, hx⟩ := ScentStore.mem_list.mp (List.mem_of_mem_filter hr)
  rwa [(h x r hx).1]

theorem listed_tells {s : ScentStore} (h : StoreSound s)
    (honline : ∀ r ∈ s.listActiveAt now, r.online = true) (hr : s.get x = some r)
    (hbase : r.baseUrl ≠ none) :
    Agrees x r ((s.listActiveAt now).map .updated) := by
  have hsame : ∀ ev ∈ (s.listActiveAt now).map ScentEvent.updated, ev.subject = x →
      ev = .updated r ∧ r.online = true := by
    intro ev hev hsubject
    obtain ⟨r', hr', rfl⟩ := List.mem_map.mp hev
    have hget := get_of_listed h hr'
    rw [show r'.michiId = x from hsubject] at hget
    cases hr.symm.trans hget
    exact ⟨rfl, honline r hr'⟩
  have hsound := (h x r hr).2
  refine ⟨fun p hp => ?_, fun u hu => ?_⟩
  · obtain ⟨ev, hev, htells⟩ := exists_of_lastly hp
    grind [presenceOf, newPresence_record]
  · obtain ⟨ev, hev, htells⟩ := exists_of_lastly hu
    grind [addressOf, newBaseUrl_record]

theorem agrees_append (hbefore : Agrees x r before)
    (hafter : Agrees x r after) : Agrees x r (before ++ after) := by
  refine ⟨fun p hp => ?_, fun u hu => ?_⟩
  · rw [lastly_append] at hp
    obtain hlate | ⟨-, hearly⟩ := Option.or_eq_some_iff.mp hp
    · exact hafter.1 p hlate
    · exact hbefore.1 p hearly
  · rw [lastly_append] at hu
    obtain hlate | ⟨-, hearly⟩ := Option.or_eq_some_iff.mp hu
    · exact hafter.2 u hlate
    · exact hbefore.2 u hearly

theorem shows_prepend (h : Shows x r e after) : Shows x r e (before ++ after) := by
  refine ⟨fun hp => h.1 ?_, fun hu => h.2 ?_⟩
  · rw [lastly_append, Option.or_eq_none_iff] at hp
    exact hp.1
  · rw [lastly_append, Option.or_eq_none_iff] at hu
    exact hu.1

theorem shows_listed
    (hid : r.michiId = x) (hsound : Sound r) (honline : r.online = true) (hbase : r.baseUrl ≠ none)
    (hmem : .updated r ∈ before) : Shows x r e (before ++ after) := by
  have hsubject : (ScentEvent.updated r).subject = x := hid
  refine ⟨fun hp => ?_, fun hu => ?_⟩
  · rw [lastly_append, Option.or_eq_none_iff] at hp
    have hsilent := lastly_eq_none_iff.mp hp.2 _ hmem
    grind [presenceOf, newPresence_record]
  · rw [lastly_append, Option.or_eq_none_iff] at hu
    have hsilent := lastly_eq_none_iff.mp hu.2 _ hmem
    grind [addressOf, newBaseUrl_record]

/-- The list that is taken after a loss keeps the invariant. -/
theorem inv_listed (h : ProjectInv w) (hlists : w.discovery.Lists) (hlisted : Listed w now) :
    ProjectInv ⟨{ w.discovery with
      snapshotDue := false, todo := w.discovery.scent.listActiveAt now }, w.projected, []⟩ := by
  obtain ⟨hsubscribed, hdue, -⟩ := hlists
  obtain ⟨honline, hcovered⟩ := hlisted
  have hpending : w.discovery.pending = w.discovery.queue := by
    rw [Discovery.pending_eq, h.waiting hdue, List.map_nil, List.nil_append]
  have hqueue : Discovery.queue { w.discovery with
      snapshotDue := false, todo := w.discovery.scent.listActiveAt now } =
      w.discovery.queue := rfl
  constructor
  case sound => exact h.sound
  case alone => exact h.alone
  case based =>
    intro ev hev hnew
    rw [Discovery.pending_eq, hqueue] at hev
    obtain hlist | hold := List.mem_append.mp hev
    · obtain ⟨r, hr, rfl⟩ := List.mem_map.mp hlist
      have hget := get_of_listed h.sound hr
      refine ⟨r, hget, fun hnone => hnew ?_⟩
      rw [newBaseUrl_record (.inr rfl) (h.sound _ r hget).2 (honline r hr), hnone]
    · exact h.based ev (hpending ▸ hold) hnew
  case queued => exact h.queued
  case whole =>
    intro x r hr hbase _
    rw [Discovery.pending_eq, hqueue]
    exact agrees_append (listed_tells h.sound honline hr hbase) (h.queued x r hr hbase)
  case known =>
    intro x hx
    obtain ⟨r, hr, hbase, e, he, hknown, hshows⟩ := h.known x hx
    refine ⟨r, hr, hbase, e, he, hknown, fun _ => ?_⟩
    rw [Discovery.pending_eq, hqueue]
    by_cases hlost : x ∈ w.lost
    · obtain ⟨r', hr', hid⟩ := hcovered x hlost hx
      have hget := get_of_listed h.sound hr'
      rw [hid] at hget
      cases hr.symm.trans hget
      exact shows_listed hid (h.sound x r hr).2 (honline r hr') hbase (List.mem_map_of_mem hr')
    · exact shows_prepend (hpending ▸ hshows hlost)
  case behind => exact fun hno => absurd rfl hno
  case waiting => exact fun hno => nomatch hno
  case early =>
    grind

/-- The entry that is found after the event shows the record. -/
theorem shows_handled {reg reg' : ReceiverRegistry}
    {rest : List ScentEvent} (hhandled : Handled reg ev reg')
    (hget : reg'.getMut ev.subject = some e)
    (hself : ∀ e' ∈ reg.getMut ev.subject, knownAs e' = ev.subject)
    (hagrees : Agrees ev.subject r (ev :: rest))
    (hshowed : newBaseUrl ev = none → ∀ old, reg.getMut ev.subject = some old →
      Shows ev.subject r old (ev :: rest)) : Shows ev.subject r e rest := by
  obtain ⟨-, hpresence, haddress, hkept⟩ := getMut_handled hhandled hget hself
  have hfirst : presenceOf ev.subject ev = newPresence ev := if_pos rfl
  have hsecond : addressOf ev.subject ev = newBaseUrl ev := if_pos rfl
  refine ⟨fun hp => ?_, fun hu => ?_⟩
  · cases hnew : newPresence ev with
    | some p =>
      rw [hpresence p hnew]
      refine hagrees.1 p ?_
      rw [lastly_cons, hp, Option.none_or, hfirst, hnew]
    | none =>
      have hquiet : newBaseUrl ev = none := by
        cases hhandled with
        | unchanged h =>
          grind
        | written p hp' => rw [hnew] at hp'; cases hp'
        | adopted p hp' => rw [hnew] at hp'; cases hp'
        | projected p hp' => rw [hnew] at hp'; cases hp'
      obtain ⟨old, hold, -, hsame⟩ := hkept hquiet
      rw [hsame hnew]
      refine (hshowed hquiet old hold).1 ?_
      rw [lastly_cons, hp, Option.none_or, hfirst, hnew]
  · cases hnew : newBaseUrl ev with
    | some u =>
      rw [haddress u hnew]
      refine hagrees.2 u ?_
      rw [lastly_cons, hu, Option.none_or, hsecond, hnew]
    | none =>
      obtain ⟨old, hold, hsame, -⟩ := hkept hnew
      rw [hsame]
      refine (hshowed hnew old hold).2 ?_
      rw [lastly_cons, hu, Option.none_or, hsecond, hnew]

/-- An event that is handled keeps the invariant. -/
theorem inv_handled {d : Discovery} (h : ProjectInv w) (hrecognised : Recognised w ev)
    (hpending : w.discovery.pending = ev :: d.pending)
    (hqueue : d.queue = w.discovery.queue ∨ w.discovery.queue = ev :: d.queue)
    (hhandled : Handled w.discovery.registry ev d.registry)
    (hscent : d.scent = w.discovery.scent) (hsweeping : d.sweeping = w.discovery.sweeping)
    (hunsent : d.unsent = w.discovery.unsent) (hlagged : d.lagged = w.discovery.lagged)
    (hdue : w.discovery.snapshotDue = false) (hdue' : d.snapshotDue = false)
    (hsubscribed : d.subscribed = true) :
    ProjectInv ⟨d, (if (newBaseUrl ev).isSome ∧ (d.registry.getMut ev.subject).isSome then
      [ev.subject] else []) ++ w.projected, w.lost⟩ := by
  obtain ⟨hself, hsecond⟩ := hrecognised
  constructor
  case sound => exact hscent ▸ h.sound
  case alone => simpa only [hsweeping, hunsent] using h.alone
  case based =>
    intro ev' hev' hnew
    simp only [hscent]
    exact h.based ev' (hpending ▸ List.mem_cons_of_mem ev hev') hnew
  case queued =>
    intro x r hr hbase
    simp only [hscent] at hr
    have hagrees := h.queued x r hr hbase
    obtain hsame | hsame := hqueue
    · simpa only [hsame] using hagrees
    · rw [hsame] at hagrees
      exact hagrees.of_cons
  case whole =>
    intro x r hr hbase hlost
    simp only [hscent] at hr
    have hagrees := h.whole x r hr hbase hlost
    rw [hpending] at hagrees
    exact hagrees.of_cons
  case known =>
    intro x hx
    by_cases hsubject : ev.subject = x
    · subst hsubject
      -- the peer has a record with an address, from before or by the event
      have hrecord : ∃ r, w.discovery.scent.get ev.subject = some r ∧ r.baseUrl ≠ none := by
        obtain hnew | hold := List.mem_append.mp hx
        · split at hnew
          · next htells =>
            exact h.based ev (hpending ▸ List.mem_cons_self) (Option.isSome_iff_ne_none.mp htells.1)
          · cases hnew
        · obtain ⟨r, hr, hbase, -⟩ := h.known _ hold
          exact ⟨r, hr, hbase⟩
      have hentry : ∃ e, d.registry.getMut ev.subject = some e := by
        obtain hnew | hold := List.mem_append.mp hx
        · split at hnew
          · next htells => exact Option.isSome_iff_exists.mp htells.2
          · cases hnew
        · obtain ⟨r, -, -, e, he, -⟩ := h.known _ hold
          exact getMut_handled_isSome hhandled he
      obtain ⟨r, hr, hbase⟩ := hrecord
      obtain ⟨e, he⟩ := hentry
      have hknown := (getMut_handled hhandled he hself).1
      refine ⟨r, by rw [hscent]; exact hr, hbase, e, he, hknown, fun hlost => ?_⟩
      refine shows_handled hhandled he hself (hpending ▸ h.whole _ r hr hbase hlost) ?_
      intro hquiet old hold
      obtain hnew | hbefore := List.mem_append.mp hx
      · rw [hquiet] at hnew
        cases hnew
      · obtain ⟨r', hr', -, e', he', -, hshows⟩ := h.known _ hbefore
        grind
    · have hold : x ∈ w.projected := by
        grind
      obtain ⟨r, hr, hbase, e, he, hknown, hshows⟩ := h.known x hold
      have hkept := getMut_handled_of_ne hhandled hsubject he hknown hself
        fun hnone e' he' hid hsame => hsecond hnone e' he' hid (hsame ▸ hold)
      refine ⟨r, by rw [hscent]; exact hr, hbase, e, hkept, hknown, fun hlost => ?_⟩
      exact (saySame_cons hsubject).shows (hpending ▸ hshows hlost)
  case behind => simpa only [hlagged, hdue, hdue'] using h.behind
  case waiting => exact fun hno => by rw [hdue'] at hno; cases hno
  case early => exact fun hno => by rw [hsubscribed] at hno; cases hno

end Turn

/-! ## The run -/

section Run

variable {w : Projecting}

/-- So does an orderly authentication. -/
theorem inv_authenticated {receiverId token : String} {michiId : Option String}
    (h : ProjectInv w) (hmove : Orderly w (.authenticated receiverId token michiId)) :
    ProjectInv (projectStep w (.authenticated receiverId token michiId)) where
  sound := h.sound
  alone := h.alone
  based := h.based
  queued := h.queued
  whole := h.whole
  known x hx := by
    obtain ⟨r, hr, hbase, e, he, hknown, hshows⟩ := h.known x hx
    obtain hsame | ⟨hfound, hwritten⟩ := getMut_authenticated token he hknown
      fun found hfound => (hmove found hfound).1
    · exact ⟨r, hr, hbase, e, hsame, hknown, hshows⟩
    · obtain ⟨hid, honline⟩ := hmove e hfound
      have hkeeps := (Discovery.knownAs_authenticate token hid).trans hknown
      refine ⟨r, hr, hbase, _, hwritten, hkeeps, fun hlost => ⟨fun _ => ?_, (hshows hlost).2⟩⟩
      exact (honline (hknown.symm ▸ hx) r (hknown.symm ▸ hr)).symm
  behind := h.behind
  waiting := h.waiting
  early := h.early

/-- So does an orderly call. -/
theorem inv_op {op : ScentOp} {now : Instant} (h : ProjectInv w)
    (hmove : Orderly w (.call ⟨op, now⟩)) :
    ProjectInv ⟨w.discovery.step (.call ⟨op, now⟩), w.projected, w.lost⟩ := by
  obtain ⟨hstream, hnoticed, hclear⟩ := hmove
  have hsends := sends_of_op h.sound hstream hnoticed
  have halone := h.alone
  simp only [Discovery.step]
  split
  · exact h
  next hsweeping =>
  have hnone : w.discovery.sweeping = [] := not_not.mp hsweeping
  rw [hnone, List.nil_append] at halone
  -- what is sent is about peers of which nothing is unsent
  have hapart : ∀ a ∈ (op.events now w.discovery.scent).map ScentEvent.subject,
      ∀ b ∈ w.discovery.unsent.map ScentEvent.subject, a ≠ b := by
    rintro _ ha _ hb rfl
    obtain ⟨ev, hev, hsame⟩ := List.mem_map.mp ha
    obtain ⟨ev', hev', rfl⟩ := List.mem_map.mp hb
    have htouched := hsends.touched ev hev
    rw [hsame, hclear ev' hev'] at htouched
    cases htouched
  split
  · next hsweep =>
    refine inv_call w.discovery.channel w.discovery.unsent h hsends ?_ hclear
      rfl rfl ?_ rfl rfl rfl rfl rfl rfl
    · rw [Discovery.queue, hnone, List.nil_append]
    · rw [List.map_append, List.nodup_append]
      exact ⟨hsends.apart, halone, hapart⟩
  · refine inv_call w.discovery.queue [] h hsends (List.append_nil _).symm
      (fun _ hno => nomatch hno) rfl ?_ ?_ rfl rfl rfl rfl rfl rfl
    · simp [Discovery.queue]
    · simp only [hnone, List.nil_append, List.map_append, List.nodup_append]
      exact ⟨halone, hsends.apart, fun b hb a ha => (hapart a ha b hb).symm⟩

/-- So does an orderly turn of the bridge. -/
theorem inv_turn {now : Instant} (h : ProjectInv w) (hmove : Orderly w (.goOn now)) :
    ProjectInv (projectStep w (.goOn now)) := by
  obtain ⟨hlisted, hrecognised⟩ := hmove
  have hturn := w.discovery.turn now
  have hpublishes : w.discovery.Publishes (.goOn now) = false := rfl
  simp only [projectStep, newlyProjected, stillLost, hpublishes, Bool.false_eq_true, if_false,
    Discovery.step]
  generalize w.discovery.bridge now = d at hturn ⊢
  cases hturn with
  | idle hlists hnext =>
    rw [hnext, if_neg hlists]
    exact h
  | listed hlists =>
    have hnext : w.discovery.next = none := if_pos (.inr hlists.2.1)
    grind [inv_listed]
  | reconciled record todo hdue htodo hnext =>
    have hlists : ¬ w.discovery.Lists := fun hno => by rw [hno.2.1] at hdue; cases hdue
    have hsubscribed : w.discovery.subscribed = true := by
      by_contra hno
      simp [Discovery.next, hno] at hnext
    simp only [hnext, if_neg hlists]
    exact inv_handled h (hrecognised _ hnext) (by simp [Discovery.pending, htodo]) (.inl rfl)
      (handleEvent_cases _ _) rfl rfl rfl rfl hdue hdue hsubscribed
  | told hdue htodo hlagged hnext =>
    have hlists : ¬ w.discovery.Lists := fun hno => by rw [hno.2.1] at hdue; cases hdue
    rw [hnext, if_neg hlists]
    exact { h with
      behind := fun _ => .inr rfl
      waiting := fun _ => htodo }
  | received ev channel hdue hchannel htodo hnext =>
    have hlists : ¬ w.discovery.Lists := fun hno => by rw [hno.2.1] at hdue; cases hdue
    have hsubscribed : w.discovery.subscribed = true := by
      by_contra hno
      simp [Discovery.next, hno] at hnext
    simp only [hnext, if_neg hlists]
    exact inv_handled h (hrecognised _ hnext) (by simp [Discovery.pending, htodo, hchannel])
      (.inr (by simp [Discovery.queue, hchannel])) (handleEvent_cases _ _) rfl rfl rfl rfl hdue hdue
      hsubscribed

/-- Each orderly move keeps the invariant. -/
theorem inv_step {mv : DiscoveryMove} (h : ProjectInv w) (hmove : Orderly w mv) :
    ProjectInv (projectStep w mv) := by
  cases mv with
  | call c => exact inv_op h hmove
  | send i =>
    cases hget : w.discovery.unsent[i]? with
    | none =>
      have hstep : projectStep w (.send i) = w := by
        simp [projectStep, newlyProjected, stillLost, Discovery.Publishes, Discovery.step, hget]
      rwa [hstep]
    | some ev =>
      have hstep : projectStep w (.send i) = ⟨Discovery.publish { w.discovery with
          unsent := w.discovery.unsent.eraseIdx i } ev, w.projected,
          w.discovery.dropped.map ScentEvent.subject ++ w.lost⟩ := by
        simp [projectStep, newlyProjected, stillLost, Discovery.Publishes, Discovery.step, hget]
      obtain ⟨hi, rfl⟩ := List.getElem?_eq_some_iff.mp hget
      rw [hstep]
      refine inv_publish (w.discovery.sweeping ++ w.discovery.unsent.take i)
        (w.discovery.unsent.drop (i + 1)) w.discovery.sweeping _ h ?_ ?_
      · simp
      · rw [List.eraseIdx_eq_take_drop_succ, List.append_assoc]
  | sweepSend =>
    cases hsweeping : w.discovery.sweeping with
    | nil =>
      have hstep : projectStep w .sweepSend = w := by
        simp [projectStep, newlyProjected, stillLost, Discovery.Publishes, Discovery.step,
          hsweeping]
      rwa [hstep]
    | cons ev sweeping =>
      have hstep : projectStep w .sweepSend = ⟨Discovery.publish { w.discovery with sweeping } ev,
          w.projected, w.discovery.dropped.map ScentEvent.subject ++ w.lost⟩ := by
        simp [projectStep, newlyProjected, stillLost, Discovery.Publishes, Discovery.step,
          hsweeping]
      rw [hstep]
      refine inv_publish [] (sweeping ++ w.discovery.unsent) sweeping w.discovery.unsent h ?_ rfl
      rw [hsweeping]
      rfl
  | subscribe =>
    have hstep : projectStep w .subscribe =
        ⟨if w.discovery.subscribed then w.discovery
          else { w.discovery with subscribed := true, snapshotDue := true }, w.projected, w.lost⟩ :=
      rfl
    rw [hstep]
    split
    · exact h
    · next hnot =>
      obtain ⟨-, htodo, -⟩ := h.early (by simpa using hnot)
      exact { h with
        behind := fun _ => .inr rfl
        waiting := fun _ => htodo
        early := fun hno => nomatch hno }
  | goOn now => exact inv_turn h hmove
  | authenticated receiverId token michiId => exact inv_authenticated h hmove

theorem inv_start (registry : ReceiverRegistry) : ProjectInv (.start registry) where
  sound x r hr := by
    rw [show (Projecting.start registry).discovery.scent.get x = none from ScentStore.get_new x] at hr
    cases hr
  alone := List.nodup_nil
  based _ hev := nomatch hev
  queued x r hr := by
    rw [show (Projecting.start registry).discovery.scent.get x = none from ScentStore.get_new x] at hr
    cases hr
  whole x r hr := by
    rw [show (Projecting.start registry).discovery.scent.get x = none from ScentStore.get_new x] at hr
    cases hr
  known _ hx := nomatch hx
  behind hno := absurd rfl hno
  waiting hno := nomatch hno
  early _ := ⟨rfl, rfl, rfl, rfl⟩

theorem converged_of_inv (h : ProjectInv w) : Converged w := by
  rintro ⟨hpending, hlagged, hdue⟩ x hx
  obtain ⟨r, hr, hbase, e, he, hknown, hshows⟩ := h.known x hx
  have hlost : x ∉ w.lost := by
    intro hin
    obtain hlag | hsnap := h.behind (List.ne_nil_of_mem hin)
    · rw [hlagged] at hlag
      cases hlag
    · rw [hdue] at hsnap
      cases hsnap
  obtain ⟨hpresence, haddress⟩ := hshows hlost
  rw [hpending] at hpresence haddress
  exact ⟨r, hr, e, he, hpresence rfl, haddress rfl⟩

end Run

/-- Convergence: along every run whose moves are orderly, whatever the tasks do and whatever the
channel drops, whenever the store is as it is, nothing is on its way and the bridge is at rest, every
entry that was projected from a record has its presence and its address. -/
theorem projection_converges (registry : ReceiverRegistry) (moves : List DiscoveryMove)
    (hmoves : Trace.Obeys projectStep Orderly (.start registry) moves) :
    ∀ before, before <+: moves → Converged (Trace.run projectStep (.start registry) before) := by
  rintro before ⟨rest, rfl⟩
  have hbefore := (Trace.obeys_append_iff.mp hmoves).1
  exact converged_of_inv (Trace.run_invariant (fun _ _ => inv_step) (inv_start registry) hbefore)

/-! ### A receiver that comes and goes, and two runs that leave it wrong -/

def sight (baseUrl : Url) : ScentOp :=
  .observeMdnsCandidate ⟨"kitchen", "stream-01", "Kitchen", "michi-stream-hifi", ["audio_receiver"]⟩
    baseUrl none

def hear (michiId : String) : ScentOp :=
  .observeSignedWithHome michiId michiId "Receiver" "michi-stream-hifi" ["audio_receiver"] none
    none none

def later : Instant := 91 * 1000000000

def arrived : List DiscoveryMove :=
  [.subscribe, .goOn 0, .call ⟨sight "http://10.0.0.20:80/", 1⟩, .send 0, .goOn 1]

def cameAndWent : List DiscoveryMove :=
  arrived ++ [.call ⟨hear "kitchen", 2⟩, .send 0, .call ⟨sight "http://10.0.0.30:80/", 3⟩, .send 0,
    .goOn 3, .goOn 3, .call ⟨.checkExpirations, 2 * later⟩, .sweepSend, .goOn (2 * later)]

def outOfTurn : List DiscoveryMove :=
  arrived ++ [.call ⟨hear "kitchen", 2⟩, .call ⟨sight "http://10.0.0.30:80/", 3⟩, .send 1, .send 0,
    .goOn 3, .goOn 3]

/-- It goes offline, and another is announced as often as the channel has room, while the bridge is
held up. -/
def overrun : List DiscoveryMove :=
  arrived ++ [.call ⟨.checkExpirations, 2 * later⟩, .sweepSend] ++
    (List.replicate scentEventChannelCapacity
      [.call ⟨hear "attic", 2 * later⟩, .send 0]).flatten ++
    List.replicate (scentEventChannelCapacity + 3) (.goOn (2 * later))

/-- A receiver comes, moves and goes, and the task catches up. -/
theorem projection_converges_came_and_went :
    Trace.Obeys projectStep Orderly (.start ⟨[], by simp⟩) cameAndWent ∧
      ∀ before, before <+: cameAndWent →
        Converged (Trace.run projectStep (.start ⟨[], by simp⟩) before) := by
  have hmoves : Trace.Obeys projectStep Orderly (.start ⟨[], by simp⟩) cameAndWent := by
    decide +kernel
  exact ⟨hmoves, projection_converges ⟨[], by simp⟩ cameAndWent hmoves⟩

/-- Where a run ends with the bridge at rest: what the store has of the kitchen receiver, and what its
entry shows. -/
def atRest (moves : List DiscoveryMove) :
    Option ((ReceiverPresence × Option Url) × (ReceiverPresence × Url)) :=
  let w := (Trace.run projectStep (.start ⟨[], by simp⟩) moves).discovery
  if Quiet w then
    (w.scent.get "kitchen").bind fun r => (w.registry.getMut "kitchen").map fun e =>
      ((shownPresence r, r.baseUrl), (e.presence, e.baseUrl))
  else none

theorem projected_of_before {x : String} {w : Projecting} {before moves : List DiscoveryMove}
    (hbefore : before <+: moves) (h : x ∈ (Trace.run projectStep w before).projected) :
    x ∈ (Trace.run projectStep w moves).projected := by
  obtain ⟨rest, rfl⟩ := hbefore
  rw [Trace.run_append]
  generalize Trace.run projectStep w before = w' at h
  induction rest generalizing w' with
  | nil => exact h
  | cons mv rest ih => exact ih _ (List.mem_append_right _ h)

theorem not_converged_of_atRest {moves : List DiscoveryMove}
    {shown : ReceiverPresence × Option Url} {kept : ReceiverPresence × Url}
    (h : atRest moves = some (shown, kept)) (hne : (kept.1, some kept.2) ≠ shown)
    (hknown : "kitchen" ∈ (Trace.run projectStep (.start ⟨[], by simp⟩) moves).projected) :
    ¬ Converged (Trace.run projectStep (.start ⟨[], by simp⟩) moves) := by
  intro hconverged
  unfold atRest at h
  dsimp only at h
  split at h
  next hquiet =>
    obtain ⟨r, hr, hentry⟩ := Option.bind_eq_some_iff.mp h
    obtain ⟨e, he, heq⟩ := Option.map_eq_some_iff.mp hentry
    obtain ⟨r', hr', e', he', hpresence, hurl⟩ := hconverged hquiet "kitchen" hknown
    grind
  next => cases h

/-- The entry keeps the address that the receiver has left, or stays online when it is offline. -/
theorem projection_diverges :
    (¬ Converged (Trace.run projectStep (.start ⟨[], by simp⟩) outOfTurn) ∧
      atRest outOfTurn = some ((.verifiedOnline, some "http://10.0.0.30:80/"),
        (.verifiedOnline, "http://10.0.0.20:80/"))) ∧
    (¬ Converged (Trace.run projectStep (.start ⟨[], by simp⟩) overrun) ∧
      atRest overrun = some ((.offline, some "http://10.0.0.20:80/"),
        (.provisionalMdns, "http://10.0.0.20:80/"))) := by
  have hknown : "kitchen" ∈ (Trace.run projectStep (.start ⟨[], by simp⟩) arrived).projected := by
    decide +kernel
  have hturn : atRest outOfTurn = some ((.verifiedOnline, some "http://10.0.0.30:80/"),
      (.verifiedOnline, "http://10.0.0.20:80/")) := by decide +kernel
  have hover : atRest overrun = some ((.offline, some "http://10.0.0.20:80/"),
      (.provisionalMdns, "http://10.0.0.20:80/")) := by decide +kernel
  refine ⟨⟨not_converged_of_atRest hturn (by decide) (projected_of_before ?_ hknown), hturn⟩,
    not_converged_of_atRest hover (by decide) (projected_of_before ?_ hknown), hover⟩
  · exact List.prefix_append _ _
  · simp [overrun]

end MichiServer.Receivers
