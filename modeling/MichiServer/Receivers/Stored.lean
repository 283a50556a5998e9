import MichiServer.Receivers.Bootstrap
import MichiServer.Receivers.Capabilities
import MichiServer.Logic.Keyed

/-!
# Paired receivers in the database

Three functions store a paired receiver, a row with its capabilities and a credential with its token:
`persist_paired_receiver` after a pairing, `authenticate_receiver` after an authentication, and
`reconcile_unrecovered_pairings` in its two recovery branches. The start reads them back. What each
stores of the capabilities, and under which id it seals the token, differs: `restored_iff` says exactly
when the start rebuilds the entry that was stored.

A state is that of the start, with what the registry and the rows have of the capabilities beside it.
-/

namespace MichiServer.Receivers.Stored

open MichiServer.Logic MichiServer.Receivers.Trust MichiServer.Receivers.Bootstrap

structure ProfileColumns where
  deviceType : String := ""
  capabilitiesJson : Option Json := none
  authoritySupported : Bool := false

/-- The manager and the tables, with the profile of each entry of the registry, by its receiver id, and
the further columns of each row, by its id. -/
structure ReceiverState extends BootState where
  profile : String → ReceiverProfile := fun _ => {}
  columns : String → ProfileColumns := fun _ => {}

/-! ## The writers -/

/-- What a writer has stored: the state it leaves, the id of the row, the token it sealed, and what the
entry in the registry supports. -/
structure Write where
  state : ReceiverState
  id : String
  token : String
  audio : AudioProfile

/-- `persist_paired_receiver_transaction`, committed. A credential refers to a row of `receivers`, and a
row without a document is given the empty one. -/
def persistPairedReceiverTransaction (rec : PersistedReceiver) (columns : ProfileColumns)
    (cred : PersistedReceiverCredential) (s : ReceiverState) : Option ReceiverState :=
  let stored := Bootstrap.persistPairedReceiverTransaction rec cred s.toBootState
  if ∃ r ∈ stored.receivers, r.id = cred.receiverId then
    some {
      toBootState := stored
      profile := s.profile
      columns := Function.update s.columns rec.id
        { columns with capabilitiesJson := some (columns.capabilitiesJson.getD (.object [])) } }
  else none

def addEntry (entry : ReceiverRegistryEntry) (profile : ReceiverProfile) (s : ReceiverState) :
    ReceiverState :=
  { s with
    toBootState := withRegistry s.toBootState (s.manager.registry.add entry)
    profile := Function.update s.profile entry.receiverId profile }

section

variable (store : Option ReceiverCredentialStore)

def persistPairedReceiver (deviceId : String) (s : ReceiverState) : Option Write := do
  let entry ← s.manager.registry.get deviceId
  let caps := (s.profile entry.receiverId).toCapabilities
  let token ← entry.token
  let store ← store
  let (ciphertext, nonce) ← store.encryptToken deviceId token
  let state ← persistPairedReceiverTransaction
    { id := deviceId, michiId := entry.michiId, baseUrl := entry.baseUrl, paired := entry.paired }
    { deviceType := caps.deviceType
      capabilitiesJson := some caps.toJson
      authoritySupported := (s.profile entry.receiverId).authoritySupported }
    { receiverId := deviceId, ciphertext, nonce } s
  pure { state, id := deviceId, token, audio := (s.profile entry.receiverId).toAudioProfile }

/-- What `authenticate_receiver_inner` writes into the entry it finds. -/
def authenticate (receiverId sessionToken : String) (info : ReceiverInfo) (caps : CapabilityInfo)
    (s : ReceiverState) : ReceiverState :=
  { s with
    toBootState := withRegistry s.toBootState
      (s.manager.registry.modify receiverId (authenticatedEntry sessionToken info))
    profile :=
      match s.manager.registry.getMut receiverId with
      | some entry => Function.update s.profile entry.receiverId
          ((s.profile entry.receiverId).updateEntryCapabilities caps)
      | none => s.profile }

/-- What `authenticate_receiver_inner` stores at its end, called with this id. -/
def persistSession (receiverId sessionToken : String) (s : ReceiverState) : Option Write := do
  let store ← store
  let (ciphertext, nonce) ← store.encryptToken receiverId sessionToken
  let entry ← s.manager.registry.get receiverId
  let profile := s.profile entry.receiverId
  let state ← persistPairedReceiverTransaction
    { id := entry.receiverId, michiId := entry.michiId, baseUrl := entry.baseUrl, paired := true }
    { deviceType := profile.deviceType
      capabilitiesJson := some (.array (profile.capabilities.map .string))
      authoritySupported := profile.authoritySupported }
    { receiverId, ciphertext, nonce } s
  pure { state, id := entry.receiverId, token := sessionToken, audio := profile.toAudioProfile }

def recoveredProfile (info : RemoteInfo) (caps : CapabilityInfo) : ReceiverProfile where
  deviceType := (caps.deviceType.or info.service).getD "michi-stream-standard"
  capabilities := ["pcm", "rtp"]
  maxSampleRate := 48000
  maxBitDepth := 16
  supportedTransports := ["rtp_udp"]
  supportedCodecs := ["pcm_s16le"]
  supportedSampleRates := [48000]
  supportedBitDepths := [16]
  supportedChannels := [2]

/-- What a recovery branch stores; then it adds the entry to the registry. -/
def persistRecovered (receiverId token baseUrl : String) (sealed : String × String)
    (capabilitiesJson : Option Json) (info : RemoteInfo) (caps : CapabilityInfo) (s : ReceiverState) :
    Option Write := do
  let profile := recoveredProfile info caps
  let state ← persistPairedReceiverTransaction
    { id := receiverId, michiId := info.michiId, baseUrl, paired := true }
    { deviceType := profile.deviceType, capabilitiesJson, authoritySupported := false }
    { receiverId, ciphertext := sealed.1, nonce := sealed.2 } s
  pure {
    state := addEntry (recoveredEntry receiverId token baseUrl info) profile state
    id := receiverId
    token
    audio := profile.toAudioProfile }

/-- The recovery branches of `reconcile_unrecovered_pairings`: the token was in the journal, or was
recovered from the receiver. -/
def reconcile (journal : PairingJournalEntry) (env : JournalEnv) (caps : CapabilityInfo)
    (s : ReceiverState) : Option Write :=
  match outcome store journal env s.toBootState with
  | .fromJournal token info =>
    persistRecovered journal.receiverId token journal.baseUrl
      (journal.tokenCiphertext.getD "", journal.tokenNonce.getD "")
      (some (caps.audio.getD (.object []))) info caps s
  | .recovered deviceId token sealed info =>
    persistRecovered deviceId token journal.baseUrl sealed none info caps s
  | _ => none

inductive Writer where
  | persistPairedReceiver (deviceId : String)
  | authenticateReceiver (receiverId sessionToken : String)
  | reconcile (journal : PairingJournalEntry) (env : JournalEnv) (caps : CapabilityInfo)

def Writer.write : Writer → ReceiverState → Option Write
  | .persistPairedReceiver deviceId => Stored.persistPairedReceiver store deviceId
  | .authenticateReceiver receiverId sessionToken => persistSession store receiverId sessionToken
  | .reconcile journal env caps => Stored.reconcile store journal env caps

/-! ## The start -/

/-- What the capabilities column stands for: blank if it is no document of capabilities. -/
def decoded (capabilitiesJson : Option Json) : AudioProfile :=
  ((capabilitiesJson.bind ReceiverCapabilities.fromJson).map
    ReceiverCapabilities.toAudioProfile).getD {}

def restoredProfile (columns : ProfileColumns) : ReceiverProfile where
  toAudioProfile := decoded columns.capabilitiesJson
  deviceType := columns.deviceType
  capabilities := ["pcm", "rtp"]
  authoritySupported := columns.authoritySupported

def restore (s : ReceiverState) (rec : PersistedReceiver) : ReceiverState :=
  { s with
    toBootState := bootStep store s.toBootState (.restore rec true)
    profile := Function.update s.profile rec.id (restoredProfile (s.columns rec.id)) }

def restoreReceivers (s : ReceiverState) : ReceiverState := Trace.run (restore store) s s.receivers

/-- The start has an entry for the row: it is paired, has the token that was stored, and supports what
the stored entry did. -/
def Restored (w : Write) (s : ReceiverState) : Prop :=
  ∃ entry ∈ (restoreReceivers store s).manager.registry.entry w.id,
    entry.paired = true ∧ entry.token = some w.token ∧
      ((restoreReceivers store s).profile w.id).toAudioProfile = w.audio

/-- A restart finds the receiver as it was left, whatever else has changed. The ids of the rows are
their primary key. -/
structure Unchanged (id : String) (s s' : ReceiverState) : Prop where
  row : s'.receivers.find? (fun r => r.id = id) = s.receivers.find? fun r => r.id = id
  credential : getReceiverCredential s'.toBootState id = getReceiverCredential s.toBootState id
  columns : s'.columns id = s.columns id
  key : (s'.receivers.map PersistedReceiver.id).Nodup

def Deciphers : Prop :=
  ∀ st ∈ store, ∀ id token ciphertext nonce, st.encryptToken id token = some (ciphertext, nonce) →
    st.decryptToken id ciphertext nonce = some token

/-- What a writer has to find so that the start rebuilds what it stores: after a pairing, the entry
paired; after an authentication, an entry that supports nothing, and the token under the id of the row;
in a recovery from the journal, an audio document that is one of the fixed capabilities; a recovery
from the receiver, nothing. -/
def Writer.Keeps (s : ReceiverState) : Writer → Prop
  | .persistPairedReceiver deviceId => ∃ entry ∈ s.manager.registry.get deviceId, entry.paired = true
  | .authenticateReceiver receiverId sessionToken =>
    ∃ entry ∈ s.manager.registry.get receiverId,
      (s.profile entry.receiverId).toAudioProfile = {} ∧
        (entry.receiverId = receiverId ∨
          restoredToken store true s.toBootState { id := entry.receiverId, paired := true } =
            some sessionToken)
  | .reconcile journal env caps =>
    match outcome store journal env s.toBootState with
    | .fromJournal _ info => decoded caps.audio = (recoveredProfile info caps).toAudioProfile
    | _ => False

end

/-! ## What a write leaves -/

section Writes

variable {rec : PersistedReceiver} {columns : ProfileColumns} {cred : PersistedReceiverCredential}
  {s s' : ReceiverState}

/-- The transaction stores the row and the credential under their ids, and leaves the other credentials
and the registry. -/
structure Committed (rec : PersistedReceiver) (columns : ProfileColumns)
    (cred : PersistedReceiverCredential) (s s' : ReceiverState) : Prop where
  row : s'.receivers.find? (fun r => r.id = rec.id) = some rec
  credential : getReceiverCredential s'.toBootState cred.receiverId = some cred
  others : ∀ id, id ≠ cred.receiverId →
    getReceiverCredential s'.toBootState id = getReceiverCredential s.toBootState id
  document : (s'.columns rec.id).capabilitiesJson =
    some (columns.capabilitiesJson.getD (.object []))

theorem committed (h : persistPairedReceiverTransaction rec columns cred s = some s') :
    Committed rec columns cred s s' := by
  unfold persistPairedReceiverTransaction at h
  dsimp only at h
  split at h
  · cases h
    refine ⟨Keyed.find_upsert_self, Keyed.find_upsert_self,
      fun id hid => Keyed.find_upsert_of_ne hid, ?_⟩
    simp only [Function.update_self]
  · cases h

theorem Committed.addEntry (h : Committed rec columns cred s s') (entry : ReceiverRegistryEntry)
    (profile : ReceiverProfile) : Committed rec columns cred s (addEntry entry profile s') :=
  ⟨h.row, h.credential, h.others, h.document⟩

theorem restoredToken_of_credential {store : Option ReceiverCredentialStore} {b : BootState}
    {st : ReceiverCredentialStore} {ciphertext nonce token : String} (hstore : store = some st)
    (hpaired : rec.paired = true)
    (hcred : getReceiverCredential b rec.id = some ⟨rec.id, ciphertext, nonce⟩)
    (htoken : st.decryptToken rec.id ciphertext nonce = some token) :
    restoredToken store true b rec = some token := by
  grind [restoredToken]

end Writes

/-! ## What the start rebuilds -/

section Start

variable (store : Option ReceiverCredentialStore) {rec : PersistedReceiver} {s s' : ReceiverState}

theorem restore_of_ne {id : String} (hid : id ≠ rec.id) :
    (restore store s rec).manager.registry.entry id = s.manager.registry.entry id ∧
      (restore store s rec).profile id = s.profile id :=
  ⟨ReceiverRegistry.entry_add_of_ne hid, Function.update_of_ne hid _ _⟩

theorem run_restore_of_not_mem {recs : List PersistedReceiver} {id : String}
    (hid : id ∉ recs.map PersistedReceiver.id) :
    (Trace.run (restore store) s recs).manager.registry.entry id = s.manager.registry.entry id ∧
      (Trace.run (restore store) s recs).profile id = s.profile id := by
  induction recs generalizing s with
  | nil => exact ⟨rfl, rfl⟩
  | cons r recs ih =>
    rw [List.map_cons, List.mem_cons, not_or] at hid
    obtain ⟨hentry, hprofile⟩ := restore_of_ne store (s := s) hid.1
    obtain ⟨hentries, hprofiles⟩ := ih (s := restore store s r) hid.2
    exact ⟨hentries.trans hentry, hprofiles.trans hprofile⟩

theorem run_restore_of_mem {recs : List PersistedReceiver} (hkey : (recs.map PersistedReceiver.id).Nodup)
    (hrec : rec ∈ recs) :
    (Trace.run (restore store) s recs).manager.registry.entry rec.id =
        some (restoredEntry rec (restoredToken store true s.toBootState rec)) ∧
      (Trace.run (restore store) s recs).profile rec.id = restoredProfile (s.columns rec.id) := by
  induction recs generalizing s with
  | nil => cases hrec
  | cons r recs ih =>
    rw [List.map_cons, List.nodup_cons] at hkey
    rcases List.mem_cons.mp hrec with rfl | hrec
    · obtain ⟨hentries, hprofiles⟩ :=
        run_restore_of_not_mem store (s := restore store s rec) hkey.1
      exact ⟨hentries.trans ReceiverRegistry.entry_add_self, hprofiles.trans (Function.update_self _ _ _)⟩
    · exact ih (s := restore store s r) hkey.2 hrec

theorem restoreReceivers_start (s : ReceiverState) :
    (restoreReceivers store s).toBootState =
      Trace.run (bootStep store) s.toBootState (s.receivers.map fun rec => .restore rec true) := by
  unfold restoreReceivers
  generalize s.receivers = recs
  induction recs generalizing s with
  | nil => rfl
  | cons rec recs ih => exact ih (restore store s rec)

/-- A write is restored exactly where its row can be read. -/
theorem restored_iff_of_row {w : Write} (hsame : Unchanged w.id w.state s)
    (hrow : w.state.receivers.find? (fun r => r.id = w.id) = some rec) :
    Restored store w s ↔
      rec.paired = true ∧ restoredToken store true w.state.toBootState rec = some w.token ∧
        decoded (w.state.columns w.id).capabilitiesJson = w.audio := by
  have hfound := hsame.row.trans hrow
  have hid : rec.id = w.id := by simpa using List.find?_some hfound
  obtain ⟨hentry, hprofile⟩ :=
    run_restore_of_mem store (s := s) hsame.key (List.mem_of_find?_eq_some hfound)
  have htoken : restoredToken store true s.toBootState rec =
      restoredToken store true w.state.toBootState rec := by
    rw [restoredToken, restoredToken, hid, hsame.credential]
  rw [hid] at hentry hprofile
  rw [htoken] at hentry
  rw [hsame.columns] at hprofile
  have haudio : ((restoreReceivers store s).profile w.id).toAudioProfile =
      decoded (w.state.columns w.id).capabilitiesJson := congrArg _ hprofile
  unfold Restored
  rw [haudio, show (restoreReceivers store s).manager.registry.entry w.id = _ from hentry]
  constructor
  · rintro ⟨_, ⟨⟩, hpaired, htoken, haudio⟩
    exact ⟨(Bool.and_eq_true_iff.mp hpaired).1, htoken, haudio⟩
  · rintro ⟨hpaired, htoken, haudio⟩
    refine ⟨_, rfl, ?_, htoken, haudio⟩
    rw [restoredEntry, hpaired, htoken]
    rfl

end Start

/-! ## Each writer -/

section Writers

variable {store : Option ReceiverCredentialStore} {s s' : ReceiverState} {w : Write}

theorem persistPairedReceiver_restored_iff (hcipher : Deciphers store) {deviceId : String}
    (hwrite : persistPairedReceiver store deviceId s = some w) (hsame : Unchanged w.id w.state s') :
    Restored store w s' ↔ ∃ entry ∈ s.manager.registry.get deviceId, entry.paired = true := by
  unfold persistPairedReceiver at hwrite
  simp only [Option.bind_eq_bind, Option.bind_eq_some_iff, Option.pure_def] at hwrite
  obtain ⟨entry, hentry, token, -, st, hstore, ⟨ciphertext, nonce⟩, hsealed, state, hstate, hw⟩ := hwrite
  cases hw
  have hc := committed hstate
  rw [restored_iff_of_row store hsame hc.row]
  have haudio : decoded (state.columns deviceId).capabilitiesJson =
      (s.profile entry.receiverId).toAudioProfile := by
    rw [hc.document, decoded, Option.getD_some, Option.bind_some, ReceiverCapabilities.from_toJson]
    rfl
  constructor
  · exact fun h => ⟨entry, hentry, h.1⟩
  · rintro ⟨found, hfound, hpaired⟩
    cases hentry.symm.trans hfound
    exact ⟨hpaired, restoredToken_of_credential hstore hpaired hc.credential
      (hcipher st hstore _ _ _ _ hsealed), haudio⟩

/-- A session that is persisted is restored exactly where the row is kept. -/
theorem persistSession_restored_iff (hcipher : Deciphers store) {receiverId sessionToken : String}
    (hwrite : persistSession store receiverId sessionToken s = some w)
    (hsame : Unchanged w.id w.state s') :
    Restored store w s' ↔ Writer.Keeps store s (.authenticateReceiver receiverId sessionToken) := by
  unfold persistSession at hwrite
  simp only [Option.bind_eq_bind, Option.bind_eq_some_iff, Option.pure_def] at hwrite
  obtain ⟨st, hstore, ⟨ciphertext, nonce⟩, hsealed, entry, hentry, state, hstate, hw⟩ := hwrite
  cases hw
  have hc := committed hstate
  rw [restored_iff_of_row store hsame hc.row]
  have haudio : decoded (state.columns entry.receiverId).capabilitiesJson = {} := by
    rw [hc.document, decoded, Option.getD_some, Option.bind_some, ReceiverCapabilities.fromJson_names]
    rfl
  -- the row's credential is the new one, or the one that was there
  have htoken : restoredToken store true state.toBootState
        { id := entry.receiverId, michiId := entry.michiId, baseUrl := entry.baseUrl, paired := true } =
        some sessionToken ↔ entry.receiverId = receiverId ∨
      restoredToken store true s.toBootState { id := entry.receiverId, paired := true } =
        some sessionToken := by
    by_cases hid : entry.receiverId = receiverId
    · subst hid
      exact iff_of_true (restoredToken_of_credential hstore rfl hc.credential
        (hcipher st hstore _ _ _ _ hsealed)) (.inl rfl)
    · rw [or_iff_right hid, restoredToken, restoredToken, hc.others _ hid]
  show (true = true) ∧ _ ∧ _ = (s.profile entry.receiverId).toAudioProfile ↔ _
  rw [haudio, htoken]
  constructor
  · exact fun h => ⟨entry, hentry, h.2.2.symm, h.2.1⟩
  · rintro ⟨found, hfound, hblank, hkept⟩
    cases hentry.symm.trans hfound
    exact ⟨rfl, hkept, hblank.symm⟩

/-- So is a token that was recovered. -/
theorem persistRecovered_restored_iff {receiverId token baseUrl : String} {sealed : String × String}
    {capabilitiesJson : Option Json} {info : RemoteInfo} {caps : CapabilityInfo}
    (hsealed : ∃ st ∈ store, st.decryptToken receiverId sealed.1 sealed.2 = some token)
    (hwrite : persistRecovered receiverId token baseUrl sealed capabilitiesJson info caps s = some w)
    (hsame : Unchanged w.id w.state s') :
    Restored store w s' ↔
      decoded (some (capabilitiesJson.getD (.object []))) =
        (recoveredProfile info caps).toAudioProfile := by
  unfold persistRecovered at hwrite
  simp only [Option.bind_eq_bind, Option.bind_eq_some_iff, Option.pure_def] at hwrite
  obtain ⟨state, hstate, hw⟩ := hwrite
  cases hw
  have hc := (committed hstate).addEntry (recoveredEntry receiverId token baseUrl info)
    (recoveredProfile info caps)
  rw [restored_iff_of_row store hsame hc.row]
  obtain ⟨st, hstore, htoken⟩ := hsealed
  have hdocument := hc.document
  constructor
  · grind
  · intro h
    refine ⟨rfl, restoredToken_of_credential hstore rfl hc.credential htoken, ?_⟩
    rw [← hdocument] at h
    exact h

/-! ### The recovery branches -/

variable {journal : PairingJournalEntry} {env : JournalEnv} {info : RemoteInfo}

theorem journalToken_sealed {token : String}
    (h : journalToken store journal env = some (token, info)) :
    ∃ st ∈ store, st.decryptToken journal.receiverId (journal.tokenCiphertext.getD "")
      (journal.tokenNonce.getD "") = some token := by
  unfold journalToken at h
  split at h
  · simp only [Option.bind_eq_bind, Option.bind_eq_some_iff] at h
    obtain ⟨ciphertext, hciphertext, nonce, hnonce, st, hstore, found, hfound, h⟩ := h
    split at h
    · obtain ⟨_, -, heq⟩ := Option.map_eq_some_iff.mp h
      grind
    · cases h
  · cases h

theorem recoveredToken_sealed {deviceId token : String} {sealed : String × String}
    (h : recoveredToken store journal env = .ok (deviceId, token, sealed, info)) :
    ∃ st ∈ store, st.encryptToken deviceId token = some sealed := by
  unfold recoveredToken at h
  split at h
  · cases h
  grind

theorem outcome_sealed {b : BootState} :
    (∀ token, outcome store journal env b = .fromJournal token info →
        journalToken store journal env = some (token, info)) ∧
      ∀ deviceId token sealed, outcome store journal env b = .recovered deviceId token sealed info →
        recoveredToken store journal env = .ok (deviceId, token, sealed, info) := by
  unfold outcome
  split
  · exact ⟨nofun, nofun⟩
  grind

/-- A token that is reconciled is restored exactly where the row is kept. -/
theorem reconcile_restored_iff (hcipher : Deciphers store) {caps : CapabilityInfo}
    (hwrite : reconcile store journal env caps s = some w) (hsame : Unchanged w.id w.state s') :
    Restored store w s' ↔ Writer.Keeps store s (.reconcile journal env caps) := by
  unfold reconcile at hwrite
  simp only [Writer.Keeps]
  split at hwrite
  next token info houtcome =>
    have hsealed := journalToken_sealed (outcome_sealed.1 token houtcome)
    rw [houtcome, persistRecovered_restored_iff hsealed hwrite hsame]
    cases hdocument : caps.audio with
    | some audio => rfl
    | none => rfl
  next deviceId token sealed info houtcome =>
    obtain ⟨st, hstore, hencrypted⟩ := recoveredToken_sealed (outcome_sealed.2 _ _ _ houtcome)
    have hsealed : ∃ st ∈ store, st.decryptToken deviceId sealed.1 sealed.2 = some token :=
      ⟨st, hstore, hcipher st hstore _ _ _ _ hencrypted⟩
    rw [houtcome, persistRecovered_restored_iff hsealed hwrite hsame]
    refine iff_of_false (fun hblank => ?_) id
    -- the empty document is blank, and the entry is not
    exact absurd (congrArg AudioProfile.supportedTransports hblank) (List.cons_ne_nil _ _).symm
  next => cases hwrite

end Writers

/-! ### The writers and the start without capabilities -/

section Base

variable (store : Option ReceiverCredentialStore) (s : ReceiverState)

/-- With columns, the writer does what it does without. -/
theorem persistPairedReceiver_base (deviceId : String) :
    (persistPairedReceiver store deviceId s).map (fun w => w.state.toBootState) =
      (s.manager.registry.get deviceId).bind fun entry =>
        Bootstrap.persistPairedReceiver store deviceId entry {} s.toBootState := by
  have hcommit : ∀ rec columns (cred : PersistedReceiverCredential), rec.id = cred.receiverId →
      (persistPairedReceiverTransaction rec columns cred s).map ReceiverState.toBootState =
        some (Bootstrap.persistPairedReceiverTransaction rec cred s.toBootState) := by
    intro rec columns cred hid
    unfold persistPairedReceiverTransaction
    dsimp only
    rw [if_pos]
    · rfl
    · exact ⟨rec, List.mem_append_right _ (List.mem_singleton.mpr rfl), hid⟩
  unfold persistPairedReceiver Bootstrap.persistPairedReceiver
  cases s.manager.registry.get deviceId with
  | none => rfl
  | some entry =>
    simp only [Option.bind_eq_bind, Option.bind_some, Option.map_bind, Function.comp_def,
      Option.pure_def, Option.map_some]
    refine Option.bind_congr fun token _ => Option.bind_congr fun st _ =>
      Option.bind_congr fun sealed _ => ?_
    rw [if_pos trivial, ← hcommit _ _ ⟨deviceId, sealed.1, sealed.2⟩ rfl, Option.map_eq_bind]
    rfl

/-- So does the reconciliation. -/
theorem reconcile_base {journal : PairingJournalEntry} {env : JournalEnv} {caps : CapabilityInfo}
    {w : Write} (hwrite : reconcile store journal env caps s = some w) :
    replay store journal env s.toBootState =
      recordJournal journal.pairingId .persisted w.state.toBootState := by
  have hrecovered : ∀ {receiverId token : String} {sealed : String × String}
      {capabilitiesJson : Option Json} {info : RemoteInfo},
      persistRecovered receiverId token journal.baseUrl sealed capabilitiesJson info caps s =
        some w →
      w.state.toBootState = withRegistry
        (Bootstrap.persistRecovered receiverId journal.baseUrl sealed info s.toBootState)
        (s.manager.registry.add (recoveredEntry receiverId token journal.baseUrl info)) := by
    intro receiverId token sealed capabilitiesJson info h
    unfold persistRecovered at h
    simp only [Option.bind_eq_bind, Option.bind_eq_some_iff, Option.pure_def] at h
    obtain ⟨state, hstate, hw⟩ := h
    cases hw
    unfold persistPairedReceiverTransaction at hstate
    dsimp only at hstate
    split at hstate
    · cases hstate
      rfl
    · cases hstate
  unfold reconcile at hwrite
  unfold replay
  split at hwrite
  next houtcome =>
    rw [houtcome, hrecovered hwrite]
    rfl
  next houtcome =>
    rw [houtcome, hrecovered hwrite]
    rfl
  next => cases hwrite

theorem authenticate_forgotten {receiverId sessionToken : String} (info : ReceiverInfo)
    (caps : CapabilityInfo) (hentry : (s.manager.registry.entry receiverId).isSome) :
    ¬ Writer.Keeps store (authenticate receiverId sessionToken info caps s)
      (.authenticateReceiver receiverId sessionToken) := by
  obtain ⟨entry, hentry⟩ := Option.isSome_iff_exists.mp hentry
  have hid := ReceiverRegistry.entry_receiverId hentry
  rintro ⟨found, hfound, hblank, -⟩
  have hafter : (s.manager.registry.modify receiverId
      (authenticatedEntry sessionToken info)).get receiverId =
        some { authenticatedEntry sessionToken info entry with receiverId } := by
    rw [ReceiverRegistry.get, ReceiverRegistry.entry_modify_of_entry hentry, if_pos rfl,
      Option.some_or]
  have hsame : found = { authenticatedEntry sessionToken info entry with receiverId } :=
    Option.some.inj ((Option.mem_def.mp hfound).symm.trans hafter)
  subst hsame
  simp only [authenticate, ReceiverRegistry.getMut_of_entry hentry, hid, Function.update_self]
    at hblank
  exact ReceiverProfile.updateEntryCapabilities_ne_blank caps _ hblank

end Base

/-- **What the start rebuilds.** A receiver that a writer has stored, and that a restart finds as it was
left, is rebuilt exactly when the writer found what it needs. -/
theorem restored_iff {store : Option ReceiverCredentialStore} (hcipher : Deciphers store)
    (writer : Writer) (s : ReceiverState) {w : Write} (hwrite : writer.write store s = some w)
    {s' : ReceiverState} (hsame : Unchanged w.id w.state s') :
    Restored store w s' ↔ writer.Keeps store s := by
  cases writer with
  | persistPairedReceiver deviceId =>
    exact persistPairedReceiver_restored_iff hcipher hwrite hsame
  | authenticateReceiver receiverId sessionToken =>
    exact persistSession_restored_iff hcipher hwrite hsame
  | reconcile journal env caps => exact reconcile_restored_iff hcipher hwrite hsame

/-! ## A receiver that plays CD quality -/

def boundStore : ReceiverCredentialStore where
  decryptToken receiverId ciphertext nonce := if nonce = receiverId then some ciphertext else none
  encryptToken receiverId token := some (token, receiverId)

theorem deciphers_boundStore : Deciphers (some boundStore) := by
  rintro _ ⟨⟩ id token ciphertext nonce h
  cases h
  exact if_pos rfl

def restart (s : ReceiverState) : ReceiverState where
  toBootState := restarted s.manager.home [] s.receivers s.credentials s.journals
  columns := s.columns

theorem unchanged_restart {id : String} {s : ReceiverState}
    (hkey : (s.receivers.map PersistedReceiver.id).Nodup) : Unchanged id s (restart s) :=
  ⟨rfl, rfl, rfl, hkey⟩

def cdQuality : CapabilityInfo where
  deviceType := some "michi-stream-standard"
  audio := some (.object [
    ("transports", .array [.string "rtp_udp"]),
    ("codecs", .array [.string "pcm_s16le"]),
    ("sample_rates", .array [.number 44100, .number 48000]),
    ("bit_depths", .array [.number 16]),
    ("channels", .array [.number 2])])

def discovered : ReceiverState where
  manager := {
    home := some sampleHome
    registry := ReceiverRegistry.add ⟨[], List.nodup_nil⟩
      { receiverId := "living-room", baseUrl := "http://10.0.0.7" } }

def paired : ReceiverState :=
  authenticate "living-room" "secret" {} cdQuality discovered

/-- What the pairing stores is rebuilt. -/
theorem restored_iff_paired :
    ∃ w, (Writer.persistPairedReceiver "living-room").write (some boundStore) paired = some w ∧
      Restored (some boundStore) w (restart w.state) :=
  ⟨_, rfl, (restored_iff deciphers_boundStore (.persistPairedReceiver "living-room") paired rfl
    (unchanged_restart (by decide))).mpr ⟨_, rfl, rfl⟩⟩

/-- **An authentication is half forgotten.** What it stores is not rebuilt: the receiver is paired and
has its token, and supports nothing. -/
theorem authenticated_supports_nothing :
    ∃ w, (Writer.authenticateReceiver "living-room" "secret").write (some boundStore) paired = some w ∧
      Unchanged w.id w.state (restart w.state) ∧ ¬ Restored (some boundStore) w (restart w.state) ∧
      ((restoreReceivers (some boundStore) (restart w.state)).profile w.id).toAudioProfile = {} := by
  have hwrite : persistSession (some boundStore) "living-room" "secret" paired = some _ := rfl
  refine ⟨_, hwrite, unchanged_restart (by decide), fun h => ?_, rfl⟩
  have hkept := (persistSession_restored_iff deciphers_boundStore hwrite
    (unchanged_restart (by decide))).mp h
  exact authenticate_forgotten (some boundStore) discovered {} cdQuality rfl hkept

end MichiServer.Receivers.Stored
